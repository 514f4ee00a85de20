import EnumTags.Grammar.OperandRules

/-!
# Reading blocks

A block is a row of statements: bindings, items, macros and expressions. An expression needs a
semicolon behind it unless it ends the block or ends in a block itself.
-/

namespace EnumTags.Rules

open EnumTags.Parser

/-- A binding. No `else` follows a value that ends in curly brackets. -/
def binding (r : Rules) : Parser Tokens := do
  let head ← all [word "let", r.patternTokens, whenAhead (Ahead.op ":") (all [op ":", r.tyTokens])]
  if !(← peek (Ahead.op "=")) then return head ++ (← op ";")
  let equals ← op "="
  let value ← r.expr true
  let other ← if !value.endsInBrace && (← peek (Ahead.word "else")) then
      all [word "else", r.block false]
    else pure []
  return head ++ equals ++ value.tokens ++ other ++ (← op ";")

/-- Whether a keyword of a constant opens an item, and not an expression. -/
def startsConstItem (ls : List Lexeme) : Bool :=
  let behind := Ahead.skip ls
  Ahead.word "const" ls &&
    !(Ahead.opens .brace behind || Ahead.anyWord ["static", "move"] behind ||
      Ahead.op "|" behind ||
      (Ahead.word "async" behind &&
        !Ahead.anyWord ["unsafe", "extern", "fn"] (Ahead.skip behind)))

/-- Whether a statement that stands here is an item, macros apart. -/
def startsItem (ls : List Lexeme) : Bool :=
  let behind := Ahead.skip ls
  Ahead.anyWord ["pub", "extern", "use", "fn", "mod", "type", "struct", "enum", "trait", "impl",
    "macro"] ls ||
    (Ahead.word "crate" ls && !Ahead.op "::" behind) ||
    (Ahead.word "static" ls && (Ahead.word "mut" behind || Ahead.name behind)) ||
    startsConstItem ls ||
    (Ahead.word "unsafe" ls && !Ahead.opens .brace behind) ||
    (Ahead.word "async" ls && Ahead.anyWord ["unsafe", "extern", "fn"] behind) ||
    (Ahead.word "union" ls && Ahead.name behind) ||
    (Ahead.word "auto" ls && Ahead.word "trait" behind) ||
    (Ahead.word "default" ls && Ahead.anyWord ["unsafe", "impl"] behind)

/-- What a macro at the start of a statement is. -/
inductive MacroRole where
  /-- an item: a name follows the exclamation mark -/
  | item
  /-- a statement of its own, in curly brackets -/
  | statement
  /-- part of an expression, or no macro at all -/
  | expression
deriving DecidableEq, Repr

/-- Tells what a macro at the start of a statement is. -/
def macroRole (ls : List Lexeme) : MacroRole :=
  match plainPath ⟨ls, none⟩ with
  | .ok (_, c) =>
    let behind := Ahead.skip c.rest
    if !Ahead.op "!" c.rest then .expression
    else if Ahead.name behind || Ahead.word "try" behind then .item
    else if Ahead.opens .brace behind && !followsBlock (Ahead.skip behind) then .statement
    else .expression
  | .error _ => .expression

/-- A macro in curly brackets as a statement. -/
def macroStatement : Parser Tokens := do
  let head ← all [plainPath, op "!"]
  let (d, arguments) ← anyGroup
  return head ++ Tokens.enclose d arguments ++ (← opIf ";")

/-- One statement, and whether a semicolon is missing behind it in case another follows. -/
def statement (r : Rules) : Parser (Tokens × Bool) := do
  let before ← get
  let attributes ← r.attributes
  let ls ← rest
  let role := macroRole ls
  if role == .statement then return (attributes ++ (← macroStatement), false)
  else if Ahead.word "let" ls then return (attributes ++ (← binding r), false)
  else if startsItem ls || role == .item then
    set before
    return ((← r.item).plain.tokens, false)
  else
    let e ← earlyExpr r r.blockLike
    let e := e.withAttributes attributes
    if ← peek (Ahead.op ";") then return (e.tokens ++ (← op ";"), false)
    else return (e.tokens, e.needsSemicolon)

/-- The statements of a block. -/
def statements (r : Rules) : (fuel : Nat) → Parser Tokens
  | 0 => throw .exhausted
  | fuel + 1 => do
    if ← peek (Ahead.op ";") then return (← op ";") ++ (← statements r fuel)
    if ← peek Ahead.atEnd then return []
    let (tokens, isOpen) ← statement r
    if ← peek Ahead.atEnd then return tokens
    if isOpen then refuse "unexpected token, expected `;`"
    return tokens ++ (← statements r fuel)

/-- A block in curly brackets. -/
def anyBlock (r : Rules) (inner : Bool) : Parser Tokens := groupTokens .brace do
  let attributes ← if inner then r.innerAttributes else pure []
  return attributes ++ (← statements r ((← rest).length + 1))

end EnumTags.Rules

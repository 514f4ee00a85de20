import EnumTags.Grammar.OperatorRules

/-!
# Operands

What operators join: literals, paths, calls, blocks, closures and so on, with the signs before them
and the postfixes behind them.
-/

namespace EnumTags.Rules

open EnumTags.Parser

/-! ## Postfixes -/

/-- Arguments in parentheses. -/
def callArguments (r : Rules) : Parser Tokens :=
  groupTokens .paren (commaTokens (r.exprTokens true))

/-- A member or method behind a dot. -/
def member (r : Rules) : Parser Tokens := do
  if ← peek (Ahead.word "await") then word "await"
  else
    let (isLabel, head) ← memberName
    let typeArguments ← if isLabel && (← peek (Ahead.op "::")) then
        (fun a => a.tokens) <$> angle r.argument
      else pure []
    if !typeArguments.isEmpty || (isLabel && (← peek (Ahead.opens .paren))) then
      return head ++ typeArguments ++ (← callArguments r)
    else return head

/-- What follows a dot. Two positions with a dot between them look like one number. -/
def dotted (r : Rules) : Parser Tokens := do
  let dot ← op "."
  let ls ← rest
  match number? ls with
  | some (signed, s, behind) =>
    if (Number.whole? s).isSome then return dot ++ (← member r)
    goOn behind
    match Number.positions signed s with
    | .ok (positions, isOpen) =>
      let found := (positions.map fun n => dot ++ positionTokens n).flatten
      if isOpen then return found ++ dot ++ (← member r) else return found
    | .error e => reject e.message
  | none => return dot ++ (← member r)

/-- All postfixes of an operand. -/
def postfixLoop (r : Rules) : (fuel : Nat) → Expr → Parser Expr
  | 0, _ => throw .exhausted
  | fuel + 1, e => do
    let ls ← rest
    let isRange := e.form == .range
    if Ahead.opens .paren ls then
      let arguments ← callArguments r
      postfixLoop r fuel (e.followedBy arguments)
    else if !isRange && startsDot ls then
      let more ← dotted r
      postfixLoop r fuel (e.followedBy more)
    else if Ahead.opens .bracket ls then
      let index ← groupTokens .bracket (r.exprTokens true)
      postfixLoop r fuel (e.followedBy index)
    else if !isRange && Ahead.op "?" ls then
      let mark ← op "?"
      postfixLoop r fuel (e.followedBy mark)
    else return e

/-- The operand with the postfixes behind it. -/
def postfixes (r : Rules) (e : Expr) : Parser Expr := do
  postfixLoop r ((← rest).length + 1) e

/-! ## Expressions that end in a block -/

/-- Worker of `ifExpr`. -/
def ifChain (r : Rules) : (fuel : Nat) → Parser Tokens
  | 0 => throw .exhausted
  | fuel + 1 => do
    let head ← all [word "if", r.exprTokens false, r.block false]
    if !(← peek (Ahead.word "else")) then return head
    let other ← word "else"
    if ← peek (Ahead.word "if") then return head ++ other ++ (← ifChain r fuel)
    else if ← peek (Ahead.opens .brace) then return head ++ other ++ (← r.block false)
    else expected ["`if`", "curly braces"]

/-- A choice between blocks. -/
def ifExpr (r : Rules) : Parser Tokens := do ifChain r ((← rest).length + 1)

/-- Whether a closure with a binder stands here, and not a loop. -/
def startsBinderClosure (ls : List Lexeme) : Bool :=
  let behind := Ahead.skip ls
  let third := Ahead.skip behind
  Ahead.word "for" ls && Ahead.op "<" behind && (Ahead.lifetime third || Ahead.op ">" third)

/-- Whether an expression that ends in its own block stands here. -/
def startsBlockLike (ls : List Lexeme) : Bool :=
  Ahead.opens .brace ls || Ahead.lifetime ls ||
    Ahead.anyWord ["if", "match", "while", "loop", "unsafe"] ls ||
    (Ahead.word "for" ls && !startsBinderClosure ls) ||
    (Ahead.anyWord ["try", "const"] ls && Ahead.opens .brace (Ahead.skip ls))

/-- Whether an expression that ends in a block goes on behind it. -/
def followsBlock (ls : List Lexeme) : Bool := startsDot ls || Ahead.op "?" ls

/-- An expression up to an earlier end: one that ends in a block goes on only with a dot or a
question mark. This is how statements and the bodies of arms are read, given a parser for what ends
in a block. -/
def earlyExpr (r : Rules) (blockLike : Parser Expr) : Parser Expr := do
  let attributes ← r.attributes
  let e ← if ← peek startsBlockLike then blockLike else r.unary true
  if e.form != .blockLike then climbFrom r true .jump (e.withAttributes attributes)
  else if ← peek followsBlock then
    let e ← postfixes r e
    climbFrom r true .jump (e.withAttributes attributes)
  else return e.withAttributes attributes

/-- One arm of a match. -/
def matchArm (r : Rules) (blockLike : Parser Expr) : Parser Tokens := do
  let head ← all [r.attributes, alternativeTokens r,
    whenAhead (Ahead.word "if") (all [word "if", r.exprTokens true]), op "=>"]
  let body ← earlyExpr r blockLike
  let comma ← if body.needsComma && !(← peek Ahead.atEnd) then op "," else opIf ","
  return head ++ body.tokens ++ comma

/-- A match. -/
def matchExpr (r : Rules) (blockLike : Parser Expr) : Parser Tokens :=
  all [word "match", r.exprTokens false,
    groupTokens .brace (all [r.innerAttributes, manyToEnd (matchArm r blockLike)])]

/-- A loop or block behind its label. -/
def loopExpr (r : Rules) : Parser Tokens := do
  let ls ← rest
  if Ahead.word "while" ls then all [word "while", r.exprTokens false, r.block true]
  else if Ahead.word "for" ls then
    all [word "for", alternativeTokens r, word "in", r.exprTokens false, r.block true]
  else if Ahead.word "loop" ls then all [word "loop", r.block true]
  else if Ahead.opens .brace ls then r.block true
  else refuse "expected loop or block expression"

/-- An expression that ends in its own block, in which matches nest at most `fuel` times as the
bodies of arms. -/
def blockLikeAt (r : Rules) : (fuel : Nat) → Parser Expr
  | 0 => throw .exhausted
  | fuel + 1 => do
    let ls ← rest
    let tokens ←
      if Ahead.word "if" ls then ifExpr r
      else if Ahead.word "match" ls then matchExpr r (blockLikeAt r fuel)
      else if Ahead.word "try" ls then all [word "try", r.block false]
      else if Ahead.anyWord ["unsafe", "const"] ls then all [anyIdentTokens, r.block true]
      else if Ahead.lifetime ls then all [lifetimeTokens, op ":", loopExpr r]
      else loopExpr r
    return .blockLike tokens

/-- An expression that ends in its own block. -/
def blockLike (r : Rules) : Parser Expr := do blockLikeAt r ((← rest).length + 1)

/-! ## Closures and structures -/

/-- A parameter of a closure. Attributes before a pattern that is kept as it is written are lost,
unless a type follows. -/
def closureParam (r : Rules) : Parser Tokens := do
  let attributes ← r.attributes
  let p ← r.pattern
  if ← peek (Ahead.op ":") then return attributes ++ p.tokens ++ (← all [op ":", r.tyTokens])
  else if p.form == .verbatim then return p.tokens
  else return attributes ++ p.tokens

/-- Whether a closure stands here. -/
def startsClosure (ls : List Lexeme) : Bool :=
  let behind := Ahead.skip ls
  Ahead.op "|" ls || Ahead.anyWord ["move", "static"] ls || startsBinderClosure ls ||
    (Ahead.word "const" ls && !Ahead.opens .brace behind) ||
    (Ahead.word "async" ls && (Ahead.op "|" behind || Ahead.word "move" behind))

/-- A closure. -/
def closure (r : Rules) (structs : Bool) : Parser Expr := do
  let head ← all [r.binder, wordIf "const", wordIf "static", wordIf "async", wordIf "move", op "|"]
  let params ← listUntil (Ahead.op "|") "," (closureParam r)
  let bar ← op "|"
  let head := head ++ params.tokens (Tokens.op ",") id ++ bar
  if ← peek (Ahead.op "->") then
    return .braced (head ++ (← all [op "->", r.tyTokens, r.block false]))
  else return .endingIn head (← r.expr structs)

/-- A field of a structure. -/
def structField (r : Rules) : Parser Tokens := do
  let attributes ← r.attributes
  let (isLabel, member) ← memberName
  if !isLabel || (← peek (Ahead.op ":")) then
    return attributes ++ member ++ (← all [op ":", r.exprTokens true])
  else return attributes ++ member

/-- The fields of a structure; the structure that gives the remaining ones ends them. -/
def structFields (r : Rules) : (fuel : Nat) → Parser Tokens
  | 0 => throw .exhausted
  | fuel + 1 => do
    if ← peek Ahead.atEnd then return []
    if ← peek (Ahead.op "..") then
      all [op "..", whenAhead (fun ls => !Ahead.atEnd ls) (r.exprTokens true)]
    else
      let field ← structField r
      if ← peek Ahead.atEnd then return field
      let comma ← op ","
      return field ++ comma ++ (← structFields r fuel)

/-- An expression that begins with a path: the path, a macro, or a structure. -/
def pathExpr (r : Rules) (structs : Bool) : Parser Expr := do
  let ty ← typePath r true
  let ls ← rest
  let isMacro := match ty with
    | .path _ segments => Ahead.op "!" ls && !Ahead.op "!=" ls && isPlain segments
    | _ => false
  if isMacro then
    let bang ← op "!"
    let (d, arguments) ← anyGroup
    let tokens := ty.tokens ++ bang ++ Tokens.enclose d arguments
    if d == .brace then return ⟨tokens, .braceMacro, false, true⟩ else return .plain tokens
  else if structs && Ahead.opens .brace ls then
    return .braced
      (ty.tokens ++ (← groupTokens .brace (do structFields r ((← rest).length + 1))))
  else return .plain ty.tokens

/-- What is in square brackets: a list, or an element and how often it is repeated. -/
def arrayInside (r : Rules) : Parser Tokens := do
  if ← peek Ahead.atEnd then return []
  let first ← r.exprTokens true
  let ls ← rest
  if Ahead.atEnd ls then return first
  else if Ahead.op "," ls then return first ++ (← op ",") ++ (← commaTokens (r.exprTokens true))
  else if Ahead.op ";" ls then return first ++ (← all [op ";", r.exprTokens true])
  else refuse "expected `,` or `;`"

/-! ## Jumps -/

/-- Whether the operator stands here, and not one of the longer ones. -/
def onlyOp (o : Text) (longer : List Text) (ls : List Lexeme) : Bool :=
  Ahead.op o ls && !Ahead.anyOp longer ls

/-- Whether an expression begins here. -/
def startsExpr (ls : List Lexeme) : Bool :=
  (Ahead.anyIdent ls && !Ahead.word "as" ls) || Ahead.opens .paren ls || Ahead.opens .bracket ls ||
    Ahead.opens .brace ls || Ahead.literal ls || onlyOp "!" ["!="] ls ||
    onlyOp "-" ["-=", "->"] ls || onlyOp "*" ["*="] ls || onlyOp "|" ["|="] ls ||
    onlyOp "&" ["&="] ls || Ahead.op ".." ls || onlyOp "<" ["<=", "<<="] ls || Ahead.op "::" ls ||
    Ahead.lifetime ls || Ahead.op "#" ls

/-- A jump behind its keyword and label, with the value that it may take along. -/
def jumpTo (r : Rules) (head : Tokens) (takesBlock : Bool) : Parser Expr := do
  let ls ← rest
  if startsExpr ls && (takesBlock || !Ahead.opens .brace ls) then
    return .endingIn head (← r.expr true)
  else return .plain head

/-- A jump out of a loop or block. -/
def breakExpr (r : Rules) (structs : Bool) : Parser Expr := do
  let head ← word "break"
  let ls ← rest
  if Ahead.lifetime ls && Ahead.op ":" (Ahead.skip ls) then
    let _ ← r.expr true
    reject "parentheses required"
  let label ← whenAhead Ahead.lifetime lifetimeTokens
  jumpTo r (head ++ label) structs

/-- The match of a pattern as a condition. -/
def letExpr (r : Rules) (structs : Bool) : Parser Expr := do
  let head ← all [word "let", alternativeTokens r, op "="]
  let left ← r.unary structs
  return .endingIn head (← climbFrom r structs .compare left)

/-! ## Operands -/

/-- Whether an asynchronous block stands here. -/
def startsAsyncBlock (ls : List Lexeme) : Bool :=
  let behind := Ahead.skip ls
  Ahead.word "async" ls && (Ahead.opens .brace behind ||
    (Ahead.word "move" behind && Ahead.opens .brace (Ahead.skip behind)))

/-- Whether a path stands here, as an operand. -/
def startsPathExpr (ls : List Lexeme) : Bool :=
  startsPath ls || (Ahead.word "try" ls && Ahead.anyOp ["!", "::"] (Ahead.skip ls))

/-- An operand before its postfixes. -/
def atom (r : Rules) (structs : Bool) : Parser Expr := do
  let ls ← rest
  if Ahead.literal ls then return .plain (← literal)
  else if startsAsyncBlock ls then
    return .braced (← all [word "async", wordIf "move", r.block false])
  else if startsClosure ls then closure r structs
  else if startsBuiltin ls then
    passBuiltin
    return .verbatim (← since ls)
  else if startsBlockLike ls then blockLike r
  else if startsPathExpr ls then pathExpr r structs
  else if Ahead.opens .paren ls then return .plain (← callArguments r)
  else if Ahead.word "break" ls then breakExpr r structs
  else if Ahead.word "continue" ls then
    return .plain (← all [word "continue", whenAhead Ahead.lifetime lifetimeTokens])
  else if Ahead.anyWord ["return", "yield"] ls then jumpTo r (← anyIdentTokens) true
  else if Ahead.word "become" ls then
    let _ ← all [word "become", r.exprTokens true]
    return .verbatim (← since ls)
  else if Ahead.opens .bracket ls then return .plain (← groupTokens .bracket (arrayInside r))
  else if Ahead.word "let" ls then letExpr r structs
  else if Ahead.op ".." ls then rangeExpr r structs
  else if Ahead.word "_" ls then return .plain (← word "_")
  else refuse "expected an expression"

/-- A reference, possibly a raw one, behind its attributes. -/
def referenceExpr (r : Rules) (structs : Bool) (attributes : Tokens) : Parser Expr := do
  let sign ← op "&"
  let ls ← rest
  let isRaw := Ahead.word "raw" ls && Ahead.anyWord ["mut", "const"] (Ahead.skip ls)
  let kind ← if isRaw then all [word "raw", anyIdentTokens] else wordIf "mut"
  return .endingIn (attributes ++ sign ++ kind) (← r.unary structs)

/-- An operand with its signs and postfixes. -/
def anyUnary (r : Rules) (structs : Bool) : Parser Expr := do
  let before ← rest
  let attributes ← r.attributes
  let ls ← rest
  if Ahead.op "&" ls then referenceExpr r structs attributes
  else if Ahead.op "*" ls then return .endingIn (attributes ++ (← op "*")) (← r.unary structs)
  else if Ahead.op "!" ls then return .endingIn (attributes ++ (← op "!")) (← r.unary structs)
  else if Ahead.op "-" ls then return .endingIn (attributes ++ (← op "-")) (← r.unary structs)
  else
    let e ← postfixes r (← atom r structs)
    if e.form == .verbatim then return .verbatim (← since before)
    else if e.form == .range && !attributes.isEmpty then
      reject "attributes are not allowed on range expressions starting with `..`"
    else return e.withAttributes attributes

end EnumTags.Rules

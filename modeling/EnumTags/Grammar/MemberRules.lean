import EnumTags.Grammar.FunctionRules

/-!
# Members

What the curly brackets of a trait, an implementation and a block of foreign items hold: functions,
constants, statics, types and macros. A member that its surroundings have no settled form for, such
as a public function of a trait, is kept as it is written.
-/

namespace EnumTags.Rules

open EnumTags.Parser

/-! ## Macros -/

/-- Whether a macro can begin here. -/
def startsMacro (ls : List Lexeme) : Bool :=
  Ahead.name ls || Ahead.anyWord ["self", "super", "crate"] ls || Ahead.op "::" ls

/-- What a macro can begin with, in the wording of an error. -/
def macroStarts : List Text := ["identifier", "`self`", "`super`", "`crate`", "`::`"]

/-- The arguments of a macro, with a semicolon unless they are in curly brackets. -/
def macroArguments : Parser Tokens := do
  let (d, arguments) ← anyGroup
  let semicolon ← if d == .brace then pure [] else op ";"
  return Tokens.enclose d arguments ++ semicolon

/-- A macro in the place of a member. -/
def memberMacro : Parser Tokens := all [plainPath, op "!", macroArguments]

/-! ## Types -/

/-- Where the conditions of a type stand: before its equals sign, behind its target, or at either
place. -/
inductive WherePlace where
  | before
  | behind
  | either
deriving DecidableEq, Repr

/-- A type alias or a type as a member, from its name on. -/
structure AliasParts where
  name : Placed
  generics : Tokens
  bounds : Option Tokens
  conditions : Tokens
  /-- the target with its equals sign -/
  target : Option Tokens

/-- Bounds of which each but the last has a plus sign behind it, up to where `stop` holds. -/
def boundsUntil (r : Rules) (place : BoundPlace) (stop : List Lexeme → Bool) : Parser Tokens := do
  return (← listUntil stop "+" (r.bound place)).boundTokens

/-- Reads a type alias or member from its name on, with its semicolon. -/
def aliasParts (r : Rules) (place : WherePlace) : Parser AliasParts := do
  let i ← placed name
  let generics ← genericTokens r
  let bounds ← if ← peek (Ahead.op ":") then do
      let _ ← op ":"
      let stop (ls : List Lexeme) : Bool := Ahead.word "where" ls || Ahead.anyOp ["=", ";"] ls
      some <$> boundsUntil r .declared stop
    else pure none
  let early ← if place == .behind then pure none else r.whereClause
  let target ← if ← peek (Ahead.op "=") then some <$> all [op "=", r.tyTokens] else pure none
  let clause ← if place == .before || early.isSome then pure early else r.whereClause
  let _ ← op ";"
  let conditions := Generics.wherePart { Generics.empty with whereClause := clause }
  return ⟨i, generics, bounds, conditions, target⟩

/-! ## Constants -/

/-- A constant from its name on, with its semicolon. -/
structure ConstParts where
  name : Placed
  /-- Whether it has generic parameters or conditions, for which there is no settled form. -/
  isGeneric : Bool
  /-- the type with its colon -/
  ty : Tokens
  /-- the value with its equals sign -/
  value : Option Tokens

/-- Reads a constant from its name on. -/
def constParts (r : Rules) : Parser ConstParts := do
  let i ← placed anyIdent
  let generics ← r.generics
  let ty ← all [op ":", r.tyTokens]
  let value ← if ← peek (Ahead.op "=") then some <$> all [op "=", r.exprTokens true] else pure none
  let whereClause ← r.whereClause
  let _ ← op ";"
  return ⟨i, generics.angles || whereClause.isSome, ty, value⟩

/-- The constant as tokens, behind its keyword. -/
def ConstParts.tokens (c : ConstParts) : Tokens :=
  Tokens.ofIdent c.name.ident ++ c.ty ++ c.value.getD [] ++ Tokens.op ";"

/-- Whether the name of a constant stands here, which may be an underscore. -/
def startsConstName (ls : List Lexeme) : Bool := Ahead.name ls || Ahead.word "_" ls

/-! ## Members of a trait -/

/-- The body of a function in a trait, or the semicolon in its place. -/
def traitBody (r : Rules) : Parser Tokens := do
  if ← peek (Ahead.opens .brace) then r.block true
  else if ← peek (Ahead.op ";") then op ";"
  else expected ["curly braces", "`;`"]

/-- A constant of a trait, or a function that begins with the same keyword; nothing if it is kept
as it is written. -/
def traitConst (r : Rules) : Parser (Option Tokens) := do
  let ls ← rest
  let behind := Ahead.skip ls
  if startsConstName behind then
    let keyword ← word "const"
    let c ← constParts r
    return if c.isGeneric then none else some (keyword ++ c.tokens)
  else if Ahead.anyWord ["async", "unsafe", "extern", "fn"] behind then
    let head ← fnHead r false
    return some (head.tokens ++ (← traitBody r))
  else throw (.expected ["identifier", "`_`", "`async`", "`unsafe`", "`extern`", "`fn`"]
    (Ahead.atEnd behind))

/-- A member of a trait behind its visibility; nothing if it is kept as it is written. -/
def traitMemberBehind (r : Rules) (isBare : Bool) : Parser (Option Tokens) := do
  let ls ← rest
  if startsFunction false ls then
    let head ← fnHead r false
    return some (head.tokens ++ (← traitBody r))
  else if Ahead.word "const" ls then traitConst r
  else if Ahead.word "type" ls then
    let keyword ← word "type"
    let t ← aliasParts r .behind
    return some (keyword ++ Tokens.ofIdent t.name.ident ++ t.generics ++
      Param.boundPart (t.bounds.getD []) ++ t.target.getD [] ++ t.conditions ++ Tokens.op ";")
  else if isBare && startsMacro ls then some <$> memberMacro
  else expected ((["`fn`", "`const`", "`type`"] : List Text) ++ (if isBare then macroStarts else []))

/-- A member of a trait. -/
def traitMember (r : Rules) : Parser Tokens := do
  let before ← rest
  let attributes ← r.attributes
  let qualifiers ← all [visibility, wordIf "default"]
  match ← traitMemberBehind r qualifiers.isEmpty with
  | some tokens => if qualifiers.isEmpty then return attributes ++ tokens else since before
  | none => since before

/-! ## Members of an implementation -/

/-- A member of an implementation behind its visibility; nothing if it is kept as it is written. -/
def implMemberBehind (r : Rules) (isPrivate isDefault : Bool) : Parser (Option Tokens) := do
  let ls ← rest
  if startsFunction false ls then
    let head ← fnHead r false
    if ← peek (Ahead.op ";") then
      let _ ← op ";"
      return none
    return some (head.tokens ++ (← r.block true))
  else if Ahead.word "const" ls then
    let keyword ← word "const"
    if !(← peek startsConstName) then expected ["identifier", "`_`"]
    let c ← constParts r
    return if c.isGeneric || c.value.isNone then none else some (keyword ++ c.tokens)
  else if Ahead.word "type" ls then
    let keyword ← word "type"
    let t ← aliasParts r .behind
    match t.bounds, t.target with
    | none, some target =>
      return some (keyword ++ Tokens.ofIdent t.name.ident ++ t.generics ++ target ++ t.conditions ++
        Tokens.op ";")
    | _, _ => return none
  else if isPrivate && !isDefault && startsMacro ls then some <$> memberMacro
  else
    let first : List Text := if isDefault || Ahead.word "default" ls then [] else ["`default`"]
    expected (first ++ (["`fn`", "`const`", "`type`"] : List Text) ++
      (if isPrivate && !isDefault then macroStarts else []))

/-- A member of an implementation. -/
def implMember (r : Rules) : Parser Tokens := do
  let before ← rest
  let attributes ← r.attributes
  let visibility ← visibility
  let isDefault (ls : List Lexeme) : Bool :=
    Ahead.word "default" ls && !Ahead.op "!" (Ahead.skip ls)
  let mark ← whenAhead isDefault (word "default")
  match ← implMemberBehind r visibility.isEmpty (!mark.isEmpty) with
  | some tokens => return attributes ++ visibility ++ mark ++ tokens
  | none => since before

/-! ## Foreign items -/

/-- A foreign static behind its visibility; nothing if it is kept as it is written. -/
def foreignStatic (r : Rules) : Parser (Option Tokens) := do
  let unsafety ← wordIf "unsafe"
  let safety ← if unsafety.isEmpty then wordIf "safe" else pure []
  let tokens ← all [word "static", wordIf "mut", nameTokens, op ":", r.tyTokens]
  let value ← whenAhead (Ahead.op "=") (all [op "=", r.exprTokens true])
  let semicolon ← op ";"
  return if unsafety.isEmpty && safety.isEmpty && value.isEmpty then some (tokens ++ semicolon)
    else none

/-- A foreign item behind its visibility; nothing if it is kept as it is written. -/
def foreignMemberBehind (r : Rules) (isPrivate : Bool) : Parser (Option Tokens) := do
  let ls ← rest
  if startsFunction true ls then
    let head ← fnHead r true
    if ← peek (Ahead.opens .brace) then
      let _ ← r.block true
      return none
    let semicolon ← op ";"
    return if head.isSafe then none else some (head.tokens ++ semicolon)
  else if Ahead.word "static" ls ||
      (Ahead.anyWord ["unsafe", "safe"] ls && Ahead.word "static" (Ahead.skip ls)) then
    foreignStatic r
  else if Ahead.word "type" ls then
    let keyword ← word "type"
    let t ← aliasParts r .either
    return if t.bounds.isSome || t.target.isSome then none
      else some (keyword ++ Tokens.ofIdent t.name.ident ++ t.generics ++ t.conditions ++
        Tokens.op ";")
  else if isPrivate && startsMacro ls then some <$> memberMacro
  else expected ((["`fn`", "`static`", "`type`"] : List Text) ++
    (if isPrivate then macroStarts else []))

/-- A foreign item. -/
def foreignMember (r : Rules) : Parser Tokens := do
  let before ← rest
  let attributes ← r.attributes
  let visibility ← visibility
  match ← foreignMemberBehind r visibility.isEmpty with
  | some tokens => return attributes ++ visibility ++ tokens
  | none => since before

/-- Members in curly brackets. -/
def membersBody (r : Rules) (member : Parser Tokens) : Parser Tokens :=
  groupTokens .brace (all [r.innerAttributes, manyToEnd member])

end EnumTags.Rules

import EnumTags.Grammar.Rules

/-!
# Attributes and visibility

Attributes hold a path and possibly arguments, which are kept as they are written. Visibility is
`pub`, alone or with the part of the program to which it is restricted.
-/

namespace EnumTags.Rules

open EnumTags.Parser

/-- Words besides names that may be segments of a plain path. -/
def pathWords : List Text := ["super", "self", "Self", "crate"]

/-- Whether a segment of a plain path stands here. -/
def startsSegment (ls : List Lexeme) : Bool := Ahead.name ls || Ahead.anyWord pathWords ls

/-- A path of names only. -/
def plainPath : Parser Tokens := do
  let root ← opIf "::"
  let segments ← chain startsSegment "::" anyIdentTokens
  if segments.items.isEmpty then return Tokens.ofIdent (← name)
  if segments.trailing then expected ["path segment after `::`"]
  return root ++ segments.tokens (Tokens.op "::") id

/-- The value behind the equals sign of an attribute. -/
def attributeValue (r : Rules) : Parser Tokens := do
  let ls ← rest
  match Ahead.literal? ls with
  | some (ts, behind) => if Ahead.atEnd behind then goOn behind; return ts else r.exprTokens true
  | none =>
    if Ahead.op "#" ls && Ahead.opens .bracket (Ahead.skip ls) then
      refuse "unexpected attribute inside of attribute"
    r.exprTokens true

/-- The inside of an attribute. -/
def attributeBody (r : Rules) : Parser Tokens := do
  let path ← if ← peek (Ahead.word "unsafe") then word "unsafe" else plainPath
  let ls ← rest
  if Ahead.opens .paren ls || Ahead.opens .bracket ls || Ahead.opens .brace ls then
    let (d, arguments) ← anyGroup
    return path ++ Tokens.enclose d arguments
  else if Ahead.op "=" ls && !Ahead.op "==" ls && !Ahead.op "=>" ls then
    let equals ← op "="
    return path ++ equals ++ (← attributeValue r)
  else return path

/-- One attribute before an item. -/
def oneAttribute (r : Rules) : Parser Tokens := all [op "#", groupTokens .bracket r.attributeBody]

/-- The attributes before an item. -/
def attributes (r : Rules) : Parser Tokens := do
  return (← manyWhile (Ahead.op "#") r.oneAttribute).flatten

/-- The attributes at the start of a group, about what surrounds them. -/
def innerAttributes (r : Rules) : Parser Tokens := do
  let starts (ls : List Lexeme) : Bool := Ahead.op "#" ls && Ahead.op "!" (Ahead.skip ls)
  return (← manyWhile starts (all [op "#", op "!", groupTokens .bracket r.attributeBody])).flatten

/-- Where a restricted visibility reaches; nothing if the parentheses hold something else. -/
def restriction : Parser Tokens := do
  if ← peek (Ahead.anyWord ["crate", "self", "super"]) then
    let place ← anyIdentTokens
    if ← peek Ahead.atEnd then return place else throw .exhausted
  else all [word "in", plainPath]

/-- The visibility of an item or field; most often there is none. -/
def visibility : Parser Tokens := do
  if !(← peek (Ahead.word "pub")) then return []
  let pub ← word "pub"
  let ls ← rest
  if !Ahead.opens .paren ls then return pub
  if Ahead.word "in" (ls.drop 1) then return pub ++ (← groupTokens .paren restriction)
  match ← attempt (groupTokens .paren restriction) with
  | some place => return pub ++ place
  | none => return pub

end EnumTags.Rules

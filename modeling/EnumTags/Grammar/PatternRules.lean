import EnumTags.Grammar.TypeRules
import EnumTags.Token.Number

/-!
# Reading patterns

Patterns are literals, ranges, bindings, paths with fields, tuples, slices and references. A range
may lack its start or its end, but not the end behind a mark that includes it.
-/

namespace EnumTags.Rules

open EnumTags.Parser

/-! ## Members -/

/-- The number that stands here: whether a minus sign stands before it, its spelling, and what is
left behind it. -/
def number? : List Lexeme → Option (Bool × Text × List Lexeme)
  | ⟨.literal s, _⟩ :: behind => if Ahead.isNumber s then some (false, s, behind) else none
  | ⟨.punct '-' _, _⟩ :: ⟨.literal s, _⟩ :: behind =>
    if Ahead.isNumber s then some (true, s, behind) else none
  | _ => none

/-- A position as a token. -/
def positionTokens (n : Nat) : Tokens := Tokens.literal (Text.ofNat n)

/-- The label or position of a field; also tells whether it is a label. -/
def memberName : Parser (Bool × Tokens) := do
  let ls ← rest
  if Ahead.name ls then return (true, ← nameTokens)
  match number? ls with
  | some (signed, s, behind) =>
    if (Number.whole? s).isNone then refuse "expected identifier or integer"
    goOn behind
    match Number.position signed s with
    | .ok n => return (false, positionTokens n)
    | .error e => reject e.message
  | none => refuse "expected identifier or integer"

/-! ## Alternatives -/

/-- Alternatives of a pattern, with a bar before the first or without. -/
def alternatives (r : Rules) : Parser Pattern := do
  let leading ← opIf "|"
  let first ← r.pattern
  let goes (ls : List Lexeme) : Bool := Ahead.op "|" ls && !Ahead.op "||" ls && !Ahead.op "|=" ls
  let more ← manyWhile goes (all [op "|", r.patternTokens])
  if leading.isEmpty && more.isEmpty then return first
  else return .plain (leading ++ first.tokens ++ more.flatten)

/-- Alternatives of a pattern as tokens. -/
def alternativeTokens (r : Rules) : Parser Tokens := do return (← alternatives r).tokens

/-! ## Ranges -/

/-- The mark of a range and whether the range includes its end. -/
def rangeMark : Parser (Bool × Tokens) := do
  let ls ← rest
  if Ahead.op "..=" ls then return (true, ← op "..=")
  else if Ahead.op "..." ls then expected ["`..=`"]
  else return (false, ← op "..")

/-- The mark of a range that has a start. There the end may also be included by three dots, which
are written in the other way. -/
def rangeMarkBehind : Parser (Bool × Tokens) := do
  if ← peek (Ahead.op "...") then
    let _ ← op "..."
    return (true, Tokens.op "..=")
  else rangeMark

/-- A path in an expression or pattern, as tokens. -/
def exprPath (r : Rules) : Parser Tokens := do return (← typePath r true).tokens

/-- Whether a path stands here. -/
def startsPath (ls : List Lexeme) : Bool :=
  startsSegment ls || Ahead.op "::" ls || Ahead.op "<" ls

/-- Whether nothing more of a range of patterns follows. -/
def endsPatternRange (ls : List Lexeme) : Bool :=
  Ahead.atEnd ls || Ahead.anyOp ["|", "=", ",", ";"] ls || Ahead.word "if" ls ||
    (Ahead.op ":" ls && !Ahead.op "::" ls)

/-- What a bound of a range can begin with, in the wording of an error. -/
def rangeBoundStarts : List Text :=
  (["literal", "identifier", "`::`", "`<`", "`self`", "`Self`", "`super`", "`crate`", "`const`"] :
    List String).map String.toList

/-- A bound of a range, if one is there. -/
def rangeBound (r : Rules) : Parser Tokens := do
  let ls ← rest
  if endsPatternRange ls then return []
  else if Ahead.literal ls then literal
  else if startsPath ls then exprPath r
  else if Ahead.word "const" ls then all [word "const", r.block true]
  else expected rangeBoundStarts

/-- The range from `start` on whose mark was read. -/
def rangeFrom (r : Rules) (start : Tokens) (mark : Bool × Tokens) : Parser Pattern := do
  let last ← rangeBound r
  if last.isEmpty && mark.1 then refuse "expected range upper bound"
  if start.isEmpty && last.isEmpty then return ⟨mark.2, .rest⟩
  return ⟨start ++ mark.2 ++ last, if start.isEmpty || last.isEmpty then .openRange else .plain⟩

/-! ## Fields -/

/-- A field of a pattern behind its attributes. -/
def patternField (r : Rules) : Parser Tokens := do
  if ← peek (Ahead.anyWord ["box", "ref", "mut"]) then
    all [wordIf "box", wordIf "ref", wordIf "mut", nameTokens]
  else
    let (isLabel, member) ← memberName
    if !isLabel || (← peek (Ahead.op ":")) then
      return member ++ (← all [op ":", alternativeTokens r])
    else return member

/-- The fields of a pattern; the mark that there are more ends them. -/
def patternFields (r : Rules) : (fuel : Nat) → Parser Tokens
  | 0 => throw .exhausted
  | fuel + 1 => do
    if ← peek Ahead.atEnd then return []
    let attributes ← r.attributes
    if ← peek (Ahead.op "..") then return attributes ++ (← op "..")
    let field ← patternField r
    if ← peek Ahead.atEnd then return attributes ++ field
    let comma ← op ","
    return attributes ++ field ++ comma ++ (← patternFields r fuel)

/-! ## Patterns -/

/-- A pattern that begins with a path. -/
def pathPattern (r : Rules) : Parser Pattern := do
  let ty ← typePath r true
  let path := ty.tokens
  let ls ← rest
  let isMacro := match ty with
    | .path _ segments => Ahead.op "!" ls && !Ahead.op "!=" ls && isPlain segments
    | _ => false
  if isMacro then
    let bang ← op "!"
    let (d, arguments) ← anyGroup
    return .plain (path ++ bang ++ Tokens.enclose d arguments)
  else if Ahead.opens .brace ls then
    return .plain
      (path ++ (← groupTokens .brace (do patternFields r ((← rest).length + 1))))
  else if Ahead.opens .paren ls then
    return .plain (path ++ (← groupTokens .paren (commaTokens (alternativeTokens r))))
  else if Ahead.op ".." ls then rangeFrom r path (← rangeMarkBehind)
  else return .plain path

/-- Whether a pattern that begins with a path stands here, and not a binding. -/
def startsPathPattern (ls : List Lexeme) : Bool :=
  let behind := Ahead.skip ls
  (Ahead.name ls &&
      (Ahead.anyOp ["::", "!", ".."] behind || Ahead.opens .brace behind ||
        Ahead.opens .paren behind)) ||
    (Ahead.word "self" ls && Ahead.op "::" behind) || Ahead.anyOp ["::", "<"] ls ||
    Ahead.anyWord ["Self", "super", "crate"] ls

/-- A binding. -/
def bindingPattern (r : Rules) : Parser Tokens :=
  all [wordIf "ref", wordIf "mut",
    (do if ← peek (Ahead.word "self") then word "self" else nameTokens),
    whenAhead (Ahead.op "@") (all [op "@", r.patternTokens])]

/-- A tuple of patterns, or a single one in parentheses. -/
def tuplePattern (r : Rules) : Parser Tokens :=
  groupTokens .paren (commaTokens (alternativeTokens r))

/-- An element of a slice. -/
def sliceElement (r : Rules) : Parser Tokens := do
  let p ← alternatives r
  if p.form == .openRange then
    reject "range pattern is not allowed unparenthesized inside slice pattern"
  else return p.tokens

/-- What a pattern can begin with, in the wording of an error. -/
def patternStarts : List Text :=
  (["identifier", "`::`", "`<`", "`_`", "literal", "`const`", "`ref`", "`mut`", "`&`",
    "parentheses", "square brackets"] : List String).map String.toList

/-- A pattern without alternatives. -/
def anyPattern (r : Rules) : Parser Pattern := do
  let ls ← rest
  if startsPathPattern ls then pathPattern r
  else if Ahead.word "_" ls then return .plain (← word "_")
  else if Ahead.word "box" ls then
    let _ ← all [word "box", r.patternTokens]
    return ⟨← since ls, .verbatim⟩
  else if Ahead.op "-" ls || Ahead.literal ls || Ahead.word "const" ls then
    let start ← rangeBound r
    if ← peek (Ahead.op "..") then rangeFrom r start (← rangeMarkBehind)
    else return .plain start
  else if Ahead.anyWord ["ref", "mut", "self"] ls || Ahead.name ls then
    return .plain (← bindingPattern r)
  else if Ahead.op "&" ls then return .plain (← all [op "&", wordIf "mut", r.patternTokens])
  else if Ahead.opens .paren ls then return .plain (← tuplePattern r)
  else if Ahead.opens .bracket ls then
    return .plain (← groupTokens .bracket (commaTokens (sliceElement r)))
  else if Ahead.op "..." ls then expected patternStarts
  else if Ahead.op ".." ls then rangeFrom r [] (← rangeMark)
  else expected (patternStarts ++ (["`..`"] : List Text))

end EnumTags.Rules

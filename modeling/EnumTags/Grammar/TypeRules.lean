import EnumTags.Grammar.PathRules

/-!
# Reading types

`Rules.anyType` reads a type. Where `plus` is false, a sum of bounds ends before its first plus sign,
as it does behind a reference or an arrow.
-/

namespace EnumTags.Rules

open EnumTags.Parser

/-! ## Function types -/

/-- A calling convention: its keyword, and its name if one follows. -/
def conventionTokens : Parser Tokens := all [word "extern", whenAhead Ahead.string literal]

/-- A calling convention, if one is there. -/
def convention : Parser Tokens := whenAhead (Ahead.word "extern") conventionTokens

/-- Whether a label and its colon stand here. -/
def startsLabel (withSelf : Bool) (ls : List Lexeme) : Bool :=
  (Ahead.name ls || Ahead.word "_" ls || (withSelf && Ahead.word "self" ls)) &&
    Ahead.op ":" (Ahead.skip ls) && !Ahead.op "::" (Ahead.skip ls)

/-- Whether the mark for further arguments stands here, with a label or without. -/
def startsRest (ls : List Lexeme) : Bool :=
  Ahead.op "..." ls ||
    ((Ahead.name ls || Ahead.word "_" ls) && Ahead.op ":" (Ahead.skip ls) &&
      Ahead.op "..." (Ahead.skipTwo ls))

/-- A parameter of a function type. The first one may be the receiver of a method; with `mut` such
a parameter is kept as it is written. -/
def fnParam (r : Rules) (isFirst : Bool) (attributes : Tokens) : Parser FnParam := do
  let before ← rest
  let mutableSelf (ls : List Lexeme) : Bool :=
    isFirst && Ahead.word "mut" ls && Ahead.word "self" (Ahead.skip ls)
  let beginsMutable := mutableSelf before
  if beginsMutable then let _ ← word "mut"
  let ls ← rest
  let labelled := startsLabel isFirst ls
  let label ← if labelled then do
      let i ← anyIdent
      let _ ← op ":"
      pure (some i)
    else pure none
  if !(labelled && Ahead.word "self" ls) && (← peek mutableSelf) then
    let _ ← all [word "mut", word "self"]
    return .mk attributes none (.verbatim (← since before))
  else if beginsMutable && !labelled then
    let _ ← word "self"
    return .mk attributes none (.verbatim (← since before))
  else
    let ty ← r.ty true
    if beginsMutable then return .mk attributes none (.verbatim (← since before))
    else return .mk attributes label ty

/-- The mark for further arguments. -/
def fnRest (attributes : Tokens) : Parser Tokens := do
  let label ← if ← peek Ahead.anyIdent then all [anyIdentTokens, op ":"] else pure []
  return attributes ++ label ++ (← all [op "...", opIf ","])

/-- The parameters of a function type, whether a comma ends them, and the mark for further
arguments. -/
def fnParams (r : Rules) : (fuel : Nat) → (isFirst : Bool) → Parser (List FnParam × Bool × Tokens)
  | 0, _ => throw .exhausted
  | fuel + 1, isFirst => do
    if ← peek Ahead.atEnd then return ([], true, [])
    let attributes ← r.attributes
    if ← peek startsRest then return ([], true, ← fnRest attributes)
    let param ← fnParam r isFirst attributes
    if ← peek Ahead.atEnd then return ([param], false, [])
    let _ ← op ","
    let (params, trailing, more) ← fnParams r fuel false
    return (param :: params, trailing, more)

/-- A function type behind its binder. -/
def fnType (r : Rules) (binder : Tokens) : Parser Ty := do
  let qualifiers ← all [wordIf "unsafe", convention]
  let _ ← word "fn"
  let (params, trailing, more) ← group .paren (do fnParams r ((← rest).length + 1) true)
  return .function (binder ++ qualifiers) params trailing more (← result? r)

/-! ## Sums of bounds -/

/-- Whether one of the bounds is a trait. -/
def hasTrait (bounds : List Bound) : Bool :=
  bounds.any fun
    | .trait .. => true
    | .verbatim _ => true
    | _ => false

/-- Bounds with plus signs between them if these are allowed. -/
def boundSum (r : Rules) (place : BoundPlace) (plus : Bool) : Parser (Listed Bound) := do
  if plus then chainFrom startsBound "+" (r.bound place) else return ⟨[← r.bound place], false⟩

/-- The bounds of an object type, one of which has to be a trait. -/
def objectBounds (r : Rules) (plus : Bool) : Parser (Listed Bound) := do
  let bounds ← boundSum r .object plus
  if hasTrait bounds.items then return bounds
  else reject "at least one trait is required for an object type"

/-- An object type without its keyword. -/
def bareObject (r : Rules) : Parser Ty := do
  let bounds ← objectBounds r true
  return .object false bounds.items bounds.trailing

/-- A type that is only known by its bounds. -/
def implType (r : Rules) (plus : Bool) : Parser Ty := do
  let _ ← word "impl"
  let bounds ← boundSum r .anonymous plus
  if hasTrait bounds.items then return .implTrait bounds.items bounds.trailing
  else reject "at least one trait must be specified"

/-- Whether another bound stands behind a plus sign in a sum that began with a path. -/
def startsSummand (ls : List Lexeme) : Bool := startsBound ls && !Ahead.opens .bracket ls

/-- The sum that goes on behind the path `first`. -/
def pathSum (r : Rules) (plus : Bool) (first : Bound) : Parser Ty := do
  if plus && (← peek (Ahead.op "+")) then
    let _ ← op "+"
    let more ← chain startsSummand "+" (r.bound .object)
    return .object false (first :: more.items) more.trailing
  else return .object false [first] false

/-- The sum that goes on behind the bound `first` in parentheses; a bound has to follow each of its
plus signs. -/
def parenSum (r : Rules) (first : Bound) : Parser Ty := do
  let more ← manyWhile (Ahead.op "+") (do let _ ← op "+"; r.bound .object)
  return .object false (first :: more) false

/-- A type in parentheses as the first bound of a sum, if it can be one. -/
def boundOfParen : Ty → Option Bound
  | .path rooted segments => some (.trait true false [] rooted segments)
  | .object false [.trait _ optional binder rooted segments] false =>
    some (.trait true optional binder rooted segments)
  | .object false [bound] false => some bound
  | _ => none

/-! ## Types -/

/-- What is in parentheses: a whole type together with them, a bound, or another type. -/
inductive ParenInside where
  | whole (ty : Ty)
  | bound (b : Bound)
  | single (ty : Ty)

/-- Reads what is in parentheses. -/
def parenInside (r : Rules) : Parser ParenInside := do
  let ls ← rest
  if Ahead.atEnd ls then return .whole (.tuple [] false)
  else if Ahead.lifetime ls then return .whole (.paren (← bareObject r))
  else if Ahead.op "?" ls then
    match ← traitBound r r.binder r.argument .object true with
    | some b => return .bound b
    | none => expected []
  else
    let first ← r.ty true
    if ← peek (Ahead.op ",") then
      let _ ← op ","
      let more ← listToEnd (r.ty true)
      return .whole (.tuple (first :: more.items) more.trailing)
    else return .single first

/-- A type in parentheses, a tuple, or a sum that begins with parentheses. -/
def parenType (r : Rules) (plus : Bool) : Parser Ty := do
  match ← group .paren (parenInside r) with
  | .whole ty => return ty
  | .bound b => parenSum r b
  | .single inner =>
    if plus && (← peek (Ahead.op "+")) then
      match boundOfParen inner with
      | some b => parenSum r b
      | none => return .paren inner
    else return .paren inner

/-- A type that begins with a path: the path itself, a macro, or a sum of bounds. -/
def pathType (r : Rules) (plus : Bool) (binder : Option Tokens) : Parser Ty := do
  match ← typePath r false with
  | .path rooted segments =>
    let ls ← rest
    if Ahead.op "!" ls && !Ahead.op "!=" ls && isPlain segments then
      let _ ← op "!"
      let (d, arguments) ← anyGroup
      return .invocation (Ty.tokens (.path rooted segments)) d arguments
    else if binder.isSome || (plus && Ahead.op "+" ls) then
      pathSum r plus (.trait false false (binder.getD []) rooted segments)
    else return .path rooted segments
  | ty => return ty

/-- Whether a form of the compiler stands here. -/
def startsBuiltin (ls : List Lexeme) : Bool :=
  Ahead.word "builtin" ls && Ahead.op "#" (Ahead.skip ls)

/-- Passes over a form of the compiler. -/
def passBuiltin : Parser Unit := do
  let _ ← all [word "builtin", op "#", nameTokens, groupTokens .paren remaining]

/-- A type in square brackets. -/
def bracketType (r : Rules) : Parser Ty := group .bracket do
  let elem ← r.ty true
  if ← peek (Ahead.op ";") then
    let _ ← op ";"
    return .array elem (← r.exprTokens true)
  else return .slice elem

/-- A pointer type. -/
def pointerType (r : Rules) : Parser Ty := do
  let _ ← op "*"
  if ← peek (Ahead.word "const") then
    let _ ← word "const"
    return .pointer false (← r.ty false)
  else if ← peek (Ahead.word "mut") then
    let _ ← word "mut"
    return .pointer true (← r.ty false)
  else expected ["`const`", "`mut`"]

/-- A reference type. -/
def referenceType (r : Rules) : Parser Ty := do
  let _ ← op "&"
  let lifetime ← if ← peek Ahead.lifetime then some <$> lifetime else pure none
  let mutable ← wordIf "mut"
  return .reference lifetime (!mutable.isEmpty) (← r.ty false)

/-- An object type behind its keyword. With a star it is kept as it is written. -/
def dynType (r : Rules) (plus : Bool) : Parser Ty := do
  let before ← rest
  let _ ← word "dyn"
  let star ← opIf "*"
  let bounds ← objectBounds r plus
  if star.isEmpty then return .object true bounds.items bounds.trailing
  else return .verbatim (← since before)

/-- What a type can begin with, in the wording of an error. -/
def typeStarts : List Text :=
  (["`for`", "parentheses", "`fn`", "`unsafe`", "`extern`", "identifier", "`::`", "`<`", "`dyn`",
    "square brackets", "`*`", "`&`", "`!`", "`impl`", "`_`", "lifetime"] : List String).map
    String.toList

/-- What can follow a binder, in the wording of an error. -/
def boundTypeStarts : List Text :=
  (["identifier", "`fn`", "`unsafe`", "`extern`", "`super`", "`self`", "`Self`", "`crate`"] :
    List String).map String.toList

/-- Whether a function type stands here. -/
def startsFn (ls : List Lexeme) : Bool := Ahead.anyWord ["fn", "unsafe", "extern"] ls

/-- The rest of a type behind a binder; `before` is what was left before it. -/
def typeBehind (r : Rules) (plus : Bool) (before : List Lexeme) (binder : Tokens) : Parser Ty := do
  let ls ← rest
  if startsFn ls then fnType r binder
  else if startsBuiltin ls then
    passBuiltin
    return .verbatim (← since before)
  else if startsSegment ls then pathType r plus (some binder)
  else expected boundTypeStarts

/-- A type. -/
def anyType (r : Rules) (plus : Bool) : Parser Ty := do
  let ls ← rest
  if Ahead.word "for" ls then typeBehind r plus ls (← r.binder)
  else if Ahead.opens .paren ls then parenType r plus
  else if startsFn ls then fnType r []
  else if startsBuiltin ls then
    passBuiltin
    return .verbatim (← since ls)
  else if startsSegment ls || Ahead.op "::" ls || Ahead.op "<" ls then pathType r plus none
  else if Ahead.word "dyn" ls then dynType r plus
  else if Ahead.opens .bracket ls then bracketType r
  else if Ahead.op "*" ls then pointerType r
  else if Ahead.op "&" ls then referenceType r
  else if Ahead.op "!" ls then
    let _ ← op "!"
    return .never
  else if Ahead.word "impl" ls then implType r plus
  else if Ahead.word "_" ls then
    let _ ← word "_"
    return .infer
  else if Ahead.lifetime ls then bareObject r
  else expected typeStarts

end EnumTags.Rules

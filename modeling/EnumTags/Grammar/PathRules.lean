import EnumTags.Grammar.AttributeRules

/-!
# Paths and bounds

A path segment may have arguments in angle brackets; inside an expression these need colons before
them, since a bare angle bracket is a comparison there. Bounds are traits and lifetimes, and where
the place allows it, also captured parameters and traits that hold at compile time.

Arguments, bounds and binders hold each other. Each rule is given the ones it needs, and the depth
to which they nest is bounded by the number of lexemes.
-/

namespace EnumTags.Rules

open EnumTags.Parser

/-- A constant as an argument: a literal, a name, or a block. -/
def constArgument (r : Rules) : Parser Tokens := do
  let ls ← rest
  if Ahead.literal ls then literal
  else if Ahead.name ls then nameTokens
  else if Ahead.opens .brace ls then r.block true
  else expected []

/-- The result type behind an arrow. -/
def result? (r : Rules) : Parser (Option Ty) := do
  if ← peek (Ahead.op "->") then
    let _ ← op "->"
    return some (← r.ty false)
  else return none

/-! ## Paths -/

/-- Whether angle-bracketed arguments follow a segment. -/
def startsAngle (inExpr : Bool) (ls : List Lexeme) : Bool :=
  (!inExpr && Ahead.op "<" ls && !Ahead.op "<=" ls && !Ahead.op "<<=" ls) ||
    (Ahead.op "::" ls && Ahead.op "<" (Ahead.skipTwo ls))

/-- Whether a list of arguments in parentheses follows a segment. -/
def startsInputs (ls : List Lexeme) : Bool :=
  Ahead.opens .paren ls || (Ahead.op "::" ls && Ahead.opens .paren (Ahead.skipTwo ls))

/-- Arguments in angle brackets, given a parser for one of them. -/
def angle (argument : Parser Argument) : Parser Arguments := do
  let colons ← opIf "::"
  let _ ← op "<"
  let args ← listUntil (Ahead.op ">") "," argument
  let _ ← op ">"
  return .angle (!colons.isEmpty) args.items args.trailing

/-- A segment of a path, given a parser for one argument. -/
def segment (argument : Parser Argument) (inExpr : Bool) : Parser Segment := do
  if ← peek (Ahead.anyWord ["super", "self", "crate", "try"]) then return .mk (← anyIdent) .none
  let head ← if ← peek (Ahead.word "Self") then anyIdent else name
  if ← peek (startsAngle inExpr) then return .mk head (← angle argument)
  else return .mk head .none

/-- The segments of a path behind an optional `::`. -/
def segments (argument : Parser Argument) (inExpr : Bool) : Parser (Bool × List Segment) := do
  let root ← opIf "::"
  let first ← segment argument inExpr
  let goes (ls : List Lexeme) : Bool := Ahead.op "::" ls && !Ahead.opens .paren (Ahead.skipTwo ls)
  let more ← manyWhile goes (do let _ ← op "::"; segment argument inExpr)
  return (!root.isEmpty, first :: more)

/-- Whether no segment has arguments. -/
def isPlain (segments : List Segment) : Bool :=
  segments.all fun
    | .mk _ .none => true
    | _ => false

/-- Arguments in parentheses. -/
def inputs (r : Rules) : Parser Arguments := do
  let _ ← opIf "::"
  let tys ← group .paren (listToEnd (r.ty true))
  return .paren tys.items tys.trailing (← result? r)

/-- Whether a segment has no arguments, or empty angle brackets. -/
def hasNoArguments : Segment → Bool
  | .mk _ .none => true
  | .mk _ (.angle _ [] _) => true
  | _ => false

/-- A trait with the arguments in parentheses that it may have. These take the place of empty angle
brackets. -/
def traitPath (r : Rules) (argument : Parser Argument) : Parser (Bool × List Segment) := do
  let (rooted, path) ← segments argument false
  match path.getLast? with
  | some (.mk head arguments) =>
    if hasNoArguments (.mk head arguments) && (← peek startsInputs) then
      return (rooted, path.dropLast ++ [.mk head (← inputs r)])
    else return (rooted, path)
  | none => return (rooted, path)

/-! ## Bounds -/

/-- Where bounds stand, and so which of them are allowed. -/
inductive BoundPlace where
  /-- at an object type -/
  | object
  /-- at a type that is only known by its bounds -/
  | anonymous
  /-- at a declared parameter, member or trait -/
  | declared
deriving DecidableEq, Repr

/-- Whether captured parameters may be listed. -/
def BoundPlace.allowsCaptures : BoundPlace → Bool
  | .anonymous => true
  | .object | .declared => false

/-- Whether a trait may be asked to hold at compile time. -/
def BoundPlace.allowsConst : BoundPlace → Bool
  | .anonymous | .declared => true
  | .object => false

/-- The parameters between the angle brackets of a list of captured ones, each with whether it is a
lifetime. -/
def capturedParams : (fuel : Nat) → Parser (Listed (Bool × Tokens))
  | 0 => throw .exhausted
  | fuel + 1 => do
    let ls ← rest
    if Ahead.op ">" ls then return ⟨[], true⟩
    let param ←
      if Ahead.lifetime ls then do pure (true, ← lifetimeTokens)
      else if Ahead.name ls || Ahead.word "Self" ls then do pure (false, ← anyIdentTokens)
      else expected ["lifetime", "identifier", "`>`"]
    let ls ← rest
    if Ahead.op ">" ls then return ⟨[param], false⟩
    if !Ahead.op "," ls then expected ["`,`", "`>`"]
    let _ ← op ","
    let more ← capturedParams fuel
    return ⟨param :: more.items, more.trailing⟩

/-- The list of parameters that an anonymous type captures, lifetimes first. -/
def captures : Parser Tokens := do
  let head ← all [word "use", op "<"]
  let params ← capturedParams ((← rest).length + 1)
  return head ++ lifetimesFirst params.items params.trailing ++ (← op ">")

/-- Reads the mark of a trait that has to hold at compile time, and tells whether it was there. -/
def constMark (place : BoundPlace) : Parser Bool := do
  let ls ← rest
  if Ahead.opens .bracket ls then
    let _ ← group .bracket (word "const")
    if place.allowsConst then return true else reject "`[const]` is not allowed here"
  else if Ahead.word "const" ls then
    let _ ← word "const"
    if place.allowsConst then return true else reject "`const` is not allowed here"
  else return false

/-- A trait bound, given parsers for a binder and for one argument; nothing if the bound can only be
kept as it is written. -/
def traitBound (r : Rules) (binder : Parser Tokens) (argument : Parser Argument)
    (place : BoundPlace) (paren : Bool) : Parser (Option Bound) := do
  let before ← binder
  let isConst ← constMark place
  let optional ← opIf "?"
  if !before.isEmpty && !optional.isEmpty then
    reject "`for<...>` binder not allowed with `?` trait polarity modifier"
  let (rooted, path) ← traitPath r argument
  return if isConst then none else some (.trait paren (!optional.isEmpty) before rooted path)

/-- A bound. -/
def boundWith (r : Rules) (binder : Parser Tokens) (argument : Parser Argument)
    (place : BoundPlace) : Parser Bound := do
  let ls ← rest
  if Ahead.lifetime ls then return .lifetime (← lifetime)
  else if Ahead.word "use" ls then
    let tokens ← captures
    if place.allowsCaptures then return .captures tokens
    else reject "`use<...>` precise capturing syntax is not allowed here"
  else
    let found ←
      if Ahead.opens .paren ls then group .paren (traitBound r binder argument place true)
      else traitBound r binder argument place false
    match found with
    | some bound => return bound
    | none => return .verbatim (← since ls)

/-- Whether another bound stands behind a plus sign. -/
def startsBound (ls : List Lexeme) : Bool :=
  Ahead.anyIdent ls || Ahead.op "::" ls || Ahead.op "?" ls || Ahead.lifetime ls ||
    Ahead.opens .paren ls || Ahead.opens .bracket ls

/-! ## Arguments -/

/-- The rest of an argument that began with a single segment. -/
def assocArgument (r : Rules) (bound : Parser Bound) (head : Ident) (generics : Arguments) :
    Parser Argument := do
  if ← peek (Ahead.op "=") then
    let _ ← op "="
    if ← peek (fun ls => Ahead.literal ls || Ahead.opens .brace ls) then
      return .assocConst head generics (← constArgument r)
    else return .assocType head generics (← r.ty true)
  else if ← peek (Ahead.op ":") then
    let _ ← op ":"
    let bounds ← chain (fun ls => !Ahead.anyOp [",", ">"] ls) "+" bound
    return .constraint head generics bounds.items bounds.trailing
  else return .type (.path false [.mk head generics])

/-- An argument in angle brackets, given a parser for the bounds that it may hold. -/
def argumentWith (r : Rules) (bound : Parser Bound) : Parser Argument := do
  let ls ← rest
  if Ahead.lifetime ls && !Ahead.op "+" (Ahead.skip ls) then return .lifetime (← lifetime)
  else if Ahead.literal ls || Ahead.opens .brace ls then return .const (← constArgument r)
  else
    match ← r.ty true with
    | .path false [.mk head .none] => assocArgument r bound head .none
    | .path false [.mk head (.angle colons args trailing)] =>
      assocArgument r bound head (.angle colons args trailing)
    | ty => return .type ty

/-! ## Parameters -/

/-- Whether the bounds of a parameter end here. -/
def endsParamBounds (ls : List Lexeme) : Bool := Ahead.atEnd ls || Ahead.anyOp [",", ">", "="] ls

/-- A lifetime as a parameter. -/
def lifetimeParam (attributes : Tokens) : Parser Param := do
  let l ← lifetime
  if ← peek (Ahead.op ":") then
    let _ ← op ":"
    let goes (ls : List Lexeme) : Bool := !(Ahead.atEnd ls || Ahead.anyOp [",", ">"] ls)
    let bounds ← chain goes "+" lifetimeTokens
    return .lifetime attributes l (bounds.tokens (Tokens.op "+") id)
  else return .lifetime attributes l []

/-- A type as a parameter, given a parser for its bounds. -/
def typeParam (r : Rules) (bound : Parser Bound) (attributes : Tokens) : Parser Param := do
  let head ← name
  let bounds ← if ← peek (Ahead.op ":") then do
      let _ ← op ":"
      pure (← chain (fun ls => !endsParamBounds ls) "+" bound).boundTokens
    else pure []
  if ← peek (Ahead.op "=") then
    let _ ← op "="
    return .type attributes head bounds (some (← r.tyTokens))
  else return .type attributes head bounds none

/-- A constant as a parameter. -/
def constParam (r : Rules) (attributes : Tokens) : Parser Param := do
  let _ ← word "const"
  let head ← name
  let _ ← op ":"
  let ty ← r.tyTokens
  if ← peek (Ahead.op "=") then
    let _ ← op "="
    return .const attributes head ty (some (← constArgument r))
  else return .const attributes head ty none

/-- A parameter of a binder. -/
def boundParam (r : Rules) (bound : Parser Bound) : Parser Param := do
  let attributes ← r.attributes
  let ls ← rest
  if Ahead.name ls then typeParam r bound attributes
  else if Ahead.lifetime ls then lifetimeParam attributes
  else if Ahead.word "const" ls then constParam r attributes
  else expected ["identifier", "lifetime", "`const`"]

/-- The parameters behind `for`, if they are there, given a parser for the bounds in them. -/
def binderWith (r : Rules) (bound : Parser Bound) : Parser Tokens := do
  if !(← peek (Ahead.word "for")) then return []
  let head ← all [word "for", op "<"]
  let params ← listUntil (Ahead.op ">") "," (boundParam r bound)
  return head ++ params.tokens (Tokens.op ",") Param.declared ++ (← op ">")

/-! ## Nesting -/

/-- A bound in which bounds nest at most `fuel` times. -/
def boundAt (r : Rules) : (fuel : Nat) → BoundPlace → Parser Bound
  | 0, _ => throw .exhausted
  | fuel + 1, place =>
    boundWith r (binderWith r (boundAt r fuel .declared))
      (argumentWith r (boundAt r fuel .declared)) place

/-- A bound. -/
def bound (r : Rules) (place : BoundPlace) : Parser Bound := do
  boundAt r ((← rest).length + 2) place

/-- An argument in angle brackets. -/
def argument (r : Rules) : Parser Argument := argumentWith r (r.bound .declared)

/-- The parameters behind `for`, if they are there. -/
def binder (r : Rules) : Parser Tokens := binderWith r (r.bound .declared)

/-- A path in a type, with `<T as X>` at its start or without. -/
def typePath (r : Rules) (inExpr : Bool) : Parser Ty := do
  if ← peek (Ahead.op "<") then
    let _ ← op "<"
    let self ← r.ty true
    let (rooted, trait) ← if ← peek (Ahead.word "as") then do
        let _ ← word "as"
        segments r.argument false
      else pure (false, [])
    let _ ← op ">"
    let _ ← op "::"
    let more ← chainFrom (fun _ => true) "::" (segment r.argument inExpr)
    return .qualified self rooted trait more.items
  else
    let (rooted, path) ← segments r.argument inExpr
    return .path rooted path

end EnumTags.Rules

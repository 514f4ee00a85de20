import EnumTags.Grammar.PathRules

/-!
# Generic parameters and `where` clauses

The parameters behind the name of a declaration, and the conditions on them.
-/

namespace EnumTags.Rules

open EnumTags.Parser

/-- A parameter of a declaration. A mere underscore is one too, without bounds or a default. -/
def param (r : Rules) : Parser Param := do
  let attributes ← r.attributes
  let ls ← rest
  if Ahead.lifetime ls then lifetimeParam attributes
  else if Ahead.name ls then typeParam r (r.bound .declared) attributes
  else if Ahead.word "const" ls then constParam r attributes
  else if Ahead.word "_" ls then return .type attributes (← anyIdent) [] none
  else expected ["lifetime", "identifier", "`const`"]

/-- The generic parameters behind a name, if they are there. -/
def generics (r : Rules) : Parser Generics := do
  if !(← peek (Ahead.op "<")) then return .empty
  let _ ← op "<"
  let params ← listUntil (Ahead.op ">") "," r.param
  let _ ← op ">"
  return ⟨true, params.items, params.trailing, none⟩

/-- Generic parameters as tokens. -/
def genericTokens (r : Rules) : Parser Tokens := do return (← r.generics).declared

/-- Whether generic parameters stand here, and not a path that begins with a type in angle
brackets. -/
def startsGenerics (ls : List Lexeme) : Bool :=
  let first := ls.drop 1
  let second := Ahead.skip first
  Ahead.op "<" ls &&
    (Ahead.op ">" first || Ahead.op "#" first || Ahead.word "const" first ||
      ((Ahead.lifetime first || Ahead.name first) &&
        (Ahead.anyOp [">", ",", "="] second || (Ahead.op ":" second && !Ahead.op "::" second))))

/-- Whether a `where` clause, or the bounds of a condition in it, end here. -/
def endsWhere (ls : List Lexeme) : Bool :=
  Ahead.atEnd ls || Ahead.opens .brace ls || Ahead.anyOp [",", ";", "="] ls ||
    (Ahead.op ":" ls && !Ahead.op "::" ls)

/-- A condition of a `where` clause. -/
def predicate (r : Rules) : Parser Tokens := do
  let ls ← rest
  if Ahead.lifetime ls && Ahead.op ":" (Ahead.skip ls) then
    let head ← all [lifetimeTokens, op ":"]
    let goes (ls : List Lexeme) : Bool := !(endsWhere ls || Ahead.op ":" ls)
    let bounds ← chain goes "+" lifetimeTokens
    return head ++ bounds.tokens (Tokens.op "+") id
  else
    let head ← all [r.binder, r.tyTokens, op ":"]
    let bounds ← chain (fun ls => !endsWhere ls) "+" (r.bound .declared)
    return head ++ bounds.boundTokens

/-- The `where` clause, if it is there. -/
def whereClause (r : Rules) : Parser (Option Tokens) := do
  if !(← peek (Ahead.word "where")) then return none
  let _ ← word "where"
  if ← peek startsGenerics then
    refuse "generic parameters on `where` clauses are reserved for future use"
  let predicates ← chain (fun ls => !endsWhere ls) "," r.predicate
  return some (predicates.tokens (Tokens.op ",") id)

/-- The `where` clause as tokens. -/
def whereTokens (r : Rules) : Parser Tokens := do
  return Generics.wherePart { Generics.empty with whereClause := ← r.whereClause }

end EnumTags.Rules

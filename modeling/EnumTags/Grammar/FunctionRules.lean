import EnumTags.Grammar.BlockRules
import EnumTags.Grammar.GenericRules

/-!
# Functions

The head of a function, which items and members share: qualifiers, name, generic parameters,
arguments, result type and conditions.
-/

namespace EnumTags.Rules

open EnumTags.Parser

/-- An identifier with its place. -/
def placed (p : Parser Ident) : Parser Placed := do
  let (i, source) ← withSource p
  return ⟨i, Span.ofLexemes source⟩

/-- The receiver of a method. -/
def receiver (r : Rules) : Parser Tokens := do
  let reference ← if ← peek (Ahead.op "&") then
      all [op "&", whenAhead Ahead.lifetime lifetimeTokens]
    else pure []
  let head ← all [wordIf "mut", word "self"]
  if reference.isEmpty then
    return head ++ (← whenAhead (Ahead.op ":") (all [op ":", r.tyTokens]))
  else return reference ++ head

/-- An argument of a function. -/
inductive FnArgument where
  | receiver (tokens : Tokens)
  | typed (tokens : Tokens)
  /-- the mark for further arguments, which ends them -/
  | rest (tokens : Tokens)

/-- An argument of a function behind its attributes. A mere type with arguments in angle brackets
is one without a pattern. -/
def fnArgument (r : Rules) : Parser FnArgument := do
  if ← peek (Ahead.op "...") then return .rest (← op "...")
  match ← attempt (receiver r) with
  | some tokens => return .receiver tokens
  | none =>
    if ← peek (fun ls => Ahead.name ls && Ahead.op "<" (Ahead.skip ls)) then
      return .typed (Tokens.word "_" Tokens.isSpelling_underscore ++ Tokens.op ":" ++ (← r.tyTokens))
    let head ← all [r.patternTokens, op ":"]
    if ← peek (Ahead.op "...") then return .rest (head ++ (← op "..."))
    else return .typed (head ++ (← r.tyTokens))

/-- The arguments of a function. Only the first of them may be a receiver; `isFirst` and
`hasReceiver` tell what came before. -/
def fnArguments (r : Rules) : (fuel : Nat) → (isFirst hasReceiver : Bool) → Parser Tokens
  | 0, _, _ => throw .exhausted
  | fuel + 1, isFirst, hasReceiver => do
    if ← peek Ahead.atEnd then return []
    let attributes ← r.attributes
    let argument ← fnArgument r
    let goOnWith (tokens : Tokens) (hasReceiver : Bool) : Parser Tokens := do
      if ← peek Ahead.atEnd then return attributes ++ tokens
      let comma ← op ","
      return attributes ++ tokens ++ comma ++ (← fnArguments r fuel false hasReceiver)
    match argument with
    | .rest tokens =>
      let comma ← if ← peek Ahead.atEnd then pure [] else op ","
      return attributes ++ tokens ++ comma
    | .receiver tokens =>
      if hasReceiver then reject "unexpected second method receiver"
      if !isFirst then reject "unexpected method receiver"
      goOnWith tokens true
    | .typed tokens => goOnWith tokens hasReceiver

/-- What stands before `fn` at a function; `safe` tells whether the function may be marked as safe,
and the answer whether it is. -/
def fnQualifiers (safe : Bool) : Parser (Tokens × Bool) := do
  let head ← all [wordIf "const", wordIf "async", wordIf "unsafe"]
  let isSafe ← if safe && !head.any (Token.isWord "unsafe") then
      peek (Ahead.word "safe")
    else pure false
  if isSafe then let _ ← word "safe"
  return (head ++ (← convention), isSafe)

/-- Whether a function stands here, behind its qualifiers. -/
def startsFunction (safe : Bool) (ls : List Lexeme) : Bool :=
  match (do let _ ← fnQualifiers safe; peek (Ahead.word "fn") : Parser Bool) ⟨ls, none⟩ with
  | .ok (found, _) => found
  | .error _ => false

/-- The head of a function up to its body. -/
structure FnHead where
  /-- what stands before the name -/
  before : Tokens
  name : Placed
  /-- what stands behind the name -/
  behind : Tokens
  /-- Whether the function is marked as safe, which is not written out. -/
  isSafe : Bool

/-- The head as tokens. -/
def FnHead.tokens (h : FnHead) : Tokens := h.before ++ Tokens.ofIdent h.name.ident ++ h.behind

/-- Reads the head of a function. -/
def fnHead (r : Rules) (safe : Bool) : Parser FnHead := do
  let (qualifiers, isSafe) ← fnQualifiers safe
  let keyword ← word "fn"
  let i ← placed name
  let generics ← genericTokens r
  let arguments ← groupTokens .paren (do fnArguments r ((← rest).length + 1) true false)
  let result ← whenAhead (Ahead.op "->") (all [op "->", r.tyTokens])
  let conditions ← whereTokens r
  return ⟨qualifiers ++ keyword, i, generics ++ arguments ++ result ++ conditions, isSafe⟩

end EnumTags.Rules

import EnumTags.Grammar.Type

/-!
# Expressions and patterns

Nothing here computes with expressions and patterns, so they are kept as tokens. Beside the tokens
stands what the rules around them ask for: whether a separator has to follow, where attributes go,
what may stand on either side of an operator.

`Precedence` says how tightly an operator binds.
-/

namespace EnumTags

/-- The forms of expressions that the rules around an expression tell apart. -/
inductive ExprForm where
  /-- A block, or a choice, match or loop, which ends in its own curly brackets. -/
  | blockLike
  /-- A macro with its arguments in curly brackets. -/
  | braceMacro
  /-- A range, which cannot be the left operand of anything. -/
  | range
  /-- A comparison, which cannot be compared again. -/
  | comparison
  /-- A form that is only kept as it is written. -/
  | verbatim
  /-- Any other expression. -/
  | plain
deriving DecidableEq, Repr

/-- An expression. `startsVerbatim` tells that its leftmost operand is kept as it is written, and
`endsInBrace` that its last part is in curly brackets. -/
structure Expr where
  tokens : Tokens
  form : ExprForm
  startsVerbatim : Bool
  endsInBrace : Bool
deriving DecidableEq, Repr

namespace Expr

/-- An expression of no particular form. -/
def plain (tokens : Tokens) : Expr := ⟨tokens, .plain, false, false⟩

/-- An expression of no particular form whose last part is the expression `last`. -/
def endingIn (before : Tokens) (last : Expr) : Expr :=
  ⟨before ++ last.tokens, .plain, false, last.endsInBrace⟩

/-- An expression that ends in its own curly brackets. -/
def blockLike (tokens : Tokens) : Expr := ⟨tokens, .blockLike, false, true⟩

/-- An expression of no particular form that ends in curly brackets. -/
def braced (tokens : Tokens) : Expr := ⟨tokens, .plain, false, true⟩

/-- An expression that is kept as it is written. -/
def verbatim (tokens : Tokens) : Expr := ⟨tokens, .verbatim, true, tokens.endInBrace⟩

/-- A range from `start` on, where `last` is its end if it has one. -/
def range (start mark : Tokens) : (last : Option Expr) → Expr
  | none => ⟨start ++ mark, .range, false, false⟩
  | some last => ⟨start ++ mark ++ last.tokens, .range, false, last.endsInBrace⟩

/-- Two operands with an operator between them. -/
def binary (form : ExprForm) (left : Expr) (operator : Tokens) (right : Expr) : Expr :=
  ⟨left.tokens ++ operator ++ right.tokens, form, left.startsVerbatim, right.endsInBrace⟩

/-- The expression with a postfix. -/
def followedBy (e : Expr) (more : Tokens) : Expr := plain (e.tokens ++ more)

/-- Whether a comma has to follow the expression when it is the body of an arm. -/
def needsComma (e : Expr) : Bool := e.form != .blockLike

/-- Whether a semicolon has to follow the expression when it is a statement. -/
def needsSemicolon (e : Expr) : Bool := e.form != .blockLike && e.form != .braceMacro

/-- The expression with attributes before it. They belong to the leftmost operand, and are lost if
that one is kept as it is written; a range is put into parentheses behind them. -/
def withAttributes (attributes : Tokens) (e : Expr) : Expr :=
  if attributes.isEmpty || e.startsVerbatim then e
  else if e.form == .range then
    { e with tokens := attributes ++ Tokens.enclose .paren e.tokens }
  else { e with tokens := attributes ++ e.tokens }

end Expr

/-- The forms of patterns that the rules around a pattern tell apart. -/
inductive PatternForm where
  /-- `..` -/
  | rest
  /-- A range without a start or without an end. -/
  | openRange
  /-- A form that is only kept as it is written. -/
  | verbatim
  /-- Any other pattern. -/
  | plain
deriving DecidableEq, Repr

/-- A pattern. -/
structure Pattern where
  tokens : Tokens
  form : PatternForm
deriving DecidableEq, Repr

/-- A pattern of no particular form. -/
def Pattern.plain (tokens : Tokens) : Pattern := ⟨tokens, .plain⟩

/-- How tightly an operator binds, from loose to tight. -/
inductive Precedence where
  | jump
  | assign
  | range
  | either
  | both
  | binding
  | compare
  | bitOr
  | bitXor
  | bitAnd
  | shift
  | sum
  | product
  | cast
deriving DecidableEq, Repr

/-- The place of a precedence in the order. -/
def Precedence.rank : Precedence → Nat
  | jump => 0
  | assign => 1
  | range => 2
  | either => 3
  | both => 4
  | binding => 5
  | compare => 6
  | bitOr => 7
  | bitXor => 8
  | bitAnd => 9
  | shift => 10
  | sum => 11
  | product => 12
  | cast => 13

end EnumTags

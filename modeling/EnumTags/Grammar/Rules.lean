import EnumTags.Grammar.Expr
import EnumTags.Grammar.Item

/-!
# The rules of the grammar

Types hold expressions, expressions hold blocks, blocks hold items, and items hold all of them.
`Rules` collects the parsers that refer to each other; the modules that follow say how each is made
when the others are given, and `Grammar.Reader` ties them together.
-/

namespace EnumTags

/-- The parsers that the rules of the grammar refer to. -/
structure Rules where
  /-- A type; `plus` tells whether it may be a sum of bounds. -/
  ty : (plus : Bool) → Parser Ty
  /-- An expression; `structs` tells whether a path in it may be followed by fields. -/
  expr : (structs : Bool) → Parser Expr
  /-- An expression without binary operators. -/
  unary : (structs : Bool) → Parser Expr
  /-- A pattern without alternatives. -/
  pattern : Parser Pattern
  /-- A block in curly brackets; `inner` tells whether it may begin with attributes about what
  surrounds it. -/
  block : (inner : Bool) → Parser Tokens
  /-- An item. -/
  item : Parser Item

/-- Rules that read nothing. -/
def Rules.exhausted : Rules where
  ty _ := throw .exhausted
  expr _ := throw .exhausted
  unary _ := throw .exhausted
  pattern := throw .exhausted
  block _ := throw .exhausted
  item := throw .exhausted

namespace Rules

/-- A type as tokens. -/
def tyTokens (r : Rules) : Parser Tokens := do return (← r.ty true).tokens

/-- An expression as tokens. -/
def exprTokens (r : Rules) (structs : Bool) : Parser Tokens := do return (← r.expr structs).tokens

/-- A pattern without alternatives, as tokens. -/
def patternTokens (r : Rules) : Parser Tokens := do return (← r.pattern).tokens

end Rules

end EnumTags

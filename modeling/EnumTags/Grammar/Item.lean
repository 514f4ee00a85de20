import EnumTags.Grammar.Generics

/-!
# Items

What an attribute can stand before. An enum is taken apart into variants and fields; of any other
item only its kind, its name and its tokens matter, and for a module the items in it.

Names, variants, field lists and fields keep their place in the source.
-/

namespace EnumTags

/-- A name with its place in the source. -/
structure Placed where
  ident : Ident
  span : Span
deriving DecidableEq, Repr

/-- A field of a variant; only fields in curly brackets have labels. -/
structure Field where
  attributes : Tokens
  visibility : Tokens
  label : Option Ident
  ty : Ty
  span : Span

/-- The field as tokens. -/
def Field.tokens (f : Field) : Tokens :=
  f.attributes ++ f.visibility ++
    (match f.label with | some i => Tokens.ofIdent i ++ Tokens.op ":" | none => []) ++ f.ty.tokens

/-- The fields of a variant or structure. -/
inductive Fields where
  | unit
  | tuple (fields : Listed Field) (span : Span)
  | record (fields : Listed Field) (span : Span)

namespace Fields

/-- The fields in order. -/
def items : Fields → List Field
  | unit => []
  | tuple fields _ => fields.items
  | record fields _ => fields.items

/-- The fields as tokens, with their brackets. -/
def tokens : Fields → Tokens
  | unit => []
  | tuple fields _ => Tokens.enclose .paren (fields.tokens (Tokens.op ",") Field.tokens)
  | record fields _ => Tokens.enclose .brace (fields.tokens (Tokens.op ",") Field.tokens)

end Fields

/-- A variant of an enum. -/
structure Variant where
  attributes : Tokens
  name : Placed
  named : name.ident.isName = true
  fields : Fields
  discriminant : Option Tokens
  span : Span

/-- The variant as tokens. -/
def Variant.tokens (v : Variant) : Tokens :=
  v.attributes ++ Tokens.ofIdent v.name.ident ++ v.fields.tokens ++
    (match v.discriminant with | some value => Tokens.op "=" ++ value | none => [])

/-- An enum. -/
structure EnumItem where
  attributes : Tokens
  visibility : Tokens
  name : Placed
  named : name.ident.isName = true
  generics : Generics
  variants : Listed Variant
  span : Span

/-- The enum as tokens. -/
def EnumItem.tokens (e : EnumItem) : Tokens :=
  e.attributes ++ e.visibility ++ Tokens.word "enum" ++ Tokens.ofIdent e.name.ident ++
    e.generics.declared ++ e.generics.wherePart ++
    Tokens.enclose .brace (e.variants.tokens (Tokens.op ",") Variant.tokens)

/-- An item of which only the outside matters. -/
structure Plain where
  name : Option Placed
  tokens : Tokens
  span : Span

/-- An item. -/
inductive Item where
  | enum (e : EnumItem)
  | product (p : Plain)
  | module (p : Plain) (items : List Plain)
  | other (p : Plain)

namespace Item

/-- The outside of an item. -/
def plain : Item → Plain
  | enum e => ⟨some e.name, e.tokens, e.span⟩
  | product p => p
  | module p _ => p
  | other p => p

end Item

end EnumTags

import EnumTags.Grammar.Item
import EnumTags.Outline.Basic

/-!
# The outline of an item

An enum gives a node for each variant, with its name and its payload; a module gives a node for
each item in it; of any other item there is only the root with its name. Every node carries the
compact text of what it stands for.
-/

namespace EnumTags

namespace Outline

/-- Adds the node of a name. -/
def pushName (t : Outline Span) (parent : Nat) (name : Placed) : Outline Span :=
  t.push parent .name name.ident.text name.span

/-- Adds the slot of a field. -/
def pushField (clause : Nat) (t : Outline Span) (f : Field) : Outline Span :=
  t.push clause (.slot (f.label.map Ident.text) f.ty.classify) f.tokens.compact f.span

/-- Adds a payload with its slots. -/
def pushClause (t : Outline Span) (variant : Nat) (grouping : Grouping) (fields : Fields)
    (span : Span) : Outline Span :=
  let clause := t.size
  fields.items.foldl (pushField clause)
    (t.push variant (.clause (some grouping) (some grouping)) fields.tokens.compact span)

/-- Adds a variant with its name and its payload. -/
def pushVariant (t : Outline Span) (v : Variant) : Outline Span :=
  let variant := t.size
  let t := (t.push root .variant v.tokens.compact v.span).pushName variant v.name
  match v.fields with
  | .unit => t
  | .tuple fields span => t.pushClause variant .paren (.tuple fields span) span
  | .record fields span => t.pushClause variant .brace (.record fields span) span

/-- The outline of an enum. -/
def ofEnum (e : EnumItem) : Outline Span :=
  e.variants.items.foldl pushVariant
    ((new (.declaration .sum) e.tokens.compact e.span).pushName root e.name)

/-- The outline of an item that is only its kind and its name. -/
def ofPlain (kind : DeclKind) (p : Plain) : Outline Span :=
  let t := new (.declaration kind) p.tokens.compact p.span
  match p.name with
  | some name => t.pushName root name
  | none => t

/-- Adds an item of a module. -/
def pushNested (t : Outline Span) (p : Plain) : Outline Span :=
  let nested := t.size
  let t := t.push root .nested p.tokens.compact p.span
  match p.name with
  | some name => t.pushName nested name
  | none => t

/-- The outline of an item. -/
def ofItem : Item → Outline Span
  | .enum e => ofEnum e
  | .product p => ofPlain .product p
  | .module p items => items.foldl pushNested (ofPlain .other p)
  | .other p => ofPlain .other p

end Outline

end EnumTags

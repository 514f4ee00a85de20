import EnumTags.Grammar.Type

/-!
# Outlines

An outline is what the generator sees of a declaration: nodes for the declaration, its names, its
variants and their payloads, each with its text and its place. Nodes are numbered in the order in
which they are added, and links to the parent and to the children are such numbers. The root has
the number zero.

The place of a node can be of any type `σ`; nothing but a report looks at it.
-/

namespace EnumTags

/-- What is declared. -/
inductive DeclKind where
  /-- a choice between variants -/
  | sum
  /-- a fixed set of fields -/
  | product
  | other
deriving DecidableEq, Repr

/-- The brackets around a payload. -/
inductive Grouping where
  | paren
  | brace
deriving DecidableEq, Repr

/-- What a node stands for. -/
inductive NodeKind where
  | declaration (kind : DeclKind)
  /-- the name of the parent -/
  | name
  | variant
  /-- the payload of a variant; a bracket that is missing in the source is missing here -/
  | clause (opened closed : Option Grouping)
  /-- a single type in a payload -/
  | slot (label : Option Text) (ty : TypeText)
  /-- something declared inside the declaration -/
  | nested
deriving DecidableEq, Repr

/-- Variants and nested declarations are the members of a declaration. -/
def NodeKind.isMember : NodeKind → Bool
  | variant | nested => true
  | _ => false

/-- A node of an outline. -/
structure Node (σ : Type) where
  id : Nat
  kind : NodeKind
  parent : Option Nat
  children : List Nat
  text : Text
  span : σ
deriving Repr

/-- The nodes, in the order of their numbers. -/
structure Outline (σ : Type) where
  nodes : Array (Node σ)
deriving Repr

namespace Outline

variable {σ : Type}

/-- The number of the root. -/
def root : Nat := 0

/-- An outline of one node. -/
def new (kind : NodeKind) (text : Text) (span : σ) : Outline σ :=
  ⟨#[⟨root, kind, none, [], text, span⟩]⟩

/-- The number that the next node gets. -/
def size (t : Outline σ) : Nat := t.nodes.size

/-- Adds a node as the last child of `parent`. -/
def push (t : Outline σ) (parent : Nat) (kind : NodeKind) (text : Text) (span : σ) : Outline σ :=
  let id := t.nodes.size
  let linked := t.nodes.modify parent fun n => { n with children := n.children ++ [id] }
  ⟨linked.push ⟨id, kind, some parent, [], text, span⟩⟩

/-- The node with this number. -/
def node? (t : Outline σ) (id : Nat) : Option (Node σ) := t.nodes[id]?

/-- The kind of a node. -/
def kind? (t : Outline σ) (id : Nat) : Option NodeKind := (t.node? id).map Node.kind

/-- The children of a node. -/
def children (t : Outline σ) (id : Nat) : List Nat :=
  match t.node? id with
  | some n => n.children
  | none => []

/-- The text of a node. -/
def text (t : Outline σ) (id : Nat) : Text :=
  match t.node? id with
  | some n => n.text
  | none => []

/-- The text of the first child that is a name. -/
def nameOf? (t : Outline σ) (id : Nat) : Option Text :=
  ((t.children id).filterMap t.node?).findSome? fun n =>
    if n.kind = .name then some n.text else none

end Outline

end EnumTags

import EnumTags.Rejection

/-!
# Payloads of variants

Every variant comes down to one signature: no payload, a type with a text, or an inline function.
An inline function has no name, so it gets an alias, numbered in the order in which the functions
of a declaration are met. Aliases are numbered on across variants, and also when the variant is
then rejected.
-/

namespace EnumTags

/-- What a variant carries. -/
inductive Signature where
  | none
  | named (text : Text)
  | alias (name : Text)
deriving DecidableEq, Repr

/-- What is noted at a variant that carries nothing. -/
def noPayloadNote : Text := " -- has no payload"

/-- The note at a variant. -/
def Signature.description : Signature → Text
  | .none => noPayloadNote
  | .named text => text
  | .alias name => name

/-- How the payload of a variant is grouped, and so how a pattern for it looks. -/
inductive Shape where
  | unit
  | tuple
  | record
deriving DecidableEq, Repr

/-- The alias of an inline function. -/
structure Alias where
  name : Text
  target : TypeText
deriving DecidableEq, Repr

/-- The name of the alias with number `k`. -/
def Alias.nameOf (k : Nat) : Text := ("AnonymousFunc_" : Text) ++ Text.ofNat k

/-- A variant as the generator sees it. The name is empty when it could not be determined. -/
structure Extracted where
  name : Text
  ordinal : Nat
  node : Nat
  shape : Shape
  payloads : List TypeText
  signature : Signature
deriving DecidableEq, Repr

/-- A type in a payload: its node, the payload that holds it, and the type. -/
structure Slot where
  clause : Nat
  node : Nat
  ty : TypeText
deriving DecidableEq, Repr

/-- The aliases after another inline function was met, if it is one. -/
def Alias.register (aliases : List Alias) (ty : TypeText) : List Alias :=
  match ty with
  | .function .. => aliases ++ [⟨nameOf aliases.length, ty⟩]
  | _ => aliases

/-- What a single type contributes, given the aliases before it. -/
def Signature.ofType (aliases : List Alias) : TypeText → Signature
  | .function .. => .alias (Alias.nameOf aliases.length)
  | .named text => .named text
  | .other text => .named text

namespace Outline

variable {σ : Type}

/-- Whether a payload has both its brackets and they match. -/
def wellFormed : Option Grouping → Option Grouping → Bool
  | some opened, some closed => opened == closed
  | _, _ => false

/-- The slots of a payload; a malformed payload counts as none. -/
def slotsOf (t : Outline σ) (clause : Nat) : List Slot :=
  match t.kind? clause with
  | some (.clause opened closed) =>
    if wellFormed opened closed then
      (t.children clause).filterMap fun id =>
        match t.kind? id with
        | some (.slot _ ty) => some ⟨clause, id, ty⟩
        | _ => none
    else []
  | _ => []

/-- The shape that a payload gives to its variant. A payload without an opening bracket counts as
one in curly brackets. -/
def shapeOf (t : Outline σ) (clause : Nat) : Shape :=
  match t.kind? clause with
  | some (.clause (some .paren) _) => .tuple
  | _ => .record

/-- Whether a node is a payload. -/
def isClause : NodeKind → Bool
  | .clause _ _ => true
  | _ => false

/-- The signature of a variant with these slots and this name, given the aliases before it. -/
def signatureOf (t : Outline σ) (variant : Nat) (aliases : List Alias) :
    List Slot → Except Rejection Signature
  | [] => .ok .none
  | [slot] =>
    match t.nameOf? variant with
    | some _ => .ok (.ofType aliases slot.ty)
    | none => .error (.unclearName (t.text variant) slot.clause)
  | _ :: second :: _ =>
    .error (.severalPayloads ((t.nameOf? variant).getD (t.text variant)) second.node)

/-- Classifies a variant, and gives the aliases with those of its inline functions added. -/
def extract (t : Outline σ) (aliases : List Alias) (variant ordinal : Nat) :
    Except Rejection Extracted × List Alias :=
  match t.allDescendants variant fun n depth => depth == 1 && isClause n.kind with
  | .error e => (.error (.ofSearch e), aliases)
  | .ok clauses =>
    let slots := clauses.flatMap t.slotsOf
    let shape := match clauses.getLast? with
      | some clause => t.shapeOf clause
      | none => .unit
    let aliases' := slots.foldl (fun as s => Alias.register as s.ty) aliases
    match t.signatureOf variant aliases slots with
    | .error e => (.error e, aliases')
    | .ok signature =>
      (.ok ⟨(t.nameOf? variant).getD [], ordinal, variant, shape, slots.map Slot.ty, signature⟩,
        aliases')

/-- Classifies variants in turn, up to the first that is rejected; `ordinal` counts them. -/
def extractEach (t : Outline σ) (aliases : List Alias) (ordinal : Nat) :
    List Nat → Except Rejection (List Extracted × List Alias)
  | [] => .ok ([], aliases)
  | variant :: variants =>
    match t.extract aliases variant ordinal with
    | (.error e, _) => .error e
    | (.ok x, aliases) => do
      let (xs, aliases) ← extractEach t aliases (ordinal + 1) variants
      return (x :: xs, aliases)

end Outline

end EnumTags

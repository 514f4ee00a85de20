import EnumTags.Payload

/-!
# Declarations that can be simplified

The checks before anything is made, in this order: the declaration is an enum, none of its members
has the name `Simplified` yet, every variant can be classified, and at least one of them has a
payload. The first check that fails rejects the declaration.
-/

namespace EnumTags

/-- A declaration that passed all checks, with its variants in source order. -/
structure Declaration where
  name : Text
  node : Nat
  variants : List Extracted
  aliases : List Alias
deriving DecidableEq, Repr

namespace Outline

variable {σ : Type}

/-- Whether a node is a member of the root that has the name of the enum to be made. -/
def takesName (t : Outline σ) (n : Node σ) (depth : Nat) : Bool :=
  depth == 1 && n.kind.isMember && t.nameOf? n.id == some simplifiedName

/-- Checks a declaration. -/
def declaration (t : Outline σ) : Except Rejection Declaration := do
  if t.kind? root != some (.declaration .sum) then throw (.notASum root)
  match ← orReject (t.firstDescendant? root t.takesName) with
  | some member => throw (.alreadySimplified member)
  | none =>
    let variants ← orReject
      (t.allDescendants root fun n depth => depth == 1 && n.kind == .variant)
    let (extracted, aliases) ← t.extractEach [] 0 variants
    if extracted.all (·.signature == .none) then throw (.noPayload root)
    return ⟨(t.nameOf? root).getD [], root, extracted, aliases⟩

end Outline

end EnumTags

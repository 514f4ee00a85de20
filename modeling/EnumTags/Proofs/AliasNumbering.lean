import EnumTags.Diagnosis
import EnumTags.Proofs.Search
import Mathlib.Data.List.Nodup
import Mathlib.Tactic.Tauto

/-!
# Numbered aliases

The aliases of inline functions are numbered while the variants are classified one after the other,
but the tags and the arms that mention them are made later and separately. What keeps them in step
is said here of one variant (`Classified`) and carried over to a whole run: an alias is added for
every variant whose only payload is an inline function, under the name that this variant is
annotated with, and the names are the numbers in order.

## Main definitions

* `Outline.variantIds`: the variants of a declaration.
* `Outline.payloadTypes`: the types in the payloads of a variant.
* `Outline.inlineFunction?`: the inline function that is the only payload of a variant.
-/

namespace EnumTags

/-! ## The names of aliases -/

/-- The name of an alias tells its number. -/
theorem Alias.nameOf_injective : Function.Injective Alias.nameOf := by
  intro j k h
  have hdigits : Nat.toDigits 10 j = Nat.toDigits 10 k := List.append_cancel_left h
  rw [← Nat.ofDigitChars_ten_toDigits (n := j), hdigits, Nat.ofDigitChars_ten_toDigits]

/-- The first `count` names are different from each other. -/
theorem Alias.nodup_map_nameOf_range (count : Nat) :
    ((List.range count).map Alias.nameOf).Nodup :=
  List.Nodup.map Alias.nameOf_injective List.nodup_range

namespace Outline

variable {σ : Type}

/-! ## Variants and their payloads -/

/-- The variants of the declaration, in source order. -/
def variantIds (t : Outline σ) : List Nat :=
  (t.children root).filter fun id => t.kind? id == some .variant

/-- The types in the payloads of a variant; a malformed payload holds none. -/
def payloadTypes (t : Outline σ) (variant : Nat) : List TypeText :=
  (((t.children variant).filter fun id => (t.kind? id).any isClause).flatMap t.slotsOf).map Slot.ty

/-- The inline function that is the only payload of a variant. -/
def inlineFunction? (t : Outline σ) (variant : Nat) : Option TypeText :=
  match t.payloadTypes variant with
  | [.function params result source] => some (.function params result source)
  | _ => none

/-- Where a search for direct children succeeds, it finds those that pass, in their order. -/
theorem allDescendants_children {t : Outline σ} {id : Nat} {p : Node σ → Bool} {found : List Nat}
    (h : t.allDescendants id (fun n depth => depth == 1 && p n) = .ok found) :
    found = (t.children id).filter fun child => (t.node? child).any p := by
  cases hreach : t.reaches maxDepth id with
  | true =>
      rw [allDescendants, descendants, searchDown_of_reaches t _ 0 hreach] at h
      cases h
  | false =>
      rw [allDescendants, descendants, searchDown_of_not_reaches t _ 0 hreach] at h
      rw [← walk_children t p 62 id]
      exact (Except.ok.inj h).symm

/-! ## One variant -/

/-- What is known of a variant that was classified, given the aliases before and after it. -/
structure Classified (t : Outline σ) (aliases : List Alias) (variant : Nat) (x : Extracted)
    (aliases' : List Alias) : Prop where
  name_eq : x.name = (t.nameOf? variant).getD []
  payloads_eq : x.payloads = t.payloadTypes variant
  signature_eq : x.signature =
    match x.payloads with
    | [] => .none
    | ty :: _ => .ofType aliases ty
  length_le_one : x.payloads.length ≤ 1
  aliases_eq : aliases' = x.payloads.foldl Alias.register aliases

/-- A signature was given only to a variant with at most one payload. -/
theorem signatureOf_eq_ok {t : Outline σ} {variant : Nat} {aliases : List Alias}
    {slots : List Slot} {s : Signature} (h : t.signatureOf variant aliases slots = .ok s) :
    (slots.length ≤ 1) ∧
      s = match slots.map Slot.ty with
        | [] => .none
        | ty :: _ => .ofType aliases ty := by
  match slots with
  | [] =>
      simp only [signatureOf, Except.ok.injEq] at h
      exact ⟨by simp, h.symm⟩
  | [slot] =>
      cases hname : t.nameOf? variant with
      | none => simp [signatureOf, hname] at h
      | some name =>
          simp only [signatureOf, hname, Except.ok.injEq] at h
          exact ⟨by simp, h.symm⟩
  | _ :: _ :: _ => simp [signatureOf] at h

theorem classified_of_extract {t : Outline σ} {aliases aliases' : List Alias}
    {variant ordinal : Nat} {x : Extracted}
    (h : t.extract aliases variant ordinal = (.ok x, aliases')) :
    t.Classified aliases variant x aliases' := by
  simp only [extract] at h
  cases hfound : t.allDescendants variant fun n depth => depth == 1 && isClause n.kind with
  | error e => simp [hfound] at h
  | ok clauses =>
      have hclauses : clauses = (t.children variant).filter fun id => (t.kind? id).any isClause := by
        simpa [kind?, Option.any_map, Function.comp_def] using
          allDescendants_children (p := fun n => isClause n.kind) hfound
      cases hsig : t.signatureOf variant aliases (clauses.flatMap t.slotsOf) with
      | error e => simp [hfound, hsig] at h
      | ok s =>
          simp only [hfound, hsig, Prod.mk.injEq, Except.ok.injEq] at h
          obtain ⟨hx, haliases⟩ := h
          obtain ⟨hlength, hs⟩ := signatureOf_eq_ok hsig
          subst hx haliases
          refine ⟨rfl, ?_, hs, ?_, ?_⟩
          · simp only [payloadTypes, hclauses]
          · simpa using hlength
          · rw [List.foldl_map]

/-- A classified variant adds the alias of its inline function, if it has one, and nothing else;
the alias has the next number, and the variant is annotated with its name. -/
theorem Classified.aliases_append {t : Outline σ} {aliases aliases' : List Alias} {variant : Nat}
    {x : Extracted} (c : t.Classified aliases variant x aliases') :
    aliases' = aliases ++
        ((t.inlineFunction? variant).map (Alias.mk x.signature.description)).toList ∧
      ∀ ty, t.inlineFunction? variant = some ty →
        x.signature.description = Alias.nameOf aliases.length := by
  obtain ⟨-, hpayloads, hsignature, hlength, haliases⟩ := c
  subst haliases
  rw [hsignature, inlineFunction?, ← hpayloads]
  match x.payloads, hlength with
  | [], _ => simp
  | [.named text], _ => simp [Alias.register]
  | [.other text], _ => simp [Alias.register]
  | [.function params result source], _ =>
      simp [Alias.register, Signature.ofType, Signature.description]

/-! ## A whole run -/

/-- The aliases that a run adds: one for each variant whose only payload is an inline function,
under the name that the variant is annotated with. -/
def addedAliases (t : Outline σ) (variants : List Nat) (xs : List Extracted) : List Alias :=
  (variants.zip xs).filterMap fun (variant, x) =>
    (t.inlineFunction? variant).map (Alias.mk x.signature.description)

/-- Classifying the first variant and then the others. -/
theorem extractEach_cons_eq_ok {t : Outline σ} {aliases aliases' : List Alias} {ordinal id : Nat}
    {ids : List Nat} {ys : List Extracted}
    (h : t.extractEach aliases ordinal (id :: ids) = .ok (ys, aliases')) :
    ∃ x xs between, ys = x :: xs ∧ t.extract aliases id ordinal = (.ok x, between) ∧
      t.extractEach between (ordinal + 1) ids = .ok (xs, aliases') := by
  rw [extractEach] at h
  cases hx : t.extract aliases id ordinal with
  | mk outcome between =>
      cases outcome with
      | error e => simp [hx] at h
      | ok x =>
          cases hrest : t.extractEach between (ordinal + 1) ids with
          | error e => simp [hx, hrest, bind, Except.bind] at h
          | ok found =>
              simp only [hx, hrest, bind, Except.bind, pure, Except.pure, Except.ok.injEq,
                Prod.mk.injEq] at h
              exact ⟨x, found.1, between, h.1.symm, rfl, by rw [hrest, ← h.2]⟩

/-- A run keeps the names of the variants and adds its aliases behind those before it, numbered on
from them. -/
theorem extractEach_eq_ok {t : Outline σ} {aliases aliases' : List Alias} {ordinal : Nat}
    {variants : List Nat} {xs : List Extracted}
    (h : t.extractEach aliases ordinal variants = .ok (xs, aliases')) :
    xs.map Extracted.name = variants.map (fun v => (t.nameOf? v).getD []) ∧
      aliases' = aliases ++ t.addedAliases variants xs ∧
      (t.addedAliases variants xs).map Alias.name =
        (List.range' aliases.length (t.addedAliases variants xs).length).map Alias.nameOf := by
  induction variants generalizing aliases ordinal xs with
  | nil =>
      simp only [extractEach, Except.ok.injEq, Prod.mk.injEq] at h
      obtain ⟨rfl, rfl⟩ := h
      simp [addedAliases]
  | cons variant variants ih =>
      obtain ⟨x, rest, between, rfl, hx, hrest⟩ := extractEach_cons_eq_ok h
      have hclassified := classified_of_extract hx
      obtain ⟨hbetween, hannotated⟩ := hclassified.aliases_append
      obtain ⟨hnames, haliases, hnumbers⟩ := ih hrest
      refine ⟨by simp [hnames, hclassified.name_eq], ?_, ?_⟩
      · rw [haliases, hbetween, List.append_assoc]
        cases hfn : t.inlineFunction? variant <;> simp [addedAliases, hfn]
      · -- The numbers go on behind those that the first variant used up.
        cases hfn : t.inlineFunction? variant with
        | none => simpa [addedAliases, hfn, hbetween] using hnumbers
        | some ty =>
            have hname := hannotated ty hfn
            simp [addedAliases, hfn, hbetween] at hnumbers ⊢
            simp [hname, List.range'_succ, hnumbers]

end Outline

/-! ## The whole plan -/

namespace Outline

variable {σ : Type}

/-- The checks in their order, each with the rejection that ends them. -/
theorem declaration_eq (t : Outline σ) :
    t.declaration =
      if t.kind? root = some (.declaration .sum) then
        match t.firstDescendant? root t.takesName with
        | .error e => .error (.ofSearch e)
        | .ok (some member) => .error (.alreadySimplified member)
        | .ok none =>
          match t.allDescendants root fun n depth => depth == 1 && n.kind == .variant with
          | .error e => .error (.ofSearch e)
          | .ok variants =>
            match t.extractEach [] 0 variants with
            | .error e => .error e
            | .ok (xs, aliases) =>
              if xs.all (·.signature == .none) then .error (.noPayload root)
              else .ok ⟨(t.nameOf? root).getD [], root, xs, aliases⟩
      else .error (.notASum root) := by
  by_cases hkind : t.kind? root = some (.declaration .sum)
  · simp only [declaration, hkind, bne_self_eq_false, Bool.false_eq_true, if_false, if_true]
    cases t.firstDescendant? root t.takesName with
    | error e => rfl
    | ok found =>
        cases found with
        | some member => rfl
        | none =>
            cases t.allDescendants root fun n depth => depth == 1 && n.kind == .variant with
            | error e => rfl
            | ok variants =>
                cases hrun : t.extractEach [] 0 variants with
                | error e => simp only [orReject, hrun, bind, Except.bind]
                | ok found =>
                    simp only [orReject, hrun, bind, Except.bind]
                    split <;> rfl
  · have hbne : (t.kind? root != some (.declaration .sum)) = true := by simpa using hkind
    simp only [declaration, hbne, hkind, if_true, if_false]
    rfl

/-- A declaration that passed all checks holds the run over its variants. -/
theorem declaration_eq_ok {t : Outline σ} {d : Declaration} (h : t.declaration = .ok d) :
    t.extractEach [] 0 t.variantIds = .ok (d.variants, d.aliases) := by
  rw [declaration_eq] at h
  split at h
  · split at h
    · cases h
    · cases h
    · split at h
      · cases h
      · rename_i variants hall
        have hvariants : variants = t.variantIds := by
          rw [allDescendants_children (p := fun n => n.kind == .variant) hall, variantIds]
          congr 1
          funext id
          cases hn : t.node? id <;> simp [kind?, hn]
        subst hvariants
        split at h
        · cases h
        · rename_i hrun
          split at h
          · cases h
          · cases h
            exact hrun
  · cases h

end Outline

/-- Names that can name the variants of one enum are neither empty nor repeated. -/
theorem Declaration.namesUsable_iff (names : List Text) :
    Declaration.namesUsable names = true ↔ (∀ name ∈ names, name ≠ []) ∧ names.Nodup := by
  induction names with
  | nil => simp [namesUsable]
  | cons name names ih => simp [namesUsable, ih]; tauto

/-- A plan is made of the aliases, the tags and the projection, in this order. -/
theorem Declaration.plan_eq_ok_iff (d : Declaration) (decls : List Planned) :
    d.plan = .ok decls ↔
      Declaration.namesUsable (d.variants.map Extracted.name) = true ∧
      decls = d.aliases.map .alias ++
        [.tags ⟨simplifiedName, d.variants.map Declaration.tagVariant⟩,
         .projection ⟨projectionName, simplifiedName, d.variants.map Declaration.arm⟩] := by
  rw [plan]
  split
  · rename_i husable
    rw [Except.ok.injEq, eq_comm, and_iff_right husable]
  · rename_i husable
    simp [husable]

/-- Declarations are planned for an outline that passes all checks. -/
theorem Outline.generate_eq_planned_iff {σ : Type} [Inhabited σ] (t : Outline σ)
    (decls : List Planned) :
    t.generate = .ok (.planned decls) ↔ ∃ d, t.declaration = .ok d ∧ d.plan = .ok decls := by
  rw [generate]
  cases hbind : t.declaration.bind Declaration.plan with
  | error e =>
      have hnever : ¬ ∃ d, t.declaration = .ok d ∧ d.plan = .ok decls := by
        rintro ⟨d, hd, hplan⟩
        rw [hd, Except.bind, hplan] at hbind
        cases hbind
      cases hr : t.report e <;> simp [hr, Except.map, hnever]
  | ok planned =>
      cases hd : t.declaration with
      | error e =>
          rw [hd, Except.bind] at hbind
          cases hbind
      | ok d =>
          rw [hd, Except.bind] at hbind
          simp [hbind]

/-- **A plan keeps variants, tags, arms and aliases in step.** It is a list of aliases followed by
the tags and the projection. Tags and arms are those of the variants of the declaration, in order
and under their names, which are neither empty nor repeated. The aliases are numbered in order, and
they belong in order to the variants whose only payload is an inline function: each has the name
that its variant is annotated with, and the payload as its target. -/
theorem Outline.planned_in_step {σ : Type} [Inhabited σ] (t : Outline σ) (decls : List Planned)
    (h : t.generate = .ok (.planned decls)) :
    ∃ (aliases : List Alias) (tags : TagEnum) (projection : Projection),
      decls = aliases.map .alias ++ [.tags tags, .projection projection] ∧
      t.variantIds.map t.nameOf? = tags.variants.map (fun v => some v.name) ∧
      projection.arms.map (fun a => (a.variant, a.target, a.annotation)) =
        tags.variants.map (fun v => (v.name, v.name, v.annotation)) ∧
      (∀ v ∈ tags.variants, v.name ≠ []) ∧
      (tags.variants.map TagVariant.name).Nodup ∧
      aliases.map Alias.name = (List.range aliases.length).map Alias.nameOf ∧
      (aliases.map Alias.name).Nodup ∧
      aliases = (t.variantIds.zip tags.variants).filterMap fun (variant, v) =>
        (t.inlineFunction? variant).map (Alias.mk v.annotation) := by
  obtain ⟨d, hd, hplan⟩ := (t.generate_eq_planned_iff decls).mp h
  obtain ⟨husable, rfl⟩ := (d.plan_eq_ok_iff decls).mp hplan
  obtain ⟨hnonempty, hnodup⟩ := (Declaration.namesUsable_iff _).mp husable
  obtain ⟨hnames, haliases, hnumbers⟩ := extractEach_eq_ok (declaration_eq_ok hd)
  rw [List.nil_append] at haliases
  rw [← haliases, List.length_nil, ← List.range_eq_range'] at hnumbers
  refine ⟨d.aliases, _, _, rfl, ?_, ?_, ?_, ?_, hnumbers, ?_, ?_⟩
  · -- A variant without a name would have an empty one.
    have hsome : ∀ v ∈ t.variantIds, t.nameOf? v = some ((t.nameOf? v).getD []) := by
      intro v hv
      have hne : (t.nameOf? v).getD [] ≠ [] :=
        hnonempty _ (hnames ▸ List.mem_map_of_mem hv)
      cases hname : t.nameOf? v with
      | none => simp [hname] at hne
      | some name => rfl
    calc t.variantIds.map t.nameOf?
        = (t.variantIds.map fun v => (t.nameOf? v).getD []).map some := by
          rw [List.map_map]
          exact List.map_congr_left hsome
      _ = (d.variants.map Extracted.name).map some := by rw [hnames]
      _ = _ := by simp [Declaration.tagVariant, Function.comp_def]
  · simp [Declaration.arm, Declaration.tagVariant, Function.comp_def]
  · intro v hv
    obtain ⟨x, hx, rfl⟩ := List.mem_map.mp hv
    exact hnonempty _ (List.mem_map_of_mem hx)
  · simpa [Declaration.tagVariant, Function.comp_def] using hnodup
  · rw [hnumbers]
    exact Alias.nodup_map_nameOf_range _
  · conv_lhs => rw [haliases]
    rw [addedAliases, List.zip_map_right, List.filterMap_map]
    rfl

/-- An enum with two inline functions, and between them a payload that lacks its closing bracket, a
nested declaration and a variant without a payload. -/
def callbacks : Outline Unit :=
  [(0, .name, ("Callbacks" : Text)),
    (0, .variant, ([] : Text)), (2, .name, ("Run" : Text)),
    (2, .clause (some .paren) none, []), (4, .slot none (.function [] none "fn(u8)"), []),
    (2, .clause (some .paren) (some .paren), []), (6, .slot none (.function [] none "fn()"), []),
    (0, .nested, []),
    (0, .variant, []), (9, .name, ("Idle" : Text)),
    (0, .variant, []), (11, .name, ("Stop" : Text)),
    (11, .clause (some .brace) (some .brace), []),
    (13, .slot none (.function ["i8"] none "fn(i8)"), [])].foldl
    (fun t (parent, kind, text) => t.push parent kind text ()) (.new (.declaration .sum) [] ())

/-- What is planned for it. -/
def callbacksPlan : List Planned :=
  [.alias ⟨"AnonymousFunc_0", .function [] none "fn()"⟩,
    .alias ⟨"AnonymousFunc_1", .function ["i8"] none "fn(i8)"⟩,
    .tags ⟨"Simplified", [⟨"Run", "AnonymousFunc_0"⟩, ⟨"Idle", " -- has no payload"⟩,
      ⟨"Stop", "AnonymousFunc_1"⟩]⟩,
    .projection ⟨"simplified", "Simplified", [⟨"Run", .tuple, "Run", "AnonymousFunc_0"⟩,
      ⟨"Idle", .unit, "Idle", " -- has no payload"⟩,
      ⟨"Stop", .record, "Stop", "AnonymousFunc_1"⟩]⟩]

theorem callbacks_in_step :
    ∃ (aliases : List Alias) (tags : TagEnum) (projection : Projection),
      callbacksPlan = aliases.map .alias ++ [.tags tags, .projection projection] ∧
      callbacks.variantIds.map callbacks.nameOf? = tags.variants.map (fun v => some v.name) ∧
      aliases.map Alias.name = (List.range aliases.length).map Alias.nameOf := by
  have hplan : callbacks.generate = .ok (.planned callbacksPlan) := rfl
  obtain ⟨aliases, tags, projection, hdecls, hnames, -, -, -, hnumbers, -⟩ :=
    Outline.planned_in_step callbacks callbacksPlan hplan
  exact ⟨aliases, tags, projection, hdecls, hnames, hnumbers⟩

end EnumTags

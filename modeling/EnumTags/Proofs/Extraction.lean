import EnumTags.Proofs.EnumGeneration
import EnumTags.Proofs.Subtrees
import Mathlib.Data.List.Induction

/-!
# Classifying any node

A variant is classified by a search for its payloads, which numbers the inline functions that it
meets before anything is checked. `Outline.Built.extract_exact` says what comes out for any node of
an outline, in terms of the slots that count (`Outline.payloadSlots`): those of the payloads with
matching brackets. They are met in the order of their numbers, so an order by payload and place in
it is the order of the source.
-/

namespace EnumTags

/-! ## What counts -/

/-- What a variant with these slots carries, given the aliases before it. -/
def Signature.ofSlots (aliases : List Alias) : List Slot → Signature
  | [] => .none
  | slot :: _ =>
    if slot.ty.isFunction then .alias (Alias.nameOf aliases.length) else .named slot.ty.text

/-- The place of a slot: first by its payload, then within it. -/
def Slot.before (a b : Slot) : Prop := a.clause < b.clause ∨ a.clause = b.clause ∧ a.node < b.node

namespace Outline

variable {σ : Type}

/-- A payload that has both its brackets, and they match. -/
def isGrouped (t : Outline σ) (id : Nat) : Bool :=
  t.kind? id == some (.clause (some .paren) (some .paren)) ||
    t.kind? id == some (.clause (some .brace) (some .brace))

/-- The slots below a node. -/
def slotsBelow (t : Outline σ) (clause : Nat) : List Slot :=
  (t.children clause).filterMap fun id =>
    match t.kind? id with
    | some (.slot _ ty) => some ⟨clause, id, ty⟩
    | _ => none

/-- The slots that count for a variant: those of its payloads with matching brackets. -/
def payloadSlots (t : Outline σ) (variant : Nat) : List Slot :=
  ((t.children variant).filter t.isGrouped).flatMap t.slotsBelow

/-- The opening bracket of a payload. -/
def opening? (t : Outline σ) (id : Nat) : Option (Option Grouping) :=
  match t.kind? id with
  | some (.clause opened _) => some opened
  | _ => none

/-- The shape of a variant. The last of its payloads decides, whether its brackets match or not. -/
def payloadShape (t : Outline σ) (variant : Nat) : Shape :=
  match ((t.children variant).filterMap t.opening?).getLast? with
  | none => .unit
  | some (some .paren) => .tuple
  | some _ => .record

end Outline

namespace Outline

variable {σ : Type}

/-! ## Slots and shapes -/

theorem isGrouped_clause {t : Outline σ} {id : Nat} {opened closed : Option Grouping}
    (h : t.kind? id = some (.clause opened closed)) :
    t.isGrouped id = wellFormed opened closed := by
  rw [isGrouped, h]
  rcases opened with _ | ⟨_ | _⟩ <;> rcases closed with _ | ⟨_ | _⟩ <;> rfl

theorem slotsOf_eq (t : Outline σ) (clause : Nat) :
    t.slotsOf clause = if t.isGrouped clause then t.slotsBelow clause else [] := by
  cases hkind : t.kind? clause with
  | none => simp [slotsOf, isGrouped, hkind]
  | some kind =>
      cases kind with
      | clause opened closed =>
          simp only [slotsOf, hkind, isGrouped_clause hkind]
          rfl
      | declaration kind => simp [slotsOf, isGrouped, hkind]
      | name => simp [slotsOf, isGrouped, hkind]
      | variant => simp [slotsOf, isGrouped, hkind]
      | slot label ty => simp [slotsOf, isGrouped, hkind]
      | nested => simp [slotsOf, isGrouped, hkind]

theorem isClause_of_isGrouped {t : Outline σ} {id : Nat} (h : t.isGrouped id = true) :
    (t.kind? id).any isClause = true := by
  simp only [isGrouped, Bool.or_eq_true, beq_iff_eq] at h
  rcases h with h | h <;> simp [h, isClause]

/-- The payloads with matching brackets are those that give slots. -/
theorem flatMap_slotsOf (t : Outline σ) (variant : Nat) :
    ((t.children variant).filter fun id => (t.kind? id).any isClause).flatMap t.slotsOf =
      t.payloadSlots variant := by
  rw [payloadSlots]
  induction t.children variant with
  | nil => rfl
  | cons id ids ih =>
      rw [List.filter_cons, List.filter_cons]
      by_cases hgrouped : t.isGrouped id = true
      · rw [if_pos (isClause_of_isGrouped hgrouped), if_pos hgrouped, List.flatMap_cons,
          List.flatMap_cons, ih, slotsOf_eq, if_pos hgrouped]
      · rw [if_neg hgrouped, ← ih]
        split
        · rw [List.flatMap_cons, slotsOf_eq, if_neg hgrouped, List.nil_append]
        · rfl

theorem shapeOf_eq {t : Outline σ} {id : Nat} {opened : Option Grouping}
    (h : t.opening? id = some opened) :
    t.shapeOf id = if opened = some .paren then .tuple else .record := by
  rw [opening?.eq_def] at h
  split at h
  · rename_i hkind
    cases h
    rcases opened with _ | ⟨_ | _⟩ <;> simp [shapeOf, hkind]
  · cases h

theorem isSome_opening? (t : Outline σ) (id : Nat) :
    (t.opening? id).isSome = (t.kind? id).any isClause := by
  rw [opening?.eq_def]
  cases t.kind? id with
  | none => rfl
  | some kind => cases kind <;> rfl

/-- The last payload gives its shape to the variant. -/
theorem shape_eq (t : Outline σ) (variant : Nat) :
    (match ((t.children variant).filter fun id => (t.kind? id).any isClause).getLast? with
      | some clause => t.shapeOf clause
      | none => .unit) = t.payloadShape variant := by
  rw [payloadShape]
  induction t.children variant using List.reverseRecOn with
  | nil => rfl
  | append_singleton ids id ih =>
      have hclause := t.isSome_opening? id
      cases hopening : t.opening? id with
      | none =>
          rw [hopening, Option.isSome_none] at hclause
          simpa [← hclause, hopening] using ih
      | some opened =>
          rw [hopening, Option.isSome_some] at hclause
          simp only [List.filter_append, List.filterMap_append, ← hclause, hopening,
            List.filter_cons_of_pos, List.filter_nil, List.filterMap_cons, List.filterMap_nil,
            List.getLast?_append, List.getLast?_singleton, Option.some_or, shapeOf_eq hopening]
          rcases opened with _ | ⟨_ | _⟩ <;> rfl

/-! ## The order of the slots -/

theorem clause_eq_of_mem_slotsBelow {t : Outline σ} {clause : Nat} {slot : Slot}
    (h : slot ∈ t.slotsBelow clause) : slot.clause = clause := by
  obtain ⟨id, -, hslot⟩ := List.mem_filterMap.mp h
  split at hslot
  · cases hslot
    rfl
  · cases hslot

theorem Linked.pairwise_slotsBelow {t : Outline σ} (h : t.Linked) (clause : Nat) :
    (t.slotsBelow clause).Pairwise Slot.before := by
  refine List.Pairwise.filterMap _ ?_ (h.children_sorted clause)
  intro id id' hlt slot hslot slot' hslot'
  split at hslot
  · split at hslot'
    · cases hslot
      cases hslot'
      exact .inr ⟨rfl, hlt⟩
    · cases hslot'
  · cases hslot

/-- **The slots are met in their order**, since children are listed by their numbers. -/
theorem Linked.pairwise_payloadSlots {t : Outline σ} (h : t.Linked) (variant : Nat) :
    (t.payloadSlots variant).Pairwise Slot.before := by
  refine List.pairwise_flatMap.mpr ⟨fun clause _ => h.pairwise_slotsBelow clause, ?_⟩
  refine ((h.children_sorted variant).filter _).imp ?_
  intro clause clause' hlt slot hslot slot' hslot'
  rw [← clause_eq_of_mem_slotsBelow hslot, ← clause_eq_of_mem_slotsBelow hslot'] at hlt
  exact .inl hlt

/-! ## The outcome -/

/-- What a variant comes to by its slots and its name. -/
theorem signatureOf_eq (t : Outline σ) (variant : Nat) (aliases : List Alias) (slots : List Slot) :
    t.signatureOf variant aliases slots =
      match slots, t.nameOf? variant with
      | _ :: second :: _, name => .error (.severalPayloads (name.getD (t.text variant)) second.node)
      | [slot], none => .error (.unclearName (t.text variant) slot.clause)
      | slots, _ => .ok (.ofSlots aliases slots) := by
  rcases slots with _ | ⟨slot, _ | ⟨second, slots⟩⟩
  · cases t.nameOf? variant <;> rfl
  · cases hname : t.nameOf? variant with
    | none => simp only [signatureOf, hname]
    | some name => simp only [signatureOf, hname, Signature.ofSlots, Signature.ofType_eq]
  · rfl

/-- **What classifying a node comes to.** If something lies too far below it, nothing is classified
and no alias is added. Otherwise the inline functions among its slots get aliases, numbered on from
those before, also where the node is then rejected. It is rejected for its second slot, or for a
slot without a name for the variant; if not, it is described by its slots, at most one, and the
shape of its last payload. The slots are met in the order of their payloads and of their places in
them. -/
theorem Built.extract_exact {t : Outline σ} (h : t.Built) {variant : Nat}
    (hvariant : variant < t.size) (aliases : List Alias) (ordinal : Nat) :
    (t.TooDeep variant → t.extract aliases variant ordinal = (.error .tooDeep, aliases)) ∧
    (¬ t.TooDeep variant →
      t.extract aliases variant ordinal =
        (match t.payloadSlots variant, t.nameOf? variant with
          | _ :: second :: _, name =>
            .error (.severalPayloads (name.getD (t.text variant)) second.node)
          | [slot], none => .error (.unclearName (t.text variant) slot.clause)
          | slots, name => .ok ⟨name.getD [], ordinal, variant, t.payloadShape variant,
              slots.map Slot.ty, .ofSlots aliases slots⟩,
        aliases ++ Alias.numbered aliases.length ((t.payloadSlots variant).map Slot.ty))) ∧
    (t.payloadSlots variant).Pairwise Slot.before := by
  have hl := h.linked
  refine ⟨fun hdeep => ?_, fun hshallow => ?_, hl.pairwise_payloadSlots variant⟩
  · simp only [extract, hl.allDescendants_of_tooDeep hvariant hdeep, Rejection.ofSearch]
  · have hclauses := allDescendants_of_not_reaches (hl.not_reaches_maxDepth hvariant hshallow)
      fun n => isClause n.kind
    have hkind : ∀ id, (t.node? id).any (fun n => isClause n.kind) = (t.kind? id).any isClause := by
      intro id
      cases hn : t.node? id <;> simp [kind?, hn]
    simp only [hkind] at hclauses
    have hregister : (t.payloadSlots variant).foldl (fun as s => Alias.register as s.ty) aliases =
        aliases ++ Alias.numbered aliases.length ((t.payloadSlots variant).map Slot.ty) := by
      rw [← Alias.foldl_register, List.foldl_map]
    simp only [extract, hclauses, flatMap_slotsOf, ← shape_eq, hregister, signatureOf_eq]
    rcases t.payloadSlots variant with _ | ⟨slot, _ | ⟨second, slots⟩⟩
    · cases t.nameOf? variant <;> rfl
    · cases t.nameOf? variant <;> rfl
    · rfl

/-- A variant without a name and with three payloads, of which only the second has matching
brackets. -/
def ragged : Outline Unit :=
  let t := (new (.declaration .sum) [] ()).push 0 .variant "V" ()
  let t := (t.push 1 (.clause (some .paren) none) [] ()).push 2 (.slot none (.named "u8")) [] ()
  let t := (t.push 1 (.clause (some .brace) (some .brace)) [] ()).push 4
    (.slot (some "f") (.function [] none "fn()")) [] ()
  t.push 1 (.clause (some .paren) (some .brace)) [] ()

/-- The alias with number `k` of a function without parameters. -/
def hook (k : Nat) : Alias := ⟨Alias.nameOf k, .function [] none "fn()"⟩

theorem ragged_extract_exact :
    pit.extract [hook 0] root 0 = (.error .tooDeep, [hook 0]) ∧
    ragged.extract [hook 0] 1 3 = (.error (.unclearName "V" 4), [hook 0, hook 1]) ∧
    (ragged.push 1 .name "W" ()).extract [] 1 3 =
      (.ok ⟨"W", 3, 1, .tuple, [(hook 0).target], .alias (Alias.nameOf 0)⟩, [hook 0]) := by
  have hragged : ragged.Built :=
    .push (.push (.push (.push (.push (.push (.new _ _ _) (by decide) _ _ _) (by decide) _ _ _)
      (by decide) _ _ _) (by decide) _ _ _) (by decide) _ _ _) (by decide) _ _ _
  have hnamed : (ragged.push 1 .name "W" ()).Built := hragged.push (by decide) _ _ _
  have hroot : root < pit.size := by rw [size_pit]; decide
  obtain ⟨hdeep, -⟩ := built_pit.extract_exact hroot [hook 0] 0
  obtain ⟨-, hunclear, -⟩ := hragged.extract_exact (show 1 < ragged.size by decide) [hook 0] 3
  obtain ⟨-, hclear, -⟩ :=
    hnamed.extract_exact (show 1 < (ragged.push 1 .name "W" ()).size by decide) [] 3
  refine ⟨hdeep ((built_pit.linked.reaches_maxDepth_iff hroot).mp (by decide +kernel)), ?_, ?_⟩
  · refine (hunclear ?_).trans (by decide)
    rw [← hragged.linked.reaches_maxDepth_iff (by decide)]
    decide
  · refine (hclear ?_).trans (by decide)
    rw [← hnamed.linked.reaches_maxDepth_iff (by decide)]
    decide

end Outline

end EnumTags

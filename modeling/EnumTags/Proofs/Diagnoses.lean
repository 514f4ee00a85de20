import EnumTags.Proofs.EnumGeneration
import EnumTags.Proofs.Links

/-!
# What is wrong with an item, and where

A rejection names nodes of an outline, and where it is reported depends on further searches from
those nodes. Someone who wrote the item sees none of this: the fault lies in a variant, a field or
the item as a whole, and that is where the diagnosis has to stand. `Item.fault?` says which fault it
is, from the item alone, and every diagnosis of an item that was read agrees with it.

## Main definitions

* `Item.fault?`: the fault of an item, if it has one.
* `Fault.place`: where it lies.
-/

namespace EnumTags

/-- What can be wrong with an item. -/
inductive Fault where
  | notAnEnum
  /-- The variant has the name of the enum to be made. -/
  | nameTaken (v : Variant)
  /-- The variant has a second field. -/
  | severalFields (v : Variant) (second : Field)
  /-- No variant has a field. -/
  | noField
  /-- Two variants of the enum have the same name. -/
  | nameRepeated (e : EnumItem)

namespace Fault

/-- Where a fault lies, in an item that takes up `whole`. -/
def place (whole : Span) : Fault → Span
  | nameTaken v => v.name.span
  | severalFields _ second => second.span
  | notAnEnum | noField | nameRepeated _ => whole

/-- Whether a rejection is for this fault. -/
def explains : Fault → Rejection → Bool
  | notAnEnum, .notASum decl => decl == Outline.root
  | nameTaken _, .alreadySimplified _ => true
  | severalFields v _, .severalPayloads name _ => name == v.name.ident.text
  | noField, .noPayload decl => decl == Outline.root
  | nameRepeated e, .synthesisFailed name => name == e.name.ident.text
  | _, _ => false

theorem explains_unclearName (fault : Fault) (raw : Text) (node : Nat) :
    fault.explains (.unclearName raw node) = false := by
  cases fault <;> rfl

end Fault

/-- Whether a variant has the name of the enum to be made. -/
def Variant.takesName (v : Variant) : Bool := v.name.ident.text == simplifiedName

/-- The fault of a variant with several fields. -/
def Variant.crowded? (v : Variant) : Option Fault :=
  match v.fields.items with
  | _ :: second :: _ => some (.severalFields v second)
  | _ => none

/-- The fault of an enum: the first variant that takes a name comes before the first with several
fields, that before the lack of any field, and a repeated name comes last. -/
def EnumItem.fault? (e : EnumItem) : Option Fault :=
  match e.variants.items.find? Variant.takesName with
  | some v => some (.nameTaken v)
  | none =>
    match e.variants.items.findSome? Variant.crowded? with
    | some fault => some fault
    | none =>
      if e.variants.items.all fun v => v.fields.items.isEmpty then some .noField
      else if (e.variants.items.map fun v => v.name.ident.text).Nodup then none
      else some (.nameRepeated e)

/-- The fault of an item. -/
def Item.fault? : Item → Option Fault
  | .enum e => e.fault?
  | _ => some .notAnEnum

/-! ## The place of an item -/

namespace Parser

variable {α β : Type}

theorem exists_of_bind_eq_ok {p : Parser α} {f : α → Parser β} {c : Cursor} {r : β × Cursor}
    (h : (p >>= f) c = .ok r) : ∃ a c', p c = .ok (a, c') ∧ f a c' = .ok r := by
  cases hp : p c with
  | error e =>
      simp only [bind, StateT.bind, hp, Except.bind] at h
      cases h
  | ok x => exact ⟨x.1, x.2, rfl, by simpa only [bind, StateT.bind, hp, Except.bind] using h⟩

/-- What a parser has read is what is no longer left. -/
theorem withSource_eq_ok {p : Parser α} {c c' : Cursor} {x : α × List Lexeme}
    (h : withSource p c = .ok (x, c')) :
    x.2 = c.rest.take (c.rest.length - c'.rest.length) := by
  rw [withSource] at h
  obtain ⟨before, c₁, hbefore, h⟩ := exists_of_bind_eq_ok h
  obtain ⟨a, c₂, -, h⟩ := exists_of_bind_eq_ok h
  obtain ⟨after, c₃, hafter, h⟩ := exists_of_bind_eq_ok h
  cases hbefore
  cases hafter
  cases h
  rfl

/-- A parser that was run to the end has read everything. -/
theorem run_eq_ok {p : Parser α} {ls : List Lexeme} {a : α} (h : run p ls = .ok a) :
    p ⟨ls, none⟩ = .ok (a, ⟨[], none⟩) := by
  rw [run] at h
  cases hp : p ⟨ls, none⟩ with
  | error e =>
      rw [hp] at h
      cases h
  | ok x =>
      obtain ⟨a', rest, spill⟩ := x
      rw [hp] at h
      match spill, rest with
      | some d, _ => cases h
      | none, l :: rest => cases h
      | none, [] =>
          cases h
          rfl

end Parser

theorem Rules.Draft.span_place (d : Draft) (source : List Lexeme) :
    (d.place source).plain.span = Span.ofLexemes source := by
  cases d <;> rfl

/-- An item takes up all that it was read from. -/
theorem Item.span_of_read {ls : List Lexeme} {item : Item} (h : Item.read ls = .ok item) :
    item.plain.span = Span.ofLexemes ls := by
  have hrun := Parser.run_eq_ok h
  rw [Rules.anyItem] at hrun
  obtain ⟨⟨draft, source⟩, c, hsource, hplace⟩ := Parser.exists_of_bind_eq_ok hrun
  cases hplace
  obtain rfl := Parser.withSource_eq_ok hsource
  rw [Rules.Draft.span_place]
  simp

/-! ## Reports -/

namespace Outline

/-- One diagnosis is made, for this fault and at this place. -/
def Diagnosed (t : Outline Span) (fault : Fault) (place : Span) : Prop :=
  ∃ d, t.generate = .ok (.diagnosed [d]) ∧ fault.explains d.cause = true ∧ d.span = place

theorem diagnosed_of_error {t : Outline Span} {e : Rejection} {fault : Fault} {place : Span}
    (h : t.declaration.bind Declaration.plan = .error e) (hfault : fault.explains e = true)
    (hplace : (t.diagnose e).span = place) : t.Diagnosed fault place := by
  have hcause : (t.diagnose e).cause = e := by cases e <;> rfl
  have hreport : t.report e = .ok [t.diagnose e] := by
    cases e with
    | tooDeep => cases fault <;> cases hfault
    | _ => rfl
  refine ⟨t.diagnose e, ?_, by rw [hcause, hfault], hplace⟩
  rw [generate, h]
  simp only [hreport, Except.map]

theorem spanOf_eq_of_node? {t : Outline Span} {id : Nat} {n : Node Span}
    (h : t.node? id = some n) : t.spanOf id = n.span := by
  simp only [spanOf, h]

theorem span_rename_eq (t : Outline Span) (member : Nat) :
    (t.rename member).span = t.spanOf ((found? (t.firstDescendant? member fun n depth =>
      depth == 1 && n.kind == .name)).getD member) :=
  rfl

/-- A member of an enum is reported at its name. -/
theorem HasVariant.span_rename {t : Outline Span} {start : Nat} {v : Variant}
    (h : t.HasVariant start v) : (t.rename start).span = v.name.span := by
  have hle : 3 ≤ maxDepth := by decide
  have hname : ((t.node? (start + 1)).any fun n => n.kind == .name) = true := by
    rw [h.node?_name]
    rfl
  have hfirst : t.firstDescendant? start (fun n depth => depth == 1 && n.kind == .name) =
      .ok (some (start + 1)) := by
    rw [firstDescendant?_of_not_reaches (reaches_of_le hle h.reaches_three) (·.kind == .name),
      children_eq_of_node? h.node?_variant]
    simp only [List.find?_cons, hname]
  rw [span_rename_eq, hfirst, found?, Option.getD_some, spanOf_eq_of_node? h.node?_name]

/-! ## Items other than enums -/

/-- The root is a declaration of this kind and takes up this place. -/
def HasRoot (t : Outline Span) (kind : DeclKind) (place : Span) : Prop :=
  ∃ n, t.node? root = some n ∧ n.kind = .declaration kind ∧ n.span = place

theorem HasRoot.push {t : Outline Span} {kind : DeclKind} {place : Span} (h : t.HasRoot kind place)
    (parent : Nat) (k : NodeKind) (text : Text) (span : Span) :
    (t.push parent k text span).HasRoot kind place := by
  obtain ⟨n, hn, hkind, hspan⟩ := h
  have hsize : root ≠ t.size := Nat.ne_of_lt (lt_size_of_node? hn)
  rw [HasRoot, node?_push, if_neg hsize, hn]
  split
  · exact ⟨_, rfl, hkind, hspan⟩
  · exact ⟨n, rfl, hkind, hspan⟩

theorem hasRoot_ofPlain (kind : DeclKind) (p : Plain) : (ofPlain kind p).HasRoot kind p.span := by
  have hnew : (new (.declaration kind) p.tokens.compact p.span).HasRoot kind p.span :=
    ⟨_, rfl, rfl, rfl⟩
  rw [ofPlain]
  split
  · exact hnew.push _ _ _ _
  · exact hnew

theorem HasRoot.pushNested {t : Outline Span} {kind : DeclKind} {place : Span}
    (h : t.HasRoot kind place) (p : Plain) : (t.pushNested p).HasRoot kind place := by
  have hnested := h.push root .nested p.tokens.compact p.span
  rw [Outline.pushNested]
  split
  · exact hnested.push _ _ _ _
  · exact hnested

theorem HasRoot.foldl_pushNested {t : Outline Span} {kind : DeclKind} {place : Span}
    (h : t.HasRoot kind place) (items : List Plain) :
    (items.foldl Outline.pushNested t).HasRoot kind place := by
  induction items generalizing t with
  | nil => exact h
  | cons p items ih => exact ih (h.pushNested p)

/-- What is no enum is reported as that, at the place of its root. -/
theorem HasRoot.diagnosed {t : Outline Span} {kind : DeclKind} {place : Span}
    (h : t.HasRoot kind place) (hkind : kind ≠ .sum) : t.Diagnosed .notAnEnum place := by
  obtain ⟨n, hn, hdecl, rfl⟩ := h
  have hroot : t.kind? root ≠ some (.declaration .sum) := by
    rw [kind?_eq_of_node? hn, hdecl]
    simpa using hkind
  have herror : t.declaration.bind Declaration.plan = .error (.notASum root) := by
    rw [declaration_eq, if_neg hroot]
    rfl
  exact diagnosed_of_error herror rfl (spanOf_eq_of_node? hn)

/-! ## Enums -/

theorem find?_eq_map_find?_variantsFrom (start : Nat) (vs : List Variant) (p : Variant → Bool) :
    vs.find? p = ((variantsFrom start vs).find? fun q => p q.2).map Prod.snd := by
  conv_lhs => rw [← map_snd_variantsFrom start vs]
  rw [List.find?_map]
  rfl

theorem findSome?_eq_bind_find? {α β : Type} (f : α → Option β) (xs : List α) :
    xs.findSome? f = (xs.find? fun x => (f x).isSome).bind f := by
  induction xs with
  | nil => rfl
  | cons x xs ih =>
      rw [List.findSome?_cons, List.find?_cons]
      cases hx : f x with
      | none => simpa using ih
      | some b => simp [hx]

/-- A variant with several fields is one that has a second. -/
theorem isSome_crowded? (v : Variant) : v.crowded?.isSome = decide (1 < v.fields.items.length) := by
  rw [Variant.crowded?]
  match v.fields.items with
  | [] | [_] => rfl
  | _ :: _ :: rest => simp

theorem exists_second {v : Variant} (h : 1 < v.fields.items.length) :
    ∃ second, v.fields.items[1]? = some second ∧ v.crowded? = some (.severalFields v second) := by
  rw [Variant.crowded?]
  match v.fields.items, h with
  | _ :: second :: _, _ => exact ⟨second, rfl, rfl⟩

theorem namesUsable_extracted (e : EnumItem) :
    Declaration.namesUsable
        ((extractedFrom [] 0 (variantsFrom 2 e.variants.items)).map Extracted.name) = true ↔
      (e.variants.items.map fun v => v.name.ident.text).Nodup := by
  rw [map_name_extractedFrom, map_snd_variantsFrom, namesUsable_variants]

/-- **What is made of an enum** depends on its fault alone. -/
theorem generate_ofEnum (e : EnumItem) :
    match e.fault? with
    | some fault => (ofEnum e).Diagnosed fault (fault.place e.span)
    | none => (ofEnum e).generate = .ok (.planned e.planned) := by
  have hvariant := hasVariant_ofEnum e
  have hchecks := declaration_ofEnum e
  have hroot := spanOf_eq_of_node? (node?_root_ofEnum e)
  rw [EnumItem.fault?, findSome?_eq_bind_find?,
    find?_eq_map_find?_variantsFrom 2 _ Variant.takesName,
    find?_eq_map_find?_variantsFrom 2 _ fun v => v.crowded?.isSome]
  simp only [isSome_crowded?, Variant.takesName]
  cases htaken : (variantsFrom 2 e.variants.items).find? fun p =>
      p.2.name.ident.text == simplifiedName with
  | some taken =>
      have herror : (ofEnum e).declaration.bind Declaration.plan =
          .error (.alreadySimplified taken.1) := by
        rw [hchecks, htaken]
        rfl
      have hmem := List.mem_of_find?_eq_some htaken
      exact diagnosed_of_error herror rfl (hvariant taken hmem).span_rename
  | none =>
      rw [htaken] at hchecks
      cases hcrowded : (variantsFrom 2 e.variants.items).find? fun p =>
          1 < p.2.fields.items.length with
      | some crowded =>
          have hseveral : 1 < crowded.2.fields.items.length := by
            simpa using List.find?_some hcrowded
          obtain ⟨second, hsecond, hfault⟩ := exists_second hseveral
          have herror : (ofEnum e).declaration.bind Declaration.plan =
              .error (.severalPayloads crowded.2.name.ident.text (crowded.1 + 4)) := by
            rw [hchecks, hcrowded]
            rfl
          have hmem := List.mem_of_find?_eq_some hcrowded
          have hslot := (hvariant crowded hmem).node?_slot hsecond
          simp only [Option.map_none, Option.map_some, Option.bind_some, hfault]
          exact diagnosed_of_error herror (beq_self_eq_true _) (spanOf_eq_of_node? hslot)
      | none =>
          rw [hcrowded] at hchecks
          simp only [Option.map_none, Option.bind_none]
          by_cases hbare : (e.variants.items.all fun v => v.fields.items.isEmpty) = true
          · have herror : (ofEnum e).declaration.bind Declaration.plan =
                .error (.noPayload root) := by
              simp only [hchecks, hbare]
              rfl
            rw [if_pos hbare]
            exact diagnosed_of_error herror rfl hroot
          · have husable := namesUsable_extracted e
            simp only [hbare] at hchecks
            rw [if_neg hbare]
            by_cases hdistinct : (e.variants.items.map fun v => v.name.ident.text).Nodup
            · rw [if_pos hdistinct]
              refine (generate_eq_planned_iff _ _).mpr ⟨_, hchecks, ?_⟩
              refine (Declaration.plan_eq_ok_iff _ _).mpr ⟨husable.mpr hdistinct, ?_⟩
              simp only [map_tagVariant_extractedFrom, map_arm_extractedFrom, map_snd_variantsFrom,
                EnumItem.planned]
            · have herror : (ofEnum e).declaration.bind Declaration.plan =
                  .error (.synthesisFailed e.name.ident.text) := by
                rw [hchecks]
                exact if_neg (husable.not.mpr hdistinct)
              rw [if_neg hdistinct]
              exact diagnosed_of_error herror (beq_self_eq_true _) hroot

/-- What is made of an item depends on its fault alone. -/
theorem generate_ofItem (item : Item) :
    match item.fault? with
    | some fault => (ofItem item).Diagnosed fault (fault.place item.plain.span)
    | none => ∃ e, item = .enum e ∧ (ofItem item).generate = .ok (.planned e.planned) := by
  cases item with
  | enum e =>
      have hmade := generate_ofEnum e
      rw [Item.fault?]
      cases hfault : e.fault? with
      | some fault =>
          rw [hfault] at hmade
          exact hmade
      | none =>
          rw [hfault] at hmade
          exact ⟨e, rfl, hmade⟩
  | product p => exact (hasRoot_ofPlain .product p).diagnosed (by decide)
  | module p items => exact ((hasRoot_ofPlain .other p).foldl_pushNested items).diagnosed (by decide)
  | other p => exact (hasRoot_ofPlain .other p).diagnosed (by decide)

end Outline

/-- **What is made of an item that was read** depends on its fault alone. An item with a fault gets
one diagnosis, of that fault and at its place in the source; an enum without one gets its
declarations. The outline of an item is never malformed, and no variant of it lacks a name. -/
theorem Item.generate_of_read {ls : List Lexeme} {item : Item} (h : Item.read ls = .ok item) :
    (match item.fault? with
      | some fault => (Outline.ofItem item).Diagnosed fault (fault.place (Span.ofLexemes ls))
      | none => ∃ e, item = .enum e ∧ (Outline.ofItem item).generate = .ok (.planned e.planned)) ∧
    (∀ m, (Outline.ofItem item).generate ≠ .error m) ∧
    ∀ ds, (Outline.ofItem item).generate = .ok (.diagnosed ds) →
      ∀ d ∈ ds, ∀ raw node, d.cause ≠ .unclearName raw node := by
  have hmade := Outline.generate_ofItem item
  rw [Item.span_of_read h] at hmade
  refine ⟨hmade, ?_⟩
  cases hfault : item.fault? with
  | some fault =>
      rw [hfault] at hmade
      obtain ⟨d, hd, hexplains, -⟩ := hmade
      rw [hd]
      refine ⟨by simp, fun ds hds d' hd' raw node hcause => ?_⟩
      cases hds
      rw [← List.mem_singleton.mp hd', hcause, Fault.explains_unclearName] at hexplains
      cases hexplains
  | none =>
      rw [hfault] at hmade
      obtain ⟨e, -, hplanned⟩ := hmade
      rw [hplanned]
      exact ⟨by simp, by simp⟩

/-- An enum with two faults. -/
def doubtful : List Lexeme := (lex? "enum E { A(u8, u8), Simplified }").getD []

/-- It is diagnosed at the name of its second variant. -/
theorem doubtful_diagnosed : ∃ item d, Item.read doubtful = .ok item ∧
    (Outline.ofItem item).generate = .ok (.diagnosed [d]) ∧ d.span = ⟨⟨1, 20⟩, ⟨1, 30⟩⟩ := by
  have hplace : ((Item.read doubtful).toOption.bind Item.fault?).map
      (Fault.place (Span.ofLexemes doubtful)) = some ⟨⟨1, 20⟩, ⟨1, 30⟩⟩ := by
    decide +kernel
  cases hread : Item.read doubtful with
  | error e =>
      rw [hread] at hplace
      cases hplace
  | ok item =>
      obtain ⟨hmade, -, -⟩ := Item.generate_of_read hread
      rw [hread] at hplace
      cases hfault : item.fault? with
      | none => simp [Except.toOption, hfault] at hplace
      | some fault =>
          rw [hfault] at hmade
          obtain ⟨d, hd, -, hspan⟩ := hmade
          simp only [Except.toOption, Option.bind_some, hfault, Option.map_some,
            Option.some.injEq] at hplace
          exact ⟨item, d, rfl, hd, hspan.trans hplace⟩

end EnumTags

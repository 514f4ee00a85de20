import EnumTags.Proofs.AliasTargets
import EnumTags.Proofs.Mirror
import EnumTags.Proofs.ModuleNames

/-!
# Names that clash

A variant must not have the name of the enum to be made, nor that of one of its associated items.
Both are checked on the text of the name, and in the text of a raw identifier the raw mark comes
first. So the checks see every such name that is written plainly, and none that is written raw,
although the two are the same name.

The names that are generated beside the enum are not checked. Its module has the name of the enum
itself where that is in snake case already, and what the arguments ask for is taken as it is.

## Main results

* `Ident.text_mem_forbiddenNames_iff`: the names that the checks see.
* `forall_not_mem_forbiddenNames_iff`: when no variant has such a name.
* `clashes_of_expand_iff`: when the module has the name of the enum, and when the projection has the
  name of the comparison.
-/

namespace EnumTags

/-- The names that no variant should have: that of the enum to be made, and those of its associated
items. -/
def forbiddenNames : List Text := simplifiedName :: reservedNames

/-- The text of a name is a forbidden one exactly if the name is, and has no raw mark. -/
theorem Ident.text_mem_forbiddenNames_iff (i : Ident) :
    i.text ∈ forbiddenNames ↔ i.raw = false ∧ i.name ∈ forbiddenNames := by
  have hmark : ∀ name ∈ forbiddenNames, '#' ∉ name := by decide
  cases hraw : i.raw with
  | false => simp [text, hraw]
  | true =>
      have hmem : '#' ∈ i.text := by simp [text, hraw]
      exact iff_of_false (fun h => hmark i.text h hmem) (by simp)

/-- An enum that is accepted has no variant whose name has the text of a forbidden one. -/
theorem EnumItem.Accepted.text_not_mem_forbiddenNames {e : EnumItem} {o : Options}
    (h : e.Accepted o) {v : Variant} (hv : v ∈ e.variants.items) :
    v.name.ident.text ∉ forbiddenNames := by
  rw [forbiddenNames, List.mem_cons, not_or]
  exact ⟨h.untaken v hv, h.free v hv⟩

/-- **A forbidden name gets through only as a raw one.** Of the variants behind what was generated,
none has a forbidden name exactly if no raw identifier among their names does. The enum without
payloads has just their identifiers, and calls each by its name without the raw mark. -/
theorem forall_not_mem_forbiddenNames_iff {arguments item : List Lexeme} {m : Emission}
    (h : (expand arguments item).emission? = some m) :
    ((∀ v ∈ m.item.variants.items, v.name.ident.name ∉ forbiddenNames) ↔
      ∀ v ∈ m.item.variants.items, v.name.ident.raw = true →
        v.name.ident.name ∉ forbiddenNames) ∧
    ∃ tags, m.tags = some tags ∧ tags.variants.map (fun c => (c.ident, c.label)) =
      m.item.variants.items.map fun v => (v.name.ident, v.name.ident.name) := by
  obtain ⟨e, o, decls, hplan, hemit⟩ := exists_emit_of_expand h
  have haccepted : e.Accepted o := (exists_emit_iff e o).mp ⟨decls, m, hplan, hemit⟩
  obtain ⟨-, rfl⟩ := (generate_ofEnum_eq_planned e decls).mp hplan
  obtain ⟨module, -, -, -, rfl⟩ := (emit_planned_eq_ok_iff e o m).mp hemit
  refine ⟨⟨fun hnone v hv _ => hnone v hv, fun hnone v hv hmem => ?_⟩, e.tagEnumCode, rfl, ?_⟩
  · cases hraw : v.name.ident.raw with
    | true => exact hnone v hv hraw hmem
    | false =>
        refine haccepted.text_not_mem_forbiddenNames hv ?_
        exact v.name.ident.text_mem_forbiddenNames_iff.mpr ⟨hraw, hmem⟩
  · exact map_variants_tagEnumCode e Prod.mk

/-- A raw name that is not forbidden does no harm. -/
theorem raw_name_unforbidden :
    ∃ ls m, lex? "enum E \x7b r#in(u8), All \x7d" = some ls ∧
      (expand [] ls).emission? = some m ∧
      ∀ v ∈ m.item.variants.items, v.name.ident.name ∉ forbiddenNames := by
  have hcomputed : ((lex? "enum E \x7b r#in(u8), All \x7d").bind
      fun ls => (expand [] ls).emission?).any (fun m => m.item.variants.items.all fun v =>
        !v.name.ident.raw || v.name.ident.name == "in") = true := by
    decide +kernel
  obtain ⟨m, hm, hraw⟩ := (Option.any_eq_true _ _).mp hcomputed
  obtain ⟨ls, hls, hemission⟩ := Option.bind_eq_some_iff.mp hm
  refine ⟨ls, m, hls, hemission, (forall_not_mem_forbiddenNames_iff hemission).1.mpr ?_⟩
  intro v hv hmark
  have hname := List.all_eq_true.mp hraw v hv
  rw [hmark, Bool.not_true, Bool.false_or, beq_iff_eq] at hname
  rw [hname]
  decide

/-- The variant `r#ALL` gets through, beside the associated item of that name. -/
theorem raw_name_forbidden :
    ((lex? "enum E \x7b r#ALL(u8) \x7d").bind fun ls => (expand [] ls).emission?).any
      (fun m => m.item.variants.items.any fun v =>
        forbiddenNames.contains v.name.ident.name) = true := by
  decide +kernel

/-! ## Names beside the enum -/

/-- The name of the method that compares variants. -/
def comparisonName : Text := "is_same_variant"

/-- The name of the module, raw mark apart. -/
theorem EnumItem.name_of_moduleFor {e : EnumItem} {o : Options} {module : Ident}
    (h : e.moduleFor o = .ok module) :
    module.name = match o.module with
      | some asked => asked.name
      | none => Text.snakeCase e.name.ident.name := by
  cases hm : o.module with
  | some asked =>
      simp only [moduleFor, hm, Except.ok.injEq] at h
      rw [h]
  | none =>
      simp only [moduleFor, hm] at h
      exact Ident.name_of_moduleName h

/-- **When generated names clash.** The module has the name of the enum exactly if the arguments ask
for it, or ask for nothing and the name of the enum is its own snake case. The projection has the
name of the comparison beside it exactly if the arguments ask for it. Raw marks make no difference
to a name. -/
theorem clashes_of_expand_iff {arguments item : List Lexeme} {o : Options} {m : Emission}
    (ho : Options.read arguments = .ok o) (h : (expand arguments item).emission? = some m) :
    (m.module.name = m.item.name.ident.name ↔
      match o.module with
      | some asked => asked.name = m.item.name.ident.name
      | none => Text.isSnake m.item.name.ident.name = true) ∧
    ∃ p, m.projection = some p ∧ (p.method.name = comparisonName ↔
      ∃ asked, o.method = some asked ∧ asked.name = comparisonName) := by
  obtain ⟨e, o', decls, ho', -, hplan, hemit⟩ := exists_read_of_expand h
  rw [ho] at ho'
  obtain rfl := Except.ok.inj ho'
  obtain ⟨-, rfl⟩ := (generate_ofEnum_eq_planned e decls).mp hplan
  obtain ⟨module, hmodule, -, -, rfl⟩ := (emit_planned_eq_ok_iff e o m).mp hemit
  refine ⟨?_, e.projectionCode o, rfl, ?_⟩
  · change module.name = e.name.ident.name ↔ _
    rw [EnumItem.name_of_moduleFor hmodule]
    cases o.module with
    | some asked => exact Iff.rfl
    | none => exact Text.snakeCase_eq_self_iff e.name.ident.name
  · have hdefault : (Ident.plain projectionName).name ≠ comparisonName := by decide
    change (o.method.getD (.plain projectionName)).name = comparisonName ↔ _
    cases o.method with
    | some asked => simp
    | none => simp [hdefault]

/-- Nothing clashes for an enum with a capital in its name, if its projection gets another name than
the comparison. -/
theorem capital_enum_apart :
    ∃ as o ls m, lex? "method = kind" = some as ∧ Options.read as = .ok o ∧
      lex? "enum Shape \x7b Round(u8), Flat \x7d" = some ls ∧ (expand as ls).emission? = some m ∧
      m.module.name ≠ m.item.name.ident.name ∧
      ∃ p, m.projection = some p ∧ p.method.name ≠ comparisonName := by
  have hcomputed : ((lex? "method = kind").bind fun as =>
      (lex? "enum Shape \x7b Round(u8), Flat \x7d").bind fun ls =>
        (expand as ls).emission?.map fun m => (as, m)).any (fun r =>
          (Options.read r.1).toOption == some ⟨none, some (.plain "kind")⟩ &&
            r.2.item.name.ident.name == "Shape".toList) = true := by
    decide +kernel
  obtain ⟨⟨as, m⟩, hfound, hfacts⟩ := (Option.any_eq_true _ _).mp hcomputed
  obtain ⟨as, has, hfound⟩ := Option.bind_eq_some_iff.mp hfound
  obtain ⟨ls, hls, hfound⟩ := Option.bind_eq_some_iff.mp hfound
  obtain ⟨m, hemission, hpair⟩ := Option.map_eq_some_iff.mp hfound
  obtain ⟨rfl, rfl⟩ := Prod.mk.inj hpair
  rw [Bool.and_eq_true, beq_iff_eq, beq_iff_eq] at hfacts
  obtain ⟨hread, hname⟩ := hfacts
  have ho : Options.read as = .ok ⟨none, some (.plain "kind")⟩ := by
    cases hresult : Options.read as with
    | error e =>
        rw [hresult] at hread
        cases hread
    | ok o =>
        rw [hresult] at hread
        rw [Option.some.inj hread]
  obtain ⟨hmodule, p, hp, hmethod⟩ := clashes_of_expand_iff ho hemission
  refine ⟨as, _, ls, m, has, ho, hls, hemission, ?_, p, hp, ?_⟩
  · rw [ne_eq, hmodule, hname]
    decide
  · rw [ne_eq, hmethod]
    rintro ⟨asked, hasked, hclash⟩
    obtain rfl := Option.some.inj hasked
    exact absurd hclash (by decide)

/-- The enum `e` stands beside a module `e`, and a projection can be given the name of the
comparison. -/
theorem snake_enum_clashes :
    ((lex? "enum e { A(u8) }").bind fun ls => (expand [] ls).emission?).any
      (fun m => m.module.name == m.item.name.ident.name) = true ∧
    ((lex? "method = is_same_variant").bind fun as =>
        (lex? "enum E { A(u8) }").bind fun ls => (expand as ls).emission?).any
      (fun m => m.projection.any fun p => p.method.name == comparisonName) = true := by
  decide +kernel

end EnumTags

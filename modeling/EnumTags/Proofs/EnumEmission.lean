import EnumTags.Proofs.EnumGeneration
import EnumTags.Proofs.Names

/-!
# What is generated for an enum

The declarations planned for an enum are turned into identifiers and types again. Names always find
their way back, so only three things can stop it: the module has no name, a variant has the name of
an associated item, or the text of an inline function cannot be read as a type. Otherwise all parts
are there, and each of them lists the variants of the enum in their order.

## Main definitions

* `EnumItem.moduleFor`: the name of the module, or why there is none.
* `Variant.note`: what is noted at a variant.
* `EnumItem.emission`: what is generated when nothing stops it.
-/

namespace EnumTags

/-! ## Results -/

theorem bind_eq_ok_iff {ε α β : Type} (x : Except ε α) (f : α → Except ε β) (b : β) :
    (x >>= f) = .ok b ↔ ∃ a, x = .ok a ∧ f a = .ok b := by
  cases x <;> simp [bind, Except.bind]

/-- A list of results is a result if all of them are. -/
theorem mapM_eq_ok_iff {ε α β : Type} (f : α → Except ε β) (xs : List α) (ys : List β) :
    xs.mapM f = .ok ys ↔
      (∀ x ∈ xs, (f x).toOption.isSome) ∧ ys = xs.filterMap fun x => (f x).toOption := by
  induction xs generalizing ys with
  | nil =>
      simp only [List.mapM_nil, pure, Except.pure, Except.ok.injEq, List.not_mem_nil, false_implies,
        implies_true, true_and, List.filterMap_nil]
      exact eq_comm
  | cons x xs ih =>
      rw [List.mapM_cons]
      cases hx : f x with
      | error e => simp [bind, Except.bind, hx, Except.toOption]
      | ok y =>
          have hhead : (f x).toOption = some y := by rw [hx, Except.toOption]
          cases hxs : xs.mapM f with
          | error e =>
              have hnone : ¬ ∀ x ∈ xs, (f x).toOption.isSome := fun hall => by
                have hok := (ih _).mpr ⟨hall, rfl⟩
                rw [hxs] at hok
                cases hok
              simp only [bind, Except.bind, List.forall_mem_cons, hnone, and_false, false_and,
                reduceCtorEq]
          | ok rest =>
              obtain ⟨hall, hrest⟩ := (ih rest).mp hxs
              have hlist : ((x :: xs).filterMap fun x => (f x).toOption) = y :: rest := by
                simp [hhead, hrest]
              simp only [bind, Except.bind, pure, Except.pure, Except.ok.injEq,
                List.forall_mem_cons, hhead, Option.isSome_some, true_and, hlist]
              exact ⟨fun h => ⟨hall, h.symm⟩, fun h => h.2.symm⟩

/-! ## Notes -/

/-- What is noted at a variant behind `count` inline functions. -/
def Variant.note (count : Nat) (v : Variant) : Text :=
  match v.fields.items with
  | [] => "-- has no payload"
  | f :: _ =>
    if f.ty.peeled.isFunction then Alias.nameOf count else Text.trim f.ty.peeled.tokens.compact

/-- The notes at the variants, in order. -/
def payloadNotes (vs : List Variant) : List Text :=
  vs.zipIdx.map fun (v, i) => v.note (inlineFunctions (vs.take i)).length

theorem Alias.trim_nameOf (k : Nat) : Text.trim (nameOf k) = nameOf k := by
  refine Text.trim_eq_self fun c hc => Text.not_isBlank_of_isWordChar ?_
  have hword : Text.isWord (nameOf k) = true := (Bool.and_eq_true_iff.mp (ident k).spelled).1
  exact Text.isWordChar_of_mem_isWord hword hc

theorem trim_description_signature (aliases : List Alias) (v : Variant) :
    Text.trim (v.fields.signature aliases).description = v.note aliases.length := by
  cases hitems : v.fields.items with
  | nil =>
      have hnote : Text.trim noPayloadNote = "-- has no payload".toList := by decide
      rw [Fields.signature, Variant.note, hitems]
      exact hnote
  | cons f fs =>
      rw [Fields.signature, Variant.note, hitems]
      simp only [Ty.ofType_classify]
      split
      · exact Alias.trim_nameOf aliases.length
      · rfl

/-- The variant at a place carries what the aliases of the variants before it make of it. -/
theorem getElem?_signedFrom (aliases : List Alias) (vs : List Variant) (i : Nat) :
    (signedFrom aliases vs)[i]? =
      vs[i]?.map fun v => (v, v.fields.signature (Outline.registeredFrom aliases (vs.take i))) := by
  induction vs generalizing aliases i with
  | nil => simp [signedFrom]
  | cons v vs ih =>
      cases i with
      | zero => simp [signedFrom, Outline.registeredFrom]
      | succ i => simp [signedFrom, ih, Outline.registeredFrom]

theorem map_fst_signedFrom (aliases : List Alias) (vs : List Variant) :
    (signedFrom aliases vs).map Prod.fst = vs := by
  induction vs generalizing aliases with
  | nil => rfl
  | cons v vs ih => rw [signedFrom, List.map_cons, ih]

theorem map_note_signedFrom (vs : List Variant) :
    ((signedFrom [] vs).map fun p => Text.trim p.2.description) = payloadNotes vs := by
  refine List.ext_getElem? fun i => ?_
  rw [payloadNotes, List.getElem?_map, getElem?_signedFrom, List.getElem?_map, List.getElem?_zipIdx]
  cases vs[i]? with
  | none => rfl
  | some v =>
      simp [trim_description_signature, Outline.registeredFrom_eq, numberedFrom]

/-- The variants with their notes are the classified ones with their descriptions. -/
theorem zip_payloadNotes (vs : List Variant) :
    vs.zip (payloadNotes vs) =
      (signedFrom [] vs).map fun p => (p.1, Text.trim p.2.description) := by
  rw [← map_note_signedFrom, ← List.zip_map', map_fst_signedFrom]

/-! ## Emitting the planned declarations -/

/-- The name of the module: the one that was asked for, or one derived from the enum. -/
def EnumItem.moduleFor (e : EnumItem) (o : Options) : Except Rejection Ident :=
  match o.module with
  | some module => .ok module
  | none => e.name.ident.moduleName

/-- The identifier of the enum without payloads. -/
def simplifiedIdent : Ident := .plain simplifiedName

/-- The variant of the enum without payloads that belongs to a variant with this note. -/
def Variant.tagCode (v : Variant) (note : Text) : TagCode :=
  ⟨v.name.ident, Text.withoutRawMarks v.name.ident.text, note⟩

/-- The arm that belongs to a variant. -/
def Variant.armCode (v : Variant) : ArmCode := ⟨v.name.ident, v.fields.shape, v.name.ident⟩

/-- The aliases of the inline functions that can be read again. -/
def EnumItem.aliasCodes (e : EnumItem) : List AliasCode :=
  (inlineFunctions e.variants.items).zipIdx.filterMap fun (t, k) =>
    (Ty.ofText? t.tokens.compact).map fun target =>
      ⟨Alias.ident k, e.generics.aliasFor target, target⟩

/-- The enum without payloads. -/
def EnumItem.tagEnumCode (e : EnumItem) : TagEnumCode :=
  ⟨simplifiedIdent, (e.variants.items.zip (payloadNotes e.variants.items)).map fun (v, note) =>
    v.tagCode note⟩

/-- The projection. -/
def EnumItem.projectionCode (e : EnumItem) (o : Options) : ProjectionCode :=
  ⟨o.method.getD (.plain projectionName), simplifiedIdent, e.variants.items.map Variant.armCode⟩

/-- What is generated when nothing stops it. -/
def EnumItem.emission (e : EnumItem) (o : Options) (module : Ident) : Emission :=
  ⟨e, module, e.aliasCodes, some e.tagEnumCode, some (e.projectionCode o)⟩

/-- Aliases are emitted one after the other, and behind them the two other declarations. -/
theorem emit_aliases_append (e : EnumItem) (o : Options) (aliases : List Alias) (tags : TagEnum)
    (projection : Projection) :
    emit e o (aliases.map .alias ++ [.tags tags, .projection projection]) = (do
      let module ← e.moduleFor o
      let aliasCodes ← aliases.mapM (Alias.emit e)
      let tagEnumCode ← tags.emit
      let projectionCode ← projection.emit o
      return ⟨e, module, aliasCodes, some tagEnumCode, some projectionCode⟩) := by
  have hfold : ∀ m : Emission, (aliases.map Planned.alias).foldlM (Emission.add o) m = (do
      let aliasCodes ← aliases.mapM (Alias.emit m.item)
      return { m with aliases := m.aliases ++ aliasCodes }) := by
    induction aliases with
    | nil => intro m; simp
    | cons a aliases ih =>
        intro m
        simp [Emission.add, ih]
  cases hmodule : o.module <;>
    simp [emit, EnumItem.moduleFor, hmodule, List.foldlM_append, hfold, Emission.add]

theorem Ty.text_classify_of_isFunction {t : Ty} (h : t.isFunction = true) :
    t.classify.text = t.tokens.compact := by
  cases t with
  | function => simp only [classify, TypeText.text]
  | _ => cases h

/-- An alias is emitted if its target can be read. -/
theorem Alias.toOption_emit (e : EnumItem) (k : Nat) (target : TypeText) :
    (Alias.emit e ⟨nameOf k, target⟩).toOption =
      (Ty.ofText? target.text).map fun t => ⟨ident k, e.generics.aliasFor t, t⟩ := by
  simp only [Alias.emit, Ident.revive, revive?_nameOf]
  cases Ty.ofText? target.text <;> rfl

/-- The aliases of inline functions are emitted if all of these can be read again. -/
theorem mapM_emit_numberedFrom (e : EnumItem) (codes : List AliasCode) :
    (numberedFrom 0 (inlineFunctions e.variants.items)).mapM (Alias.emit e) = .ok codes ↔
      (∀ t ∈ inlineFunctions e.variants.items, (Ty.ofText? t.tokens.compact).isSome) ∧
        codes = e.aliasCodes := by
  have htext : ∀ p ∈ (inlineFunctions e.variants.items).zipIdx,
      p.1.classify.text = p.1.tokens.compact := by
    intro p hp
    have hmem : p.1 ∈ inlineFunctions e.variants.items := List.fst_mem_of_mem_zipIdx hp
    exact Ty.text_classify_of_isFunction (List.mem_filter.mp hmem).2
  rw [mapM_eq_ok_iff, numberedFrom, List.filterMap_map, List.forall_mem_map]
  have hcodes : (inlineFunctions e.variants.items).zipIdx.filterMap
      ((fun a => (Alias.emit e a).toOption) ∘ fun (t, k) => ⟨Alias.nameOf k, t.classify⟩) =
        e.aliasCodes := by
    refine List.filterMap_congr fun p hp => ?_
    simp only [Function.comp_apply, Alias.toOption_emit, htext p hp]
  rw [hcodes]
  refine and_congr_left' ⟨fun h t ht => ?_, fun h p hp => ?_⟩
  · obtain ⟨k, hk, rfl⟩ := List.getElem_of_mem ht
    have hmem : ((inlineFunctions e.variants.items)[k], k) ∈
        (inlineFunctions e.variants.items).zipIdx := by
      simp [List.mk_mem_zipIdx_iff_getElem?]
    have hsome := h _ hmem
    rw [Alias.toOption_emit, htext _ hmem, Option.isSome_map] at hsome
    exact hsome
  · rw [Alias.toOption_emit, htext p hp, Option.isSome_map]
    exact h p.1 (List.fst_mem_of_mem_zipIdx hp)

theorem Ident.revive_name {i : Ident} (h : i.isName = true) : Ident.revive i.text = .ok i := by
  rw [revive, revive?_text h]

/-- The projection is always emitted. -/
theorem emit_projection (e : EnumItem) (o : Options) :
    Projection.emit o ⟨projectionName, simplifiedName,
      (signedFrom [] e.variants.items).map fun (v, s) => v.arm s⟩ = .ok (e.projectionCode o) := by
  have hmethod : Ident.revive projectionName = .ok (.plain projectionName) :=
    Ident.revive_name (i := .plain projectionName) (by decide)
  have htarget : Ident.revive simplifiedName = .ok simplifiedIdent :=
    Ident.revive_name (i := simplifiedIdent) (by decide)
  have harm : ∀ (v : Variant) (s : Signature), (v.arm s).emit = .ok v.armCode := by
    intro v s
    simp only [Arm.emit, Variant.arm, Ident.revive_name v.named]
    rfl
  have harms : ((signedFrom [] e.variants.items).map fun (v, s) => v.arm s).mapM Arm.emit =
      .ok (e.variants.items.map Variant.armCode) := by
    rw [mapM_eq_ok_iff, List.filterMap_map, List.forall_mem_map]
    refine ⟨fun p _ => by rw [harm, Except.toOption, Option.isSome_some], ?_⟩
    conv_lhs => rw [← map_fst_signedFrom [] e.variants.items]
    rw [List.map_map, ← List.filterMap_eq_map]
    refine List.filterMap_congr fun p _ => ?_
    simp only [Function.comp_apply, harm, Except.toOption]
  cases hm : o.method <;>
    simp only [Projection.emit, hm, hmethod, htarget, harms, EnumItem.projectionCode] <;> rfl

theorem toOption_emit_tag (v : Variant) (s : Signature) :
    (v.tag s).emit.toOption =
      if v.name.ident.text ∈ reservedNames then none
      else some (v.tagCode (Text.trim s.description)) := by
  simp only [TagVariant.emit, Variant.tag, List.contains_iff_mem, Ident.revive_name v.named]
  split <;> rfl

/-- The variants of the enum without payloads, read off the classified ones. -/
theorem variants_tagEnumCode (e : EnumItem) :
    e.tagEnumCode.variants =
      (signedFrom [] e.variants.items).map fun p => p.1.tagCode (Text.trim p.2.description) := by
  rw [EnumItem.tagEnumCode, zip_payloadNotes, List.map_map]
  rfl

/-- The variants are emitted if none has the name of an associated item. -/
theorem mapM_emit_tags (e : EnumItem) (codes : List TagCode) :
    ((signedFrom [] e.variants.items).map fun (v, s) => v.tag s).mapM TagVariant.emit = .ok codes ↔
      (∀ v ∈ e.variants.items, v.name.ident.text ∉ reservedNames) ∧
        codes = e.tagEnumCode.variants := by
  have hfree : (∀ v ∈ e.variants.items, v.name.ident.text ∉ reservedNames) ↔
      ∀ p ∈ signedFrom [] e.variants.items, p.1.name.ident.text ∉ reservedNames := by
    conv_lhs => rw [← map_fst_signedFrom [] e.variants.items]
    rw [List.forall_mem_map]
  rw [mapM_eq_ok_iff, List.filterMap_map, List.forall_mem_map, hfree, variants_tagEnumCode]
  have hsome : ∀ p ∈ signedFrom [] e.variants.items,
      (p.1.tag p.2).emit.toOption.isSome ↔ p.1.name.ident.text ∉ reservedNames := by
    intro p _
    rw [toOption_emit_tag]
    split <;> simp_all
  rw [forall₂_congr hsome]
  refine and_congr_right fun hnone => ?_
  have hcodes : ((signedFrom [] e.variants.items).filterMap
      ((fun x => (TagVariant.emit x).toOption) ∘ fun (v, s) => v.tag s)) =
        (signedFrom [] e.variants.items).map fun p => p.1.tagCode (Text.trim p.2.description) := by
    rw [← List.filterMap_eq_map]
    refine List.filterMap_congr fun p hp => ?_
    simp only [Function.comp_apply, toOption_emit_tag, hnone p hp, if_false]
  rw [hcodes]

/-- The enum without payloads is emitted if no variant has the name of an associated item. -/
theorem emit_tags_eq_ok_iff (e : EnumItem) (code : TagEnumCode) :
    TagEnum.emit ⟨simplifiedName, (signedFrom [] e.variants.items).map fun (v, s) => v.tag s⟩ =
        .ok code ↔
      (∀ v ∈ e.variants.items, v.name.ident.text ∉ reservedNames) ∧ code = e.tagEnumCode := by
  have hname : Ident.revive simplifiedName = .ok simplifiedIdent :=
    Ident.revive_name (i := simplifiedIdent) (by decide)
  simp only [TagEnum.emit, hname, bind_eq_ok_iff, mapM_emit_tags, pure, Except.pure,
    Except.ok.injEq, exists_eq_left']
  constructor
  · rintro ⟨codes, ⟨hfree, rfl⟩, rfl⟩
    exact ⟨hfree, rfl⟩
  · rintro ⟨hfree, rfl⟩
    exact ⟨_, ⟨hfree, rfl⟩, rfl⟩

/-- **What is generated for a simplifiable enum**, and when. -/
theorem emit_planned_eq_ok_iff (e : EnumItem) (o : Options) (m : Emission) :
    emit e o e.planned = .ok m ↔
      ∃ module, e.moduleFor o = .ok module ∧
        (∀ t ∈ inlineFunctions e.variants.items, (Ty.ofText? t.tokens.compact).isSome) ∧
        (∀ v ∈ e.variants.items, v.name.ident.text ∉ reservedNames) ∧
        m = e.emission o module := by
  rw [EnumItem.planned, emit_aliases_append, emit_projection, Outline.registeredFrom_eq,
    List.nil_append, List.length_nil]
  simp only [bind_eq_ok_iff, mapM_emit_numberedFrom, emit_tags_eq_ok_iff, pure, Except.pure,
    Except.ok.injEq, exists_eq_left']
  constructor
  · rintro ⟨module, hmodule, codes, ⟨hread, rfl⟩, tags, ⟨hfree, rfl⟩, rfl⟩
    exact ⟨module, hmodule, hread, hfree, rfl⟩
  · rintro ⟨module, hmodule, hread, hfree, rfl⟩
    exact ⟨module, hmodule, _, ⟨hread, rfl⟩, _, ⟨hfree, rfl⟩, rfl⟩

end EnumTags

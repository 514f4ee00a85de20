import EnumTags.Proofs.EnumEmission

/-!
# The enum and its mirror

The variants of an enum are written out five times in what is generated for it: as the variants of
the enum without payloads, in the list of all of them, in the two functions that give a text for
each, and as the arms of the projection. `MirroredBy` says of the tokens that all five are there and
hold the variants in source order, under the identifiers that they have in the source. The
projection then takes every value to its own variant.

## Main definitions

* `Variant.pattern`: the pattern that the values of a variant match.
* `EnumItem.MirroredBy`: the tokens list the variants of the enum five times.
-/

namespace EnumTags

open Tokens

/-- The pattern that the values of a variant match. -/
def Variant.pattern (v : Variant) : Tokens :=
  code "Self ::" ++ ofIdent v.name.ident ++
    (match v.fields with
      | .unit => []
      | .tuple _ _ => enclose .paren (op "..")
      | .record _ _ => enclose .brace (op ".."))

/-- What is generated lists the variants of the enum five times, in their order and as they are
written, and projects each value to its own variant. -/
structure EnumItem.MirroredBy (e : EnumItem) (method : Ident) (m : Emission) : Prop where
  variants : code "pub enum" ++ ofIdent simplifiedIdent ++ enclose .brace
    ((e.variants.items.zip (payloadNotes e.variants.items)).flatMap fun (v, note) =>
      doc (' ' :: note) ++ ofIdent v.name.ident ++ op ",") <:+: m.tokens
  count : code "pub const COUNT : usize =" ++ count e.variants.items.length ++ op ";" <:+: m.tokens
  all : code "pub const ALL :" ++
    enclose .bracket (ofIdent simplifiedIdent ++ op ";" ++ Tokens.count e.variants.items.length) ++
    op "=" ++ enclose .bracket (Listed.joined (op ",") (e.variants.items.map fun v =>
      ofIdent simplifiedIdent ++ op "::" ++ ofIdent v.name.ident) false) ++ op ";" <:+: m.tokens
  /-- A variant reports its name without the raw mark. -/
  names : code "pub const fn" ++ code "name" ++ enclose .paren (code "self") ++
    code "-> & 'static str" ++ enclose .brace (code "match self" ++ enclose .brace
      (e.variants.items.flatMap fun v => code "Self ::" ++ ofIdent v.name.ident ++ op "=>" ++
        quoted v.name.ident.name ++ op ",")) <:+: m.tokens
  payloads : code "pub const fn" ++ code "payload" ++ enclose .paren (code "self") ++
    code "-> & 'static str" ++ enclose .brace (code "match self" ++ enclose .brace
      ((e.variants.items.zip (payloadNotes e.variants.items)).flatMap fun (v, note) =>
        code "Self ::" ++ ofIdent v.name.ident ++ op "=>" ++ quoted note ++ op ",")) <:+: m.tokens
  arms : code "fn" ++ ofIdent method ++ enclose .paren (code "& self") ++ op "->" ++
    (ofIdent m.module ++ op "::" ++ ofIdent simplifiedIdent) ++
    enclose .brace (code "match self" ++ enclose .brace
      (e.variants.items.flatMap fun v => v.pattern ++ op "=>" ++ ofIdent m.module ++ op "::" ++
        ofIdent simplifiedIdent ++ op "::" ++ ofIdent v.name.ident ++ op ",")) <:+: m.tokens
  distinct : (e.variants.items.map fun v => v.name.ident).Nodup
  /-- The first arm that names the variant of a value leads to the variant at the same place. -/
  projected : ∃ (tags : TagEnumCode) (projection : ProjectionCode),
    m.tags = some tags ∧ m.projection = some projection ∧
    ∀ (i : Nat) (v : Variant), e.variants.items[i]? = some v →
      ∃ tag arm, tags.variants[i]? = some tag ∧
        (projection.arms.find? fun a => a.variant == v.name.ident) = some arm ∧
        arm.target = tag.ident ∧ tag.ident = v.name.ident

/-! ## Parts of the output -/

theorem infix_enclose (d : Delimiter) (ts : Tokens) : ts <:+: enclose d ts :=
  ⟨[.opening d], [.closing d], rfl⟩

theorem Emission.infix_tags {m : Emission} {tags : TagEnumCode} (h : m.tags = some tags) :
    tags.tokens <:+: m.tokens := by
  have hmodule : tags.tokens <:+: m.moduleTokens := by
    rw [moduleTokens, h]
    exact ((List.suffix_append _ _).isInfix.trans (infix_enclose _ _)).trans
      (List.suffix_append _ _).isInfix
  exact hmodule.trans (List.prefix_append _ _).isInfix

theorem TagEnumCode.infix_associated {tags : TagEnumCode} {ts : Tokens}
    (h : ts ∈ tags.associatedItems) : ts <:+: tags.tokens := by
  have hitems := (List.infix_of_mem_flatten h).trans (infix_enclose .brace _)
  have himpl : ts <:+: tags.associated := List.infix_append_of_infix_right hitems
  exact List.infix_append_of_infix_left (List.infix_append_of_infix_right himpl)

theorem TagEnumCode.infix_declaration (tags : TagEnumCode) :
    code "pub enum" ++ ofIdent tags.name ++ enclose .brace (tags.variants.flatMap fun v =>
      doc (' ' :: v.payload) ++ ofIdent v.ident ++ op ",") <:+: tags.tokens :=
  List.infix_append_of_infix_left (List.infix_append_of_infix_left List.infix_append_right)

theorem Emission.infix_projectionItem {m : Emission} {p : ProjectionCode}
    (h : m.projection = some p) : p.projectionItem m.module <:+: m.tokens := by
  have hmem : p.projectionItem m.module ∈ p.methodItems m.item m.module := by
    simp [ProjectionCode.methodItems]
  have hitems := (List.infix_of_mem_flatten hmem).trans (infix_enclose .brace _)
  have himpl : p.projectionItem m.module <:+: p.methods m.item m.module :=
    List.infix_append_of_infix_right hitems
  rw [tokens, h]
  exact List.infix_append_of_infix_right (List.infix_append_of_infix_left himpl)

/-! ## Reading the lists off the enum -/

/-- The raw mark is all that is taken off a name. -/
theorem Ident.withoutRawMarks_text (i : Ident) : Text.withoutRawMarks i.text = i.name := by
  obtain ⟨raw, name, spelled⟩ := i
  have hword : Text.isWord name = true := (Bool.and_eq_true_iff.mp spelled).1
  have hname : Text.withoutRawMarks name = name := by
    rw [Text.withoutRawMarks.eq_def]
    split
    · have hhash : Text.isWordChar '#' = true := Text.isWordChar_of_mem_isWord hword (by simp)
      exact absurd hhash (by decide)
    · rfl
  cases raw with
  | true => rw [text, if_pos rfl, Text.withoutRawMarks, hname]
  | false => rw [text, if_neg Bool.false_ne_true, hname]

theorem Variant.pattern_armCode (v : Variant) : v.armCode.pattern = v.pattern := by
  cases hfields : v.fields <;>
    simp only [armCode, ArmCode.pattern, pattern, Fields.shape, hfields]

theorem flatMap_tokens_armCode (vs : List Variant) (module target : Ident) :
    (vs.map Variant.armCode).flatMap (ArmCode.tokens module target) =
      vs.flatMap fun v => v.pattern ++ op "=>" ++ ofIdent module ++ op "::" ++ ofIdent target ++
        op "::" ++ ofIdent v.name.ident ++ op "," := by
  rw [List.flatMap_map]
  simp only [ArmCode.tokens, Variant.pattern_armCode]
  rfl

theorem map_fst_zip_payloadNotes (vs : List Variant) :
    (vs.zip (payloadNotes vs)).map Prod.fst = vs :=
  List.map_fst_zip (by simp [payloadNotes])

theorem length_variants_tagEnumCode (e : EnumItem) :
    e.tagEnumCode.variants.length = e.variants.items.length := by
  simp [EnumItem.tagEnumCode, payloadNotes]

/-- What does not depend on the note is made from the variants alone. -/
theorem map_variants_tagEnumCode {α : Type} (e : EnumItem) (f : Ident → Text → α) :
    (e.tagEnumCode.variants.map fun v => f v.ident v.label) =
      e.variants.items.map fun v => f v.name.ident v.name.ident.name := by
  conv_rhs => rw [← map_fst_zip_payloadNotes e.variants.items]
  rw [EnumItem.tagEnumCode, List.map_map, List.map_map]
  refine List.map_congr_left fun p _ => ?_
  simp only [Function.comp_apply, Variant.tagCode, Ident.withoutRawMarks_text]

/-- Where no two elements agree in `f`, the first with the value of an element is that element. -/
theorem find?_of_nodup_map {α β : Type} [BEq β] [LawfulBEq β] {f : α → β} {xs : List α} {x : α}
    (h : (xs.map f).Nodup) (hx : x ∈ xs) : (xs.find? fun y => f y == f x) = some x := by
  induction xs with
  | nil => cases hx
  | cons y xs ih =>
      obtain ⟨hy, hxs⟩ := List.nodup_cons.mp h
      rcases List.mem_cons.mp hx with rfl | hx
      · simp
      · have hne : f y ≠ f x := fun heq => hy (heq ▸ List.mem_map_of_mem hx)
        rw [List.find?_cons_of_neg (by simpa using hne), ih hxs hx]

theorem mirroredBy_emission (e : EnumItem) (o : Options) (module : Ident)
    (hdistinct : (e.variants.items.map fun v => v.name.ident.text).Nodup) :
    e.MirroredBy (o.method.getD (.plain projectionName)) (e.emission o module) := by
  have hsome : (e.emission o module).tags = some e.tagEnumCode := rfl
  have htags := Emission.infix_tags hsome
  have hitem : ∀ ts ∈ e.tagEnumCode.associatedItems, ts <:+: (e.emission o module).tokens :=
    fun ts hts => (TagEnumCode.infix_associated hts).trans htags
  have hidents : (e.variants.items.map fun v => v.name.ident).Nodup :=
    List.Nodup.of_map Ident.text (by simpa [Function.comp_def] using hdistinct)
  refine ⟨?_, ?_, ?_, ?_, ?_, ?_, hidents, e.tagEnumCode, e.projectionCode o, rfl, rfl, ?_⟩
  · have h := (TagEnumCode.infix_declaration e.tagEnumCode).trans htags
    rw [EnumItem.tagEnumCode, List.flatMap_map] at h
    exact h
  · have h := hitem e.tagEnumCode.countItem (by simp [TagEnumCode.associatedItems])
    rw [TagEnumCode.countItem, length_variants_tagEnumCode] at h
    exact h
  · have h := hitem e.tagEnumCode.allItem (by simp [TagEnumCode.associatedItems])
    rw [TagEnumCode.allItem, TagEnumCode.allEntries, length_variants_tagEnumCode,
      map_variants_tagEnumCode e fun i _ => ofIdent e.tagEnumCode.name ++ op "::" ++ ofIdent i] at h
    exact h
  · have h := hitem (e.tagEnumCode.textItem (code "name") TagCode.label)
      (by simp [TagEnumCode.associatedItems])
    rw [TagEnumCode.textItem, TagEnumCode.textMatch, List.flatMap_def,
      map_variants_tagEnumCode e fun i label =>
        code "Self ::" ++ ofIdent i ++ op "=>" ++ quoted label ++ op ",", ← List.flatMap_def] at h
    exact h
  · have h := hitem (e.tagEnumCode.textItem (code "payload") TagCode.payload)
      (by simp [TagEnumCode.associatedItems])
    rw [TagEnumCode.textItem, TagEnumCode.textMatch, EnumItem.tagEnumCode, List.flatMap_map] at h
    exact h
  · have hprojection : (e.emission o module).projection = some (e.projectionCode o) := rfl
    have h := Emission.infix_projectionItem hprojection
    rw [← flatMap_tokens_armCode e.variants.items (e.emission o module).module simplifiedIdent]
    exact h
  · intro i v hv
    obtain ⟨note, hnote⟩ : ∃ note, (payloadNotes e.variants.items)[i]? = some note := by
      simp [payloadNotes, List.getElem?_zipIdx, hv]
    refine ⟨v.tagCode note, v.armCode, ?_, ?_, rfl, rfl⟩
    · have hpair : (e.variants.items.zip (payloadNotes e.variants.items))[i]? = some (v, note) :=
        List.getElem?_zip_eq_some.mpr ⟨hv, hnote⟩
      rw [EnumItem.tagEnumCode, List.getElem?_map, hpair, Option.map_some]
    · have hfind := find?_of_nodup_map hidents (List.mem_of_getElem? hv)
      rw [EnumItem.projectionCode, List.find?_map]
      simp only [Function.comp_def, Variant.armCode, hfind, Option.map_some]

/-- **The projection is total and keeps the order.** What is generated for an enum lists its
variants five times, and projects each of its values to the variant at the same place. -/
theorem mirroredBy_of_emit {e : EnumItem} {o : Options} {decls : List Planned} {m : Emission}
    (hplan : (Outline.ofItem (.enum e)).generate = .ok (.planned decls))
    (hemit : emit e o decls = .ok m) : e.MirroredBy (o.method.getD (.plain projectionName)) m := by
  obtain ⟨hsimplifiable, rfl⟩ := (generate_ofEnum_eq_planned e decls).mp hplan
  obtain ⟨module, -, -, -, rfl⟩ := (emit_planned_eq_ok_iff e o m).mp hemit
  exact mirroredBy_emission e o module hsimplifiable.distinct

/-- An enum named `Lamp` with the variants `Off`, `r#On(u8)` and `Dimmed {}`. -/
def lamp : EnumItem where
  attributes := []
  visibility := []
  name := ⟨.plain "Lamp", default⟩
  named := by decide
  generics := .empty
  variants :=
    ⟨[⟨[], ⟨.plain "Off", default⟩, by decide, .unit, none, default⟩,
      ⟨[], ⟨⟨true, "On", by decide⟩, default⟩, by decide,
        .tuple ⟨[⟨[], [], none, .path false [.mk (.plain "u8") .none], default⟩], false⟩ default,
        none, default⟩,
      ⟨[], ⟨.plain "Dimmed", default⟩, by decide, .record ⟨[], false⟩ default, none, default⟩], false⟩
  span := default

/-- What is generated for it in a module `lamp`. -/
def lampCode : Emission := lamp.emission ⟨some (.plain "lamp"), none⟩ (.plain "lamp")

theorem lamp_mirroredBy_emission :
    lamp.MirroredBy (.plain projectionName) lampCode ∧
    (∃ ts, ts <:+: lampCode.tokens ∧ Tokens.text ts =
      ("pub enum Simplified \x7b # [doc = \" -- has no payload\"] Off , " : Text) ++
        ("# [doc = \" u8\"] r#On , # [doc = \" -- has no payload\"] Dimmed , \x7d" : Text)) ∧
    ∃ ts, ts <:+: lampCode.tokens ∧ Tokens.text ts =
      ("fn simplified (& self) -> lamp :: Simplified \x7b match self \x7b " : Text) ++
        ("Self :: Off => lamp :: Simplified :: Off , " : Text) ++
        ("Self :: r#On (..) => lamp :: Simplified :: r#On , " : Text) ++
        ("Self :: Dimmed \x7b .. \x7d => lamp :: Simplified :: Dimmed , \x7d \x7d" : Text) := by
  have hmirror : lamp.MirroredBy (.plain projectionName) lampCode :=
    mirroredBy_of_emit
      ((generate_ofEnum_eq_planned lamp lamp.planned).mpr
        ⟨⟨by decide, by decide, by decide, by decide⟩, rfl⟩)
      ((emit_planned_eq_ok_iff lamp ⟨some (.plain "lamp"), none⟩ _).mpr
        ⟨.plain "lamp", rfl, by decide, by decide, rfl⟩)
  exact ⟨hmirror, ⟨_, hmirror.variants, by decide +kernel⟩, ⟨_, hmirror.arms, by decide +kernel⟩⟩

end EnumTags

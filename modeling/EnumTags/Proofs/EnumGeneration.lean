import EnumTags.Expansion
import EnumTags.Proofs.EnumOutline
import Mathlib.Data.List.Find

/-!
# What is planned for an enum

The checks and the classification of variants, computed on the outline of an enum and said in terms
of the enum alone. An outline of an enum is never too deep for a search, so what decides is the
source: a variant with the name of the enum to be made, a variant with two fields, no field at all,
or a name that stands twice. Otherwise the plan is the one of `EnumItem.planned`.

## Main definitions

* `Variant.extracted`: what a variant with at most one field is classified as.
* `EnumItem.planned`: the declarations for an enum that passes all checks.
-/

namespace EnumTags

/-! ## The types of payloads -/

/-- Whether the type is an inline function. -/
def TypeText.isFunction : TypeText → Bool
  | .function .. => true
  | _ => false

theorem Signature.ofType_eq (aliases : List Alias) (ty : TypeText) :
    Signature.ofType aliases ty =
      if ty.isFunction then .alias (Alias.nameOf aliases.length) else .named ty.text := by
  cases ty <;> rfl

namespace Ty

/-- Whether there are brackets around the type, be they parentheses or not written at all. -/
def isBracketed : Ty → Bool
  | .paren _ => true
  | .group _ => true
  | _ => false

/-- The type without the brackets around it. -/
def peeled : Ty → Ty
  | .paren inner => inner.peeled
  | .group inner => inner.peeled
  | t => t

/-- Whether the type is an inline function. -/
def isFunction : Ty → Bool
  | .function .. => true
  | _ => false

/-- A type has brackets around a smaller one, or none. -/
@[elab_as_elim]
theorem bracketsInduction {P : Ty → Prop} (paren : ∀ inner, P inner → P (.paren inner))
    (group : ∀ inner, P inner → P (.group inner)) (bare : ∀ t, t.isBracketed = false → P t) :
    (t : Ty) → P t
  | .paren inner => paren inner (bracketsInduction paren group bare inner)
  | .group inner => group inner (bracketsInduction paren group bare inner)
  | .array .. | .slice .. | .function .. | .implTrait .. | .object .. | .infer | .never
  | .invocation .. | .path .. | .qualified .. | .pointer .. | .reference .. | .tuple ..
  | .verbatim .. => bare _ rfl

theorem peeled_of_bare {t : Ty} (h : t.isBracketed = false) : t.peeled = t := by
  cases t <;> first | rfl | cases h

theorem isBracketed_peeled (t : Ty) : t.peeled.isBracketed = false := by
  induction t using bracketsInduction with
  | paren inner ih => rwa [peeled]
  | group inner ih => rwa [peeled]
  | bare t h => rwa [peeled_of_bare h]

theorem classify_peeled (t : Ty) : t.peeled.classify = t.classify := by
  induction t using bracketsInduction with
  | paren inner ih => rwa [peeled, classify]
  | group inner ih => rwa [peeled, classify]
  | bare t h => rw [peeled_of_bare h]

/-- A type without brackets around it keeps its text, and counts as the inline function that it is
or is not. -/
theorem classify_of_bare {t : Ty} (h : t.isBracketed = false) :
    t.classify.text = t.tokens.compact ∧ t.classify.isFunction = t.isFunction := by
  cases t with
  | paren inner => cases h
  | group inner => cases h
  | _ => simp only [classify, TypeText.text, TypeText.isFunction, isFunction, and_self]

/-- The text of a payload is that of the type without brackets. -/
theorem text_classify (t : Ty) : t.classify.text = t.peeled.tokens.compact := by
  rw [← classify_peeled, (classify_of_bare t.isBracketed_peeled).1]

/-- What is inside the brackets decides whether a type counts as an inline function. -/
theorem isFunction_classify (t : Ty) : t.classify.isFunction = t.peeled.isFunction := by
  rw [← classify_peeled, (classify_of_bare t.isBracketed_peeled).2]

/-- A type contributes its text, unless it is an inline function. -/
theorem ofType_classify (aliases : List Alias) (t : Ty) :
    Signature.ofType aliases t.classify =
      if t.peeled.isFunction then .alias (Alias.nameOf aliases.length)
      else .named t.peeled.tokens.compact := by
  rw [Signature.ofType_eq, isFunction_classify, text_classify]

end Ty

/-! ## Numbers -/

/-- The aliases of the inline functions among the types, numbered from `start`. -/
def Alias.numbered (start : Nat) (types : List TypeText) : List Alias :=
  ((types.filter TypeText.isFunction).zipIdx start).map fun (ty, k) => ⟨nameOf k, ty⟩

/-- Registering types adds the aliases of the inline functions among them. -/
theorem Alias.foldl_register (aliases : List Alias) (types : List TypeText) :
    types.foldl Alias.register aliases = aliases ++ Alias.numbered aliases.length types := by
  induction types generalizing aliases with
  | nil => simp [numbered]
  | cons ty types ih =>
      rw [List.foldl_cons, ih]
      cases ty <;> simp [register, numbered, TypeText.isFunction, List.filter_cons]

/-- The inline functions in the payloads of variants, without brackets around them. -/
def inlineFunctions (vs : List Variant) : List Ty :=
  ((vs.flatMap fun v => v.fields.items).map fun f => f.ty.peeled).filter Ty.isFunction

/-- Inline functions with their aliases, numbered from `start`. -/
def numberedFrom (start : Nat) (functions : List Ty) : List Alias :=
  (functions.zipIdx start).map fun (t, k) => ⟨Alias.nameOf k, t.classify⟩

/-- The inline functions among the types of fields get the same numbers as their texts. -/
theorem numbered_classify (start : Nat) (fields : List Field) :
    Alias.numbered start (fields.map fun f => f.ty.classify) =
      numberedFrom start ((fields.map fun f => f.ty.peeled).filter Ty.isFunction) := by
  have hfilter : (fields.map fun f => f.ty.classify).filter TypeText.isFunction =
      ((fields.map fun f => f.ty.peeled).filter Ty.isFunction).map Ty.classify := by
    simp only [List.filter_map, List.map_map, Function.comp_def, Ty.isFunction_classify,
      Ty.classify_peeled]
  rw [Alias.numbered, hfilter, numberedFrom, List.zipIdx_map, List.map_map]
  rfl

/-! ## Variants -/

/-- The shape that fields give to their variant. -/
def Fields.shape : Fields → Shape
  | unit => .unit
  | tuple _ _ => .tuple
  | record _ _ => .record

/-- What the fields of a variant contribute, given the aliases before it. -/
def Fields.signature (aliases : List Alias) (fields : Fields) : Signature :=
  match fields.items with
  | [] => .none
  | f :: _ => .ofType aliases f.ty.classify

/-- The aliases behind a variant. -/
def Fields.register (aliases : List Alias) (fields : Fields) : List Alias :=
  (fields.items.map fun f => f.ty.classify).foldl Alias.register aliases

/-- A variant as the generator sees it; `node` is its number in the outline. -/
def Variant.extracted (aliases : List Alias) (ordinal node : Nat) (v : Variant) : Extracted :=
  ⟨v.name.ident.text, ordinal, node, v.fields.shape, v.fields.items.map fun f => f.ty.classify,
    v.fields.signature aliases⟩

theorem Fields.signature_eq_none (aliases : List Alias) (fields : Fields) :
    fields.signature aliases = .none ↔ fields.items = [] := by
  cases hitems : fields.items with
  | nil => simp [Fields.signature, hitems]
  | cons f fs =>
      rw [Fields.signature, hitems]
      cases hf : f.ty.peeled.isFunction <;> simp [Ty.ofType_classify, hf]

namespace Outline

/-! ## Depth -/

theorem reaches_of_le {σ : Type} {t : Outline σ} {levels levels' id : Nat} (hle : levels ≤ levels')
    (h : t.reaches levels id = false) : t.reaches levels' id = false := by
  induction levels generalizing levels' id with
  | zero => simp [reaches] at h
  | succ levels ih =>
      obtain ⟨more, rfl⟩ : ∃ more, levels' = more + 1 := ⟨levels' - 1, by omega⟩
      rw [reaches_succ_eq_false] at h ⊢
      exact fun child hchild => ih (by omega) (h child hchild)

theorem reaches_of_children_eq_nil {σ : Type} {t : Outline σ} {levels id : Nat}
    (h : t.children id = []) : t.reaches (levels + 1) id = false := by
  simp [reaches, h]

namespace HasVariant

variable {t : Outline Span} {start : Nat} {v : Variant}

theorem kind? (h : t.HasVariant start v) : t.kind? start = some .variant :=
  kind?_eq_of_node? h.node?_variant

theorem nameOf? (h : t.HasVariant start v) : t.nameOf? start = some v.name.ident.text := by
  simp [Outline.nameOf?, children_eq_of_node? h.node?_variant, h.node?_name]

/-- Below a variant there are its name and its payload, and below that the slots. -/
theorem reaches_three (h : t.HasVariant start v) : t.reaches 3 start = false := by
  rw [reaches_succ_eq_false, children_eq_of_node? h.node?_variant]
  intro child hchild
  rcases List.mem_cons.mp hchild with rfl | hchild
  · exact reaches_of_children_eq_nil (children_eq_of_node? h.node?_name)
  · cases hb : brackets? v.fields with
    | none => simp [payloadIds, hb] at hchild
    | some brackets =>
        obtain rfl : child = start + 2 := by simpa [payloadIds, hb] using hchild
        rw [reaches_succ_eq_false, children_eq_of_node? (h.node?_clause hb)]
        intro slot hslot
        obtain ⟨i, hi, rfl⟩ := List.mem_range'.mp hslot
        rw [Nat.one_mul]
        exact reaches_of_children_eq_nil
          (children_eq_of_node? (h.node?_slot (List.getElem?_eq_getElem hi)))

/-! ## Payloads -/

/-- The payload of a variant is its only child of that kind. -/
theorem clauses (h : t.HasVariant start v) :
    ((t.children start).filter fun id => (t.node? id).any fun n => isClause n.kind) =
      payloadIds start v.fields := by
  rw [children_eq_of_node? h.node?_variant]
  cases hb : brackets? v.fields with
  | none => simp [payloadIds, hb, h.node?_name, isClause]
  | some brackets => simp [payloadIds, hb, h.node?_name, h.node?_clause hb, isClause]

end HasVariant

/-- The slots of fields whose nodes are numbered from `start`. -/
def fieldSlots (clause start : Nat) : List Field → List Slot
  | [] => []
  | f :: fields => ⟨clause, start, f.ty.classify⟩ :: fieldSlots clause (start + 1) fields

theorem map_ty_fieldSlots (clause start : Nat) (fields : List Field) :
    (fieldSlots clause start fields).map Slot.ty = fields.map fun f => f.ty.classify := by
  induction fields generalizing start with
  | nil => rfl
  | cons f fields ih => simp [fieldSlots, ih]

/-- Slots are found in the order of the fields they were made from. -/
theorem filterMap_range'_slots {t : Outline Span} (clause start : Nat) {fields : List Field}
    (h : ∀ i f, fields[i]? = some f →
      t.kind? (start + i) = some (.slot (f.label.map Ident.text) f.ty.classify)) :
    ((List.range' start fields.length).filterMap fun id =>
        match t.kind? id with
        | some (.slot _ ty) => some (Slot.mk clause id ty)
        | _ => none) =
      fieldSlots clause start fields := by
  induction fields generalizing start with
  | nil => rfl
  | cons f fields ih =>
      have hfirst := h 0 f rfl
      rw [Nat.add_zero] at hfirst
      have hrest := ih (start + 1) fun i g hg => by
        rw [Nat.add_assoc, Nat.add_comm 1 i]
        exact h (i + 1) g hg
      simp [List.range'_succ, hfirst, hrest, fieldSlots]

theorem HasVariant.slots {t : Outline Span} {start : Nat} {v : Variant}
    (h : t.HasVariant start v) :
    (payloadIds start v.fields).flatMap t.slotsOf =
      fieldSlots (start + 2) (start + 3) v.fields.items := by
  cases hb : brackets? v.fields with
  | none =>
      cases hfields : v.fields <;> simp [brackets?, hfields] at hb
      simp [payloadIds, brackets?, Fields.items, fieldSlots]
  | some brackets =>
      have hslots : t.slotsOf (start + 2) = fieldSlots (start + 2) (start + 3) v.fields.items := by
        have hnode := h.node?_clause hb
        rw [slotsOf, kind?_eq_of_node? hnode]
        simp only [wellFormed, beq_self_eq_true, if_true, children_eq_of_node? hnode]
        exact filterMap_range'_slots (start + 2) (start + 3) fun i f hf => kind?_eq_of_node? (h.node?_slot hf)
      simp [payloadIds, hb, hslots]

/-- The shape of a variant is that of its fields. -/
theorem HasVariant.shape {t : Outline Span} {start : Nat} {v : Variant}
    (h : t.HasVariant start v) :
    (match (payloadIds start v.fields).getLast? with
      | some clause => t.shapeOf clause
      | none => .unit) = v.fields.shape := by
  cases hfields : v.fields with
  | unit => simp [payloadIds, brackets?, Fields.shape]
  | tuple fields span =>
      have hnode := h.node?_clause (by rw [hfields]; rfl)
      simp [payloadIds, brackets?, Fields.shape, shapeOf, kind?_eq_of_node? hnode]
  | record fields span =>
      have hnode := h.node?_clause (by rw [hfields]; rfl)
      simp [payloadIds, brackets?, Fields.shape, shapeOf, kind?_eq_of_node? hnode]

/-! ## Classifying variants -/

/-- A search for direct children finds them all where nothing is too deep. -/
theorem allDescendants_of_not_reaches {σ : Type} {t : Outline σ} {id : Nat}
    (h : t.reaches maxDepth id = false) (p : Node σ → Bool) :
    t.allDescendants id (fun n depth => depth == 1 && p n) =
      .ok ((t.children id).filter fun child => (t.node? child).any p) := by
  rw [allDescendants, descendants, searchDown_of_not_reaches t _ 0 h]
  exact congrArg _ (walk_children t p 62 id)

/-- One that stops finds the first of them. -/
theorem firstDescendant?_of_not_reaches {σ : Type} {t : Outline σ} {id : Nat}
    (h : t.reaches maxDepth id = false) (p : Node σ → Bool) :
    t.firstDescendant? id (fun n depth => depth == 1 && p n) =
      .ok ((t.children id).find? fun child => (t.node? child).any p) := by
  rw [firstDescendant?, descendants, searchDown_stop_of_not_reaches t _ 0 h,
    ← List.head?_filter, ← walk_children t p 62 id]
  simp [bind, Except.bind, pure, Except.pure, maxDepth, List.head?_take]

/-- A variant is classified by its fields, and rejected if there are several. -/
theorem HasVariant.extract {t : Outline Span} {start : Nat} {v : Variant}
    (h : t.HasVariant start v) (aliases : List Alias) (ordinal : Nat) :
    t.extract aliases start ordinal =
      (if v.fields.items.length ≤ 1 then .ok (v.extracted aliases ordinal start)
        else .error (.severalPayloads v.name.ident.text (start + 4)),
       v.fields.register aliases) := by
  have hdepth : t.reaches maxDepth start = false := reaches_of_le (by decide) h.reaches_three
  have hclauses := allDescendants_of_not_reaches hdepth fun n => isClause n.kind
  rw [h.clauses] at hclauses
  have hregister : (fieldSlots (start + 2) (start + 3) v.fields.items).foldl
      (fun as s => Alias.register as s.ty) aliases = v.fields.register aliases := by
    rw [Fields.register, ← map_ty_fieldSlots (start + 2) (start + 3), List.foldl_map]
  simp only [Outline.extract, hclauses, h.slots, hregister, map_ty_fieldSlots, h.nameOf?]
  rcases hitems : v.fields.items with _ | ⟨f, _ | ⟨g, fields⟩⟩
  · simp [fieldSlots, signatureOf, Variant.extracted, Fields.signature, hitems]
    exact h.shape
  · simp [fieldSlots, signatureOf, h.nameOf?, Variant.extracted, Fields.signature, hitems]
    exact h.shape
  · simp [fieldSlots, signatureOf, h.nameOf?]

/-- The variants as the generator sees them, one after the other. -/
def extractedFrom (aliases : List Alias) (ordinal : Nat) : List (Nat × Variant) → List Extracted
  | [] => []
  | (start, v) :: rest =>
    v.extracted aliases ordinal start ::
      extractedFrom (v.fields.register aliases) (ordinal + 1) rest

/-- The aliases behind all variants. -/
def registeredFrom (aliases : List Alias) (vs : List Variant) : List Alias :=
  vs.foldl (fun as v => v.fields.register as) aliases

/-- The aliases behind all variants are those of their inline functions. -/
theorem registeredFrom_eq (aliases : List Alias) (vs : List Variant) :
    registeredFrom aliases vs = aliases ++ numberedFrom aliases.length (inlineFunctions vs) := by
  rw [inlineFunctions, ← numbered_classify, ← Alias.foldl_register, registeredFrom,
    List.map_flatMap, List.foldl_flatMap]
  rfl

/-- The first variant with several fields is rejected; if there is none, all are classified. -/
theorem extractEach_of_hasVariant {t : Outline Span} {placed : List (Nat × Variant)}
    (h : ∀ p ∈ placed, t.HasVariant p.1 p.2) (aliases : List Alias) (ordinal : Nat) :
    t.extractEach aliases ordinal (placed.map Prod.fst) =
      match placed.find? fun p => 1 < p.2.fields.items.length with
      | some (start, v) => .error (.severalPayloads v.name.ident.text (start + 4))
      | none =>
        .ok (extractedFrom aliases ordinal placed, registeredFrom aliases (placed.map Prod.snd)) := by
  induction placed generalizing aliases ordinal with
  | nil => rfl
  | cons p placed ih =>
      obtain ⟨start, v⟩ := p
      have hv : t.HasVariant start v := h (start, v) List.mem_cons_self
      have hrest := ih (fun q hq => h q (List.mem_cons_of_mem _ hq)) (v.fields.register aliases)
        (ordinal + 1)
      rw [List.map_cons, extractEach, hv.extract]
      by_cases hlength : 1 < v.fields.items.length
      · simp [hlength, Nat.not_le.mpr hlength]
      · rw [if_pos (Nat.le_of_not_lt hlength)]
        simp only [hrest, List.find?_cons, hlength, decide_false]
        cases hfind : placed.find? fun p => 1 < p.2.fields.items.length with
        | none => simp [bind, Except.bind, pure, Except.pure, extractedFrom, registeredFrom]
        | some q => rfl

/-! ## Checking an enum -/

theorem node?_root_ofEnum (e : EnumItem) :
    (ofEnum e).node? root = some ⟨root, .declaration .sum, none,
      1 :: (variantsFrom 2 e.variants.items).map Prod.fst, e.tokens.compact, e.span⟩ := by
  rw [node?, ← Array.getElem?_toList, nodes_ofEnum]
  rfl

theorem node?_name_ofEnum (e : EnumItem) :
    (ofEnum e).node? 1 = some ⟨1, .name, some root, [], e.name.ident.text, e.name.span⟩ := by
  rw [node?, ← Array.getElem?_toList, nodes_ofEnum]
  rfl

theorem nameOf?_ofEnum (e : EnumItem) : (ofEnum e).nameOf? root = some e.name.ident.text := by
  simp [nameOf?, children_eq_of_node? (node?_root_ofEnum e), node?_name_ofEnum e]

/-- The outline of an enum is shallow. -/
theorem reaches_ofEnum (e : EnumItem) : (ofEnum e).reaches maxDepth root = false := by
  have hle : 4 ≤ maxDepth := by decide
  refine reaches_of_le hle ?_
  rw [reaches_succ_eq_false, children_eq_of_node? (node?_root_ofEnum e)]
  intro child hchild
  rcases List.mem_cons.mp hchild with rfl | hchild
  · exact reaches_of_children_eq_nil (children_eq_of_node? (node?_name_ofEnum e))
  · obtain ⟨p, hp, rfl⟩ := List.mem_map.mp hchild
    exact (hasVariant_ofEnum e p hp).reaches_three

/-- The variants of the outline are those of the enum. -/
theorem variants_ofEnum (e : EnumItem) :
    (((ofEnum e).children root).filter fun child =>
        ((ofEnum e).node? child).any fun n => n.kind == .variant) =
      (variantsFrom 2 e.variants.items).map Prod.fst := by
  rw [children_eq_of_node? (node?_root_ofEnum e), List.filter_cons_of_neg
    (by simp [node?_name_ofEnum e])]
  refine List.filter_eq_self.mpr fun child hchild => ?_
  obtain ⟨p, hp, rfl⟩ := List.mem_map.mp hchild
  simp [(hasVariant_ofEnum e p hp).node?_variant]

/-- The member that takes the name of the enum to be made is the first variant of that name. -/
theorem firstDescendant?_takesName_ofEnum (e : EnumItem) :
    (ofEnum e).firstDescendant? root (ofEnum e).takesName =
      .ok (((variantsFrom 2 e.variants.items).find? fun p =>
        p.2.name.ident.text == simplifiedName).map Prod.fst) := by
  have htest : (ofEnum e).takesName = fun n depth =>
      depth == 1 && (n.kind.isMember && (ofEnum e).nameOf? n.id == some simplifiedName) := by
    funext n depth
    rw [takesName, Bool.and_assoc]
  rw [htest, firstDescendant?_of_not_reaches (reaches_ofEnum e),
    children_eq_of_node? (node?_root_ofEnum e), List.find?_cons_of_neg
    (by simp [node?_name_ofEnum e, NodeKind.isMember]), List.find?_map]
  have hsame : ∀ p ∈ variantsFrom 2 e.variants.items,
      ((ofEnum e).node? p.1).any (fun n =>
        n.kind.isMember && (ofEnum e).nameOf? n.id == some simplifiedName) =
      (p.2.name.ident.text == simplifiedName) := by
    intro p hp
    have hv := hasVariant_ofEnum e p hp
    simp [hv.node?_variant, hv.nameOf?, NodeKind.isMember]
  rw [Function.comp_def, List.find?_congr hsame]

/-- Nothing is carried by any variant exactly if none has a field. -/
theorem all_signature_extractedFrom (aliases : List Alias) (ordinal : Nat)
    (placed : List (Nat × Variant)) :
    ((extractedFrom aliases ordinal placed).all (·.signature == .none)) =
      ((placed.map Prod.snd).all fun v => v.fields.items.isEmpty) := by
  induction placed generalizing aliases ordinal with
  | nil => rfl
  | cons p placed ih =>
      have hfirst : ((p.2.extracted aliases ordinal p.1).signature == .none) =
          p.2.fields.items.isEmpty := by
        rw [Bool.eq_iff_iff, beq_iff_eq, List.isEmpty_iff]
        exact Fields.signature_eq_none aliases p.2.fields
      simp only [extractedFrom, List.all_cons, List.map_cons, hfirst, ih]

/-- **The checks on an enum**, said of the enum alone. -/
theorem declaration_ofEnum (e : EnumItem) :
    (ofEnum e).declaration =
      match (variantsFrom 2 e.variants.items).find? fun p =>
        p.2.name.ident.text == simplifiedName with
      | some (start, _) => .error (.alreadySimplified start)
      | none =>
        match (variantsFrom 2 e.variants.items).find? fun p => 1 < p.2.fields.items.length with
        | some (start, v) => .error (.severalPayloads v.name.ident.text (start + 4))
        | none =>
          if e.variants.items.all fun v => v.fields.items.isEmpty then .error (.noPayload root)
          else .ok ⟨e.name.ident.text, root, extractedFrom [] 0 (variantsFrom 2 e.variants.items),
            registeredFrom [] e.variants.items⟩ := by
  have hvariants := allDescendants_of_not_reaches (reaches_ofEnum e) fun n => n.kind == .variant
  rw [variants_ofEnum] at hvariants
  rw [declaration_eq, kind?_eq_of_node? (node?_root_ofEnum e), if_pos rfl,
    firstDescendant?_takesName_ofEnum]
  cases (variantsFrom 2 e.variants.items).find? fun p => p.2.name.ident.text == simplifiedName with
  | some taken => rfl
  | none =>
      simp only [Option.map_none, hvariants, extractEach_of_hasVariant (hasVariant_ofEnum e)]
      cases (variantsFrom 2 e.variants.items).find? fun p => 1 < p.2.fields.items.length with
      | some crowded => rfl
      | none =>
          simp only [all_signature_extractedFrom, map_snd_variantsFrom, nameOf?_ofEnum,
            Option.getD_some]

end Outline

/-! ## Planning for an enum -/

/-- An enum that declarations can be planned for. -/
structure EnumItem.Simplifiable (e : EnumItem) : Prop where
  /-- No variant has the name of the enum to be made. -/
  untaken : ∀ v ∈ e.variants.items, v.name.ident.text ≠ simplifiedName
  single : ∀ v ∈ e.variants.items, v.fields.items.length ≤ 1
  carrying : ∃ v ∈ e.variants.items, v.fields.items.length = 1
  distinct : (e.variants.items.map fun v => v.name.ident.text).Nodup

/-- The variants with what they carry, given the aliases before the first. -/
def signedFrom (aliases : List Alias) : List Variant → List (Variant × Signature)
  | [] => []
  | v :: vs => (v, v.fields.signature aliases) :: signedFrom (v.fields.register aliases) vs

/-- The variant of the enum without payloads that belongs to a variant and what it carries. -/
def Variant.tag (v : Variant) (s : Signature) : TagVariant := ⟨v.name.ident.text, s.description⟩

/-- The arm that belongs to a variant and what it carries. -/
def Variant.arm (v : Variant) (s : Signature) : Arm :=
  ⟨v.name.ident.text, v.fields.shape, v.name.ident.text, s.description⟩

/-- The declarations for an enum that passes all checks. -/
def EnumItem.planned (e : EnumItem) : List Planned :=
  (Outline.registeredFrom [] e.variants.items).map .alias ++
    [.tags ⟨simplifiedName, (signedFrom [] e.variants.items).map fun (v, s) => v.tag s⟩,
     .projection ⟨projectionName, simplifiedName,
      (signedFrom [] e.variants.items).map fun (v, s) => v.arm s⟩]

namespace Outline

theorem map_tagVariant_extractedFrom (aliases : List Alias) (ordinal : Nat)
    (placed : List (Nat × Variant)) :
    (extractedFrom aliases ordinal placed).map Declaration.tagVariant =
      (signedFrom aliases (placed.map Prod.snd)).map fun (v, s) => v.tag s := by
  induction placed generalizing aliases ordinal with
  | nil => rfl
  | cons p placed ih => simp only [extractedFrom, List.map_cons, signedFrom, ih]; rfl

theorem map_arm_extractedFrom (aliases : List Alias) (ordinal : Nat)
    (placed : List (Nat × Variant)) :
    (extractedFrom aliases ordinal placed).map Declaration.arm =
      (signedFrom aliases (placed.map Prod.snd)).map fun (v, s) => v.arm s := by
  induction placed generalizing aliases ordinal with
  | nil => rfl
  | cons p placed ih => simp only [extractedFrom, List.map_cons, signedFrom, ih]; rfl

theorem map_name_extractedFrom (aliases : List Alias) (ordinal : Nat)
    (placed : List (Nat × Variant)) :
    (extractedFrom aliases ordinal placed).map Extracted.name =
      (placed.map Prod.snd).map fun v => v.name.ident.text := by
  induction placed generalizing aliases ordinal with
  | nil => rfl
  | cons p placed ih => simp only [extractedFrom, List.map_cons, ih]; rfl

end Outline

theorem Ident.text_ne_nil (i : Ident) : i.text ≠ [] := by
  obtain ⟨raw, name, spelled⟩ := i
  cases raw <;> cases name <;> simp [Ident.text, isSpelling, Text.isWord] at spelled ⊢

/-- Every name is usable that no other variant has. -/
theorem namesUsable_variants (vs : List Variant) :
    Declaration.namesUsable (vs.map fun v => v.name.ident.text) = true ↔
      (vs.map fun v => v.name.ident.text).Nodup := by
  rw [Declaration.namesUsable_iff]
  refine and_iff_right fun name hname => ?_
  obtain ⟨v, -, rfl⟩ := List.mem_map.mp hname
  exact v.name.ident.text_ne_nil

theorem find?_variantsFrom_eq_none (start : Nat) (vs : List Variant) (p : Variant → Bool) :
    ((Outline.variantsFrom start vs).find? fun q => p q.2) = none ↔ ∀ v ∈ vs, p v = false := by
  conv_rhs => rw [← Outline.map_snd_variantsFrom start vs]
  rw [List.find?_eq_none, List.forall_mem_map]
  simp only [Bool.not_eq_true]

/-- What passes the checks on an enum. -/
theorem declaration_ofEnum_eq_ok_iff (e : EnumItem) (d : Declaration) :
    (Outline.ofEnum e).declaration = .ok d ↔
      (∀ v ∈ e.variants.items, v.name.ident.text ≠ simplifiedName) ∧
      (∀ v ∈ e.variants.items, v.fields.items.length ≤ 1) ∧
      (∃ v ∈ e.variants.items, v.fields.items ≠ []) ∧
      d = ⟨e.name.ident.text, Outline.root,
        Outline.extractedFrom [] 0 (Outline.variantsFrom 2 e.variants.items),
        Outline.registeredFrom [] e.variants.items⟩ := by
  have huntaken := find?_variantsFrom_eq_none 2 e.variants.items fun v =>
    v.name.ident.text == simplifiedName
  have hsingle := find?_variantsFrom_eq_none 2 e.variants.items fun v =>
    1 < v.fields.items.length
  simp only [beq_eq_false_iff_ne, decide_eq_false_iff_not, Nat.not_lt] at huntaken hsingle
  rw [Outline.declaration_ofEnum, ← huntaken, ← hsingle]
  cases (Outline.variantsFrom 2 e.variants.items).find? fun p =>
      p.2.name.ident.text == simplifiedName with
  | some taken => simp
  | none =>
      cases (Outline.variantsFrom 2 e.variants.items).find? fun p =>
          1 < p.2.fields.items.length with
      | some crowded => simp
      | none =>
          by_cases hempty : (e.variants.items.all fun v => v.fields.items.isEmpty) = true
          · have hnone : ¬ ∃ v ∈ e.variants.items, v.fields.items ≠ [] := by
              simpa using hempty
            simp [hempty, hnone]
          · have hsome : ∃ v ∈ e.variants.items, v.fields.items ≠ [] := by
              simpa using hempty
            simp only [hempty, hsome, Bool.false_eq_true, if_false, Except.ok.injEq, true_and,
              eq_comm]

/-- **Declarations are planned exactly for a simplifiable enum**, and they are the ones that its
variants call for. -/
theorem generate_ofEnum_eq_planned (e : EnumItem) (decls : List Planned) :
    (Outline.ofEnum e).generate = .ok (.planned decls) ↔ e.Simplifiable ∧ decls = e.planned := by
  rw [Outline.generate_eq_planned_iff]
  simp only [declaration_ofEnum_eq_ok_iff, Declaration.plan_eq_ok_iff]
  constructor
  · rintro ⟨d, ⟨huntaken, hsingle, ⟨v, hv, hcarrying⟩, rfl⟩, husable, rfl⟩
    simp only [Outline.map_name_extractedFrom, Outline.map_snd_variantsFrom,
      namesUsable_variants] at husable
    refine ⟨⟨huntaken, hsingle, ⟨v, hv, ?_⟩, husable⟩, ?_⟩
    · have hpositive := List.length_pos_iff.mpr hcarrying
      have hle := hsingle v hv
      omega
    · simp only [Outline.map_tagVariant_extractedFrom, Outline.map_arm_extractedFrom,
        Outline.map_snd_variantsFrom, EnumItem.planned]
  · rintro ⟨⟨huntaken, hsingle, ⟨v, hv, hcarrying⟩, hdistinct⟩, rfl⟩
    refine ⟨_, ⟨huntaken, hsingle, ⟨v, hv, ?_⟩, rfl⟩, ?_, ?_⟩
    · exact List.length_pos_iff.mp (by omega)
    · simpa only [Outline.map_name_extractedFrom, Outline.map_snd_variantsFrom,
        namesUsable_variants] using hdistinct
    · simp only [Outline.map_tagVariant_extractedFrom, Outline.map_arm_extractedFrom,
        Outline.map_snd_variantsFrom, EnumItem.planned]

end EnumTags

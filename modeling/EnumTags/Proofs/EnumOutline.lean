import EnumTags.Outline.OfItem
import EnumTags.Proofs.AliasNumbering

/-!
# The outline of an enum, node by node

`Outline.ofEnum` builds its nodes by pushing them one after the other, and every push also changes
the node that it hangs the new one on. The result has a plain form all the same: the root, its name,
and then for each variant a block of nodes that stand together. `nodes_ofEnum` is that form;
everything the generator asks of the outline is read off it, block by block.

## Main definitions

* `Outline.variantNodes start v`: the block of a variant whose first node has the number `start`.
* `Outline.variantsFrom`: the variants with the numbers at which their blocks begin.
* `Outline.HasVariant t start v`: the block stands in the outline.
-/

namespace EnumTags.Outline

/-! ## Blocks of nodes -/

/-- The slots of a payload, numbered from `start`. -/
def fieldNodes (clause start : Nat) : List Field → List (Node Span)
  | [] => []
  | f :: fields =>
    ⟨start, .slot (f.label.map Ident.text) f.ty.classify, some clause, [], f.tokens.compact, f.span⟩
      :: fieldNodes clause (start + 1) fields

/-- A payload with its slots. -/
def clauseNodes (variant clause : Nat) (grouping : Grouping) (fields : Fields) (span : Span) :
    List (Node Span) :=
  ⟨clause, .clause (some grouping) (some grouping), some variant,
      List.range' (clause + 1) fields.items.length, fields.tokens.compact, span⟩
    :: fieldNodes clause (clause + 1) fields.items

/-- The brackets of a payload and their place, unless it has none. -/
def brackets? : Fields → Option (Grouping × Span)
  | .unit => none
  | .tuple _ span => some (.paren, span)
  | .record _ span => some (.brace, span)

/-- The payload of a variant, if it has one. -/
def payloadNodes (variant : Nat) (fields : Fields) : List (Node Span) :=
  match brackets? fields with
  | none => []
  | some (grouping, span) => clauseNodes variant (variant + 2) grouping fields span

/-- The payloads of a variant, of which there is at most one. -/
def payloadIds (variant : Nat) (fields : Fields) : List Nat :=
  match brackets? fields with
  | none => []
  | some _ => [variant + 2]

/-- A variant with its name and its payload. -/
def variantNodes (start : Nat) (v : Variant) : List (Node Span) :=
  ⟨start, .variant, some root, (start + 1) :: payloadIds start v.fields, v.tokens.compact, v.span⟩ ::
    ⟨start + 1, .name, some start, [], v.name.ident.text, v.name.span⟩ ::
    payloadNodes start v.fields

/-- The variants, each with the number at which its block begins, from `start` on. -/
def variantsFrom (start : Nat) : List Variant → List (Nat × Variant)
  | [] => []
  | v :: vs => (start, v) :: variantsFrom (start + (variantNodes start v).length) vs

theorem map_snd_variantsFrom (start : Nat) (vs : List Variant) :
    (variantsFrom start vs).map Prod.snd = vs := by
  induction vs generalizing start with
  | nil => rfl
  | cons v vs ih => rw [variantsFrom, List.map_cons, ih]

/-- The blocks of variants, from `start` on. -/
def variantBlocks (start : Nat) : List Variant → List (Node Span)
  | [] => []
  | v :: vs => variantNodes start v ++ variantBlocks (start + (variantNodes start v).length) vs

/-! ## Pushing -/

/-- A node with more children behind those it has. -/
def Node.adopt {σ : Type} (n : Node σ) (ids : List Nat) : Node σ :=
  { n with children := n.children ++ ids }

@[simp] theorem adopt_nil {σ : Type} (n : Node σ) : Node.adopt n [] = n := by
  simp [Node.adopt]

@[simp] theorem adopt_adopt {σ : Type} (n : Node σ) (ids ids' : List Nat) :
    Node.adopt (Node.adopt n ids) ids' = Node.adopt n (ids ++ ids') := by
  simp [Node.adopt]

theorem size_eq {σ : Type} (t : Outline σ) : t.size = t.nodes.toList.length := by
  simp [size]

@[simp] theorem size_push {σ : Type} (t : Outline σ) (parent : Nat) (kind : NodeKind) (text : Text)
    (span : σ) : (t.push parent kind text span).size = t.size + 1 := by
  simp [push, size]

/-- A push gives one node a child more, and adds that child behind all nodes. -/
theorem nodes_push {σ : Type} {t : Outline σ} {before after : List (Node σ)} {n : Node σ}
    {parent : Nat} (h : t.nodes.toList = before ++ n :: after) (hparent : before.length = parent)
    (kind : NodeKind) (text : Text) (span : σ) :
    (t.push parent kind text span).nodes.toList =
      before ++ Node.adopt n [t.size] :: (after ++ [⟨t.size, kind, some parent, [], text, span⟩]) := by
  simp [push, size, h, ← hparent, List.modify_eq_take_drop, Node.adopt]

theorem nodes_push_root {σ : Type} {t : Outline σ} {after : List (Node σ)} {n : Node σ}
    (h : t.nodes.toList = n :: after) (kind : NodeKind) (text : Text) (span : σ) :
    (t.push root kind text span).nodes.toList =
      Node.adopt n [t.size] :: (after ++ [⟨t.size, kind, some root, [], text, span⟩]) := by
  have hroot : t.nodes.toList = [] ++ n :: after := h
  exact nodes_push hroot rfl kind text span

/-- Pushing the fields of a payload gives it one child for each of them. -/
theorem nodes_foldl_pushField {t : Outline Span} {before after : List (Node Span)}
    {n : Node Span} {clause : Nat} (h : t.nodes.toList = before ++ n :: after)
    (hclause : before.length = clause) (fields : List Field) :
    (fields.foldl (pushField clause) t).nodes.toList =
      before ++ Node.adopt n (List.range' t.size fields.length) ::
        (after ++ fieldNodes clause t.size fields) := by
  induction fields generalizing t n after with
  | nil => simp [h, fieldNodes]
  | cons f fields ih =>
      rw [List.foldl_cons, pushField, ih (nodes_push h hclause _ _ _), size_push]
      simp [fieldNodes, List.range'_succ]

/-- Pushing a payload adds its block and makes it a child of its variant. -/
theorem nodes_pushClause {t : Outline Span} {before after : List (Node Span)} {n : Node Span}
    {variant : Nat} (h : t.nodes.toList = before ++ n :: after) (hvariant : before.length = variant)
    (grouping : Grouping) (fields : Fields) (span : Span) :
    (t.pushClause variant grouping fields span).nodes.toList =
      before ++ Node.adopt n [t.size] ::
        (after ++ clauseNodes variant t.size grouping fields span) := by
  have hpush := nodes_push h hvariant (.clause (some grouping) (some grouping))
    fields.tokens.compact span
  rw [← List.cons_append, ← List.append_assoc] at hpush
  have hlength : (before ++ Node.adopt n [t.size] :: after).length = t.size := by
    rw [size_eq, h]
    simp
  rw [pushClause, nodes_foldl_pushField hpush hlength, size_push, clauseNodes]
  simp [Node.adopt]

/-- Pushing a variant adds its block and makes it the last child of the root. -/
theorem nodes_pushVariant {t : Outline Span} {after : List (Node Span)} {n : Node Span}
    (h : t.nodes.toList = n :: after) (v : Variant) :
    (t.pushVariant v).nodes.toList =
      Node.adopt n [t.size] :: (after ++ variantNodes t.size v) := by
  have hpush := nodes_push_root h .variant v.tokens.compact v.span
  have hlength : (Node.adopt n [t.size] :: after).length = t.size := by
    rw [size_eq, h]
    simp
  rw [← List.cons_append] at hpush
  have hname := nodes_push hpush hlength .name v.name.ident.text v.name.span
  rw [size_push] at hname
  cases hfields : v.fields with
  | unit =>
      simp only [pushVariant, pushName, hfields]
      rw [hname]
      simp [variantNodes, payloadNodes, payloadIds, brackets?, Node.adopt, hfields]
  | tuple fs span =>
      simp only [pushVariant, pushName, hfields]
      rw [nodes_pushClause hname hlength]
      simp [variantNodes, payloadNodes, payloadIds, brackets?, Node.adopt, hfields]
  | record fs span =>
      simp only [pushVariant, pushName, hfields]
      rw [nodes_pushClause hname hlength]
      simp [variantNodes, payloadNodes, payloadIds, brackets?, Node.adopt, hfields]

theorem size_pushVariant {t : Outline Span} {after : List (Node Span)} {n : Node Span}
    (h : t.nodes.toList = n :: after) (v : Variant) :
    (t.pushVariant v).size = t.size + (variantNodes t.size v).length := by
  rw [size_eq, nodes_pushVariant h, size_eq, h]
  simp
  omega

theorem nodes_foldl_pushVariant {t : Outline Span} {after : List (Node Span)} {n : Node Span}
    (h : t.nodes.toList = n :: after) (vs : List Variant) :
    (vs.foldl pushVariant t).nodes.toList =
      Node.adopt n ((variantsFrom t.size vs).map Prod.fst) :: (after ++ variantBlocks t.size vs) := by
  induction vs generalizing t n after with
  | nil => simp [h, variantsFrom, variantBlocks]
  | cons v vs ih =>
      rw [List.foldl_cons, ih (nodes_pushVariant h v), size_pushVariant h]
      simp [variantsFrom, variantBlocks]

/-- **The outline of an enum**: the root, its name, and the blocks of the variants. -/
theorem nodes_ofEnum (e : EnumItem) :
    (ofEnum e).nodes.toList =
      ⟨root, .declaration .sum, none, 1 :: (variantsFrom 2 e.variants.items).map Prod.fst,
        e.tokens.compact, e.span⟩ ::
      ⟨1, .name, some root, [], e.name.ident.text, e.name.span⟩ ::
      variantBlocks 2 e.variants.items := by
  have hnew : (new (.declaration .sum) e.tokens.compact e.span).nodes.toList =
      ⟨root, .declaration .sum, none, [], e.tokens.compact, e.span⟩ :: [] := rfl
  have hname := nodes_push_root hnew .name e.name.ident.text e.name.span
  have hsize : ((new (.declaration .sum) e.tokens.compact e.span).push root .name
      e.name.ident.text e.name.span).size = 2 := by
    rw [size_push]
    rfl
  rw [ofEnum, pushName, nodes_foldl_pushVariant hname, hsize]
  simp [Node.adopt, size, new]

/-! ## Reading a block -/

/-- The block of a variant stands in the outline, from the number `start` on. -/
def HasVariant (t : Outline Span) (start : Nat) (v : Variant) : Prop :=
  ∃ before after, t.nodes.toList = before ++ (variantNodes start v ++ after) ∧
    before.length = start

theorem hasVariant_of_blocks {t : Outline Span} {before : List (Node Span)} {start : Nat}
    {vs : List Variant} (h : t.nodes.toList = before ++ variantBlocks start vs)
    (hstart : before.length = start) :
    ∀ p ∈ variantsFrom start vs, t.HasVariant p.1 p.2 := by
  induction vs generalizing before start with
  | nil => simp [variantsFrom]
  | cons v vs ih =>
      rw [variantBlocks] at h
      intro p hp
      rcases List.mem_cons.mp hp with rfl | hp
      · exact ⟨before, _, h, hstart⟩
      · rw [← List.append_assoc] at h
        exact ih h (by rw [List.length_append, hstart]) p hp

/-- Every variant of an enum has its block in the outline. -/
theorem hasVariant_ofEnum (e : EnumItem) :
    ∀ p ∈ variantsFrom 2 e.variants.items, (ofEnum e).HasVariant p.1 p.2 := by
  have hnodes : (ofEnum e).nodes.toList = [_, _] ++ variantBlocks 2 e.variants.items :=
    nodes_ofEnum e
  exact hasVariant_of_blocks hnodes rfl

/-- A node of a block is found under its number. -/
theorem node?_of_append {σ : Type} {t : Outline σ} {before block after : List (Node σ)}
    (h : t.nodes.toList = before ++ (block ++ after)) {k : Nat} {n : Node σ}
    (hk : block[k]? = some n) : t.node? (before.length + k) = some n := by
  rw [node?, ← Array.getElem?_toList, h, List.getElem?_append_right (by omega)]
  have hlt : k < block.length := (List.getElem?_eq_some_iff.mp hk).1
  rw [Nat.add_sub_cancel_left, List.getElem?_append_left hlt, hk]

theorem getElem?_fieldNodes (clause start : Nat) (fields : List Field) (i : Nat) :
    (fieldNodes clause start fields)[i]? =
      fields[i]?.map fun f => ⟨start + i, .slot (f.label.map Ident.text) f.ty.classify, some clause,
        [], f.tokens.compact, f.span⟩ := by
  induction fields generalizing start i with
  | nil => simp [fieldNodes]
  | cons f fields ih =>
      cases i with
      | zero => simp [fieldNodes]
      | succ i =>
          rw [fieldNodes, List.getElem?_cons_succ, ih, List.getElem?_cons_succ]
          simp [Nat.add_assoc, Nat.add_comm 1 i]

namespace HasVariant

variable {t : Outline Span} {start : Nat} {v : Variant}

theorem node?_variant (h : t.HasVariant start v) :
    t.node? start = some ⟨start, .variant, some root, (start + 1) :: payloadIds start v.fields,
      v.tokens.compact, v.span⟩ := by
  obtain ⟨before, after, hnodes, rfl⟩ := h
  exact node?_of_append hnodes (k := 0) rfl

theorem node?_name (h : t.HasVariant start v) :
    t.node? (start + 1) =
      some ⟨start + 1, .name, some start, [], v.name.ident.text, v.name.span⟩ := by
  obtain ⟨before, after, hnodes, rfl⟩ := h
  exact node?_of_append hnodes (k := 1) rfl

theorem node?_clause (h : t.HasVariant start v) {grouping : Grouping} {span : Span}
    (hb : brackets? v.fields = some (grouping, span)) :
    t.node? (start + 2) = some ⟨start + 2, .clause (some grouping) (some grouping), some start,
      List.range' (start + 3) v.fields.items.length, v.fields.tokens.compact, span⟩ := by
  obtain ⟨before, after, hnodes, rfl⟩ := h
  refine node?_of_append hnodes (k := 2) ?_
  simp [variantNodes, payloadNodes, hb, clauseNodes]

theorem node?_slot (h : t.HasVariant start v) {i : Nat} {f : Field}
    (hf : v.fields.items[i]? = some f) :
    t.node? (start + 3 + i) = some ⟨start + 3 + i,
      .slot (f.label.map Ident.text) f.ty.classify, some (start + 2), [], f.tokens.compact,
      f.span⟩ := by
  obtain ⟨before, after, hnodes, rfl⟩ := h
  have hb : ∃ grouping span, brackets? v.fields = some (grouping, span) := by
    cases hfields : v.fields <;> simp [brackets?, Fields.items, hfields] at hf ⊢
  obtain ⟨grouping, span, hb⟩ := hb
  rw [Nat.add_assoc]
  refine node?_of_append hnodes ?_
  rw [variantNodes, payloadNodes, hb, Nat.add_comm 3 i]
  simp [clauseNodes, getElem?_fieldNodes, hf]
  omega

end HasVariant

end EnumTags.Outline

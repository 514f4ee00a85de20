import EnumTags.Proofs.ItemReading
import EnumTags.Proofs.Subtrees
import Mathlib.Data.List.Forall2

/-!
# What an outline shows of an item

An outline is an array of nodes that hold each other's numbers. Read from its root down, without the
numbers, it is a nested tree, a `Layout`. A push adds one leaf to this tree and leaves everything
beside it alone. From this, and from the blocks of nodes of an enum, follows what the outline of any
item shows: its kind, its name, and what is declared in it, in source order and with nothing left out.

## Main definitions

* `Layout`: a nested tree of kinds and texts.
* `Outline.layout?`: the layout from a node down.
* `Item.layout`: the layout that is to be expected of an item.
* `EnumItem.skeleton`: what can be read back of an enum.

## Main results

* `Outline.Linked.layout?_push`: what a push does to a layout.
* `Item.outline_exact`: what the outline of an item shows, and what there is to it.
-/

namespace EnumTags

/-! ## Layouts -/

/-- A nested tree of nodes, without numbers and places. -/
inductive Layout where
  | node (kind : NodeKind) (text : Text) (below : List Layout)

/-- A name shows as a leaf. -/
def Placed.layout (name : Placed) : Layout := .node .name name.ident.text []

/-- A field shows as a slot with the label that is written before it. -/
def Field.layout (label : Option Text) (f : Field) : Layout :=
  .node (.slot label f.ty.classify) f.tokens.compact []

/-- A payload in these brackets shows as a clause with its slots. -/
def Fields.clause (grouping : Grouping) (fields : Fields) (slots : List Layout) : Layout :=
  .node (.clause (some grouping) (some grouping)) fields.tokens.compact slots

/-- Fields show as one clause, in the brackets that they are written in, unless there are none at
all. Only fields in curly brackets have labels. -/
def Fields.layouts : Fields → List Layout
  | .unit => []
  | .tuple fields span =>
    [Fields.clause .paren (.tuple fields span) (fields.items.map (Field.layout none))]
  | .record fields span =>
    [Fields.clause .brace (.record fields span)
      (fields.items.map fun f => f.layout (f.label.map Ident.text))]

/-- A variant shows with its name first. -/
def Variant.layout (v : Variant) : Layout :=
  .node .variant v.tokens.compact (v.name.layout :: v.fields.layouts)

/-- An enum shows with its name first, and then its variants. -/
def EnumItem.layout (e : EnumItem) : Layout :=
  .node (.declaration .sum) e.tokens.compact
    (e.name.layout :: e.variants.items.map Variant.layout)

/-- Anything else shows with its name, if it has one, before what is in it. -/
def Plain.layout (kind : NodeKind) (inside : List Layout) (p : Plain) : Layout :=
  .node kind p.tokens.compact ((p.name.map Placed.layout).toList ++ inside)

/-- The layout of an item. Only enums and modules show what is in them, and a module shows no more
of its items than their names. -/
def Item.layout : Item → Layout
  | .enum e => e.layout
  | .product p => p.layout (.declaration .product) []
  | .module p items => p.layout (.declaration .other) (items.map (Plain.layout .nested []))
  | .other p => p.layout (.declaration .other) []

namespace Outline

variable {σ : Type}

/-- The layout from a node down, provided that nothing lies `levels` levels below it. -/
def layout? (t : Outline σ) : (levels id : Nat) → Option Layout
  | 0, _ => none
  | levels + 1, id =>
    (t.node? id).bind fun n => (n.children.mapM (t.layout? levels)).map (.node n.kind n.text)

/-- The nodes with these numbers show these layouts, in turn. -/
def Show (t : Outline σ) (levels : Nat) (ids : List Nat) (layouts : List Layout) : Prop :=
  List.Forall₂ (fun id layout => t.layout? levels id = some layout) ids layouts

theorem mapM_layout?_eq_some_iff {t : Outline σ} {levels : Nat} {ids : List Nat}
    {layouts : List Layout} :
    ids.mapM (t.layout? levels) = some layouts ↔ t.Show levels ids layouts := by
  induction ids generalizing layouts with
  | nil => simp [Show, eq_comm]
  | cons id ids ih =>
      simp only [List.mapM_cons, Option.bind_eq_bind, Option.bind_eq_some_iff, ih, Option.pure_def,
        Option.some.injEq, Show, List.forall₂_cons_left_iff]
      constructor
      · rintro ⟨first, hfirst, rest, hrest, rfl⟩
        exact ⟨first, rest, hfirst, hrest, rfl⟩
      · rintro ⟨first, rest, hfirst, hrest, rfl⟩
        exact ⟨first, hfirst, rest, hrest, rfl⟩

/-- The layout of a node is its own kind and text above the layouts of its children. -/
theorem layout?_eq_some_iff {t : Outline σ} {levels id : Nat} {layout : Layout} :
    t.layout? (levels + 1) id = some layout ↔
      ∃ n layouts, t.node? id = some n ∧ t.Show levels n.children layouts ∧
        layout = .node n.kind n.text layouts := by
  simp only [layout?, Option.bind_eq_some_iff, Option.map_eq_some_iff, mapM_layout?_eq_some_iff]
  constructor
  · rintro ⟨n, hn, layouts, hshow, rfl⟩
    exact ⟨n, layouts, hn, hshow, rfl⟩
  · rintro ⟨n, layouts, hn, hshow, rfl⟩
    exact ⟨n, hn, layouts, hshow, rfl⟩

theorem layout?_of_node? {t : Outline σ} {levels id i : Nat} {kind : NodeKind}
    {parent : Option Nat} {children : List Nat} {text : Text} {span : σ} {layouts : List Layout}
    (hn : t.node? id = some ⟨i, kind, parent, children, text, span⟩)
    (hshow : t.Show levels children layouts) :
    t.layout? (levels + 1) id = some (.node kind text layouts) :=
  layout?_eq_some_iff.mpr ⟨_, layouts, hn, hshow, rfl⟩

/-- A node without children shows as a leaf. -/
theorem layout?_leaf {t : Outline σ} {id i : Nat} {kind : NodeKind} {parent : Option Nat}
    {text : Text} {span : σ} (hn : t.node? id = some ⟨i, kind, parent, [], text, span⟩)
    (levels : Nat) : t.layout? (levels + 1) id = some (.node kind text []) :=
  layout?_of_node? hn .nil

/-- What each of the nodes shows elsewhere, they show in turn. -/
theorem Show.imp {t t' : Outline σ} {levels levels' : Nat} {ids : List Nat}
    {layouts : List Layout} (h : t.Show levels ids layouts)
    (hsame : ∀ id ∈ ids, ∀ layout, t.layout? levels id = some layout →
      t'.layout? levels' id = some layout) : t'.Show levels' ids layouts := by
  obtain ⟨hlength, heach⟩ := List.forall₂_iff_zip.mp h
  refine List.forall₂_iff_zip.mpr ⟨hlength, fun {id layout} hmem => ?_⟩
  exact hsame id (List.of_mem_zip hmem).1 layout (heach hmem)

/-- A layout that was read down to its leaves leaves nothing out. -/
theorem not_reaches_of_layout? {t : Outline σ} {levels id : Nat} {layout : Layout}
    (h : t.layout? levels id = some layout) : t.reaches levels id = false := by
  induction levels generalizing id layout with
  | zero => cases h
  | succ levels ih =>
      obtain ⟨n, layouts, hn, hshow, -⟩ := layout?_eq_some_iff.mp h
      rw [reaches_succ_eq_false, children_eq_of_node? hn]
      intro child hchild
      obtain ⟨i, hi, rfl⟩ := List.getElem_of_mem hchild
      obtain ⟨hlength, heach⟩ := List.forall₂_iff_get.mp hshow
      exact ih (heach i hi (hlength ▸ hi))

/-! ## Enums -/

namespace HasVariant

variable {t : Outline Span} {start : Nat} {v : Variant}

/-- The slots of a variant show its fields in order. -/
theorem show_slots (h : t.HasVariant start v) (levels : Nat) :
    t.Show (levels + 1) (List.range' (start + 3) v.fields.items.length)
      (v.fields.items.map fun f => f.layout (f.label.map Ident.text)) := by
  refine List.forall₂_iff_get.mpr ⟨by simp, fun i hi hi' => ?_⟩
  rw [List.length_range'] at hi
  have hslot := h.node?_slot (List.getElem?_eq_getElem hi)
  simpa [Field.layout] using layout?_leaf hslot levels

/-- The payload of a variant shows its fields. -/
theorem show_payload (h : t.HasVariant start v) (hlabels : v.fields.Labelled) :
    t.Show 2 (payloadIds start v.fields) v.fields.layouts := by
  have hclause : ∀ {grouping : Grouping} {span : Span},
      brackets? v.fields = some (grouping, span) →
      t.layout? 2 (start + 2) = some (v.fields.clause grouping
        (v.fields.items.map fun f => f.layout (f.label.map Ident.text))) :=
    fun hb => layout?_of_node? (h.node?_clause hb) (h.show_slots 0)
  cases hfields : v.fields with
  | unit => exact .nil
  | tuple fields span =>
      rw [hfields] at hclause hlabels
      have hnone : fields.items.map (fun f => f.layout (f.label.map Ident.text)) =
          fields.items.map (Field.layout none) := by
        refine List.map_congr_left fun f hf => ?_
        rw [hlabels f hf, Option.map_none]
      refine .cons ?_ .nil
      rw [hclause rfl, Fields.items, hnone]
  | record fields span =>
      rw [hfields] at hclause
      exact .cons (hclause rfl) .nil

/-- The block of a variant shows the variant. -/
theorem layout?_eq (h : t.HasVariant start v) (hlabels : v.fields.Labelled) :
    t.layout? 3 start = some v.layout := by
  have hname := layout?_leaf h.node?_name 1
  exact layout?_of_node? h.node?_variant (.cons hname (h.show_payload hlabels))

end HasVariant

/-- The outline of an enum shows the enum. -/
theorem layout?_ofEnum (e : EnumItem) (hlabels : e.Labelled) :
    (ofEnum e).layout? 4 root = some e.layout := by
  have hname := layout?_leaf (node?_name_ofEnum e) 2
  have hvariants : (ofEnum e).Show 3 ((variantsFrom 2 e.variants.items).map Prod.fst)
      (((variantsFrom 2 e.variants.items).map Prod.snd).map Variant.layout) := by
    rw [List.map_map, Show, List.forall₂_map_left_iff, List.forall₂_map_right_iff]
    refine List.forall₂_same.mpr fun p hp => ?_
    have hmem := List.mem_map_of_mem (f := Prod.snd) hp
    rw [map_snd_variantsFrom] at hmem
    exact (hasVariant_ofEnum e p hp).layout?_eq (hlabels p.2 hmem)
  rw [map_snd_variantsFrom] at hvariants
  exact layout?_of_node? (node?_root_ofEnum e) (.cons hname hvariants)

/-! ## Pushes -/

/-- A new node shows as a leaf. -/
theorem layout?_push_new (t : Outline σ) (parent : Nat) (kind : NodeKind) (text : Text) (span : σ)
    (levels : Nat) :
    (t.push parent kind text span).layout? (levels + 1) t.size = some (.node kind text []) := by
  have hnew := node?_push t parent kind text span t.size
  rw [if_pos rfl] at hnew
  exact layout?_leaf hnew levels

/-- What is not above the new node shows as before. -/
theorem layout?_push_of_not_below {t : Outline σ} {parent : Nat} (kind : NodeKind) (text : Text)
    (span : σ) {levels id : Nat} {layout : Layout} (hbeside : ∀ depth, ¬ t.Below id parent depth)
    (h : t.layout? levels id = some layout) :
    (t.push parent kind text span).layout? levels id = some layout := by
  induction levels generalizing id layout with
  | zero => cases h
  | succ levels ih =>
      obtain ⟨n, layouts, hn, hshow, rfl⟩ := layout?_eq_some_iff.mp h
      have hne : id ≠ parent := by
        rintro rfl
        exact hbeside 0 .self
      have hnode := node?_push_of_ne hn hne kind text span
      refine layout?_of_node? hnode (hshow.imp fun c hc layout hlayout => ?_)
      rw [← children_eq_of_node? hn] at hc
      exact ih (fun depth hbelow => hbeside (depth + 1) (.of_child hc hbelow)) hlayout

namespace Linked

variable {t : Outline σ}

/-- The children of the node that a push is made below show as before. -/
theorem show_push (h : t.Linked) {levels id : Nat} {layouts : List Layout} {n : Node σ}
    (hn : t.node? id = some n) (hshow : t.Show levels n.children layouts) (kind : NodeKind)
    (text : Text) (span : σ) : (t.push id kind text span).Show levels n.children layouts := by
  refine hshow.imp fun c hc layout hshown => ?_
  rw [← children_eq_of_node? hn] at hc
  exact layout?_push_of_not_below kind text span (fun _ => h.not_below_of_mem_children hc) hshown

/-- The node that a push is made below shows one leaf more, behind all that it showed. -/
theorem layout?_push (h : t.Linked) {levels id : Nat} {k : NodeKind} {s : Text}
    {layouts : List Layout} (hlayout : t.layout? (levels + 2) id = some (.node k s layouts))
    (kind : NodeKind) (text : Text) (span : σ) :
    (t.push id kind text span).layout? (levels + 2) id =
      some (.node k s (layouts ++ [.node kind text []])) := by
  obtain ⟨n, _, hn, hshow, heq⟩ := layout?_eq_some_iff.mp hlayout
  cases heq
  have hnode := node?_push_self hn kind text span
  have hkept := h.show_push hn hshow kind text span
  have hnew := layout?_push_new t id kind text span levels
  exact layout?_of_node? hnode (List.rel_append hkept (.cons hnew .nil))

/-- Above the node that a push is made below, its last child shows one leaf more. -/
theorem layout?_push_last (h : t.Linked) {levels id c i : Nat} {k k' : NodeKind}
    {parent : Option Nat} {ids : List Nat} {s s' : Text} {place : σ} {layouts inner : List Layout}
    (hn : t.node? id = some ⟨i, k, parent, ids ++ [c], s, place⟩)
    (hshow : t.Show (levels + 2) ids layouts)
    (hlast : t.layout? (levels + 2) c = some (.node k' s' inner)) (kind : NodeKind) (text : Text)
    (span : σ) :
    (t.push c kind text span).layout? (levels + 3) id =
      some (.node k s (layouts ++ [.node k' s' (inner ++ [.node kind text []])])) := by
  have hchildren := children_eq_of_node? hn
  have hc : c ∈ t.children id := by simp [hchildren]
  have hlt := h.lt_of_mem_children hc
  have hnode := node?_push_of_ne hn (Nat.ne_of_lt hlt) kind text span
  have hkept : (t.push c kind text span).Show (levels + 2) ids layouts := by
    refine hshow.imp fun d hd layout hshown => ?_
    have hd' : d ∈ t.children id := by simp [hchildren, hd]
    -- children are listed in order, so the last one is not among those before it
    have hsorted := h.children_sorted id
    rw [hchildren, List.pairwise_append] at hsorted
    have hdc : d < c := hsorted.2.2 d hd c (List.mem_singleton_self c)
    exact layout?_push_of_not_below kind text span
      (fun _ => h.not_below_sibling hd' hc (Nat.ne_of_lt hdc)) hshown
  exact layout?_of_node? hnode (List.rel_append hkept (.cons (h.layout?_push hlast _ _ _) .nil))

end Linked

/-! ## Items other than enums -/

theorem layout?_new (kind : NodeKind) (text : Text) (span : σ) (levels : Nat) :
    (new kind text span).layout? (levels + 1) root = some (.node kind text []) := by
  have hroot : (new kind text span).node? root = some ⟨root, kind, none, [], text, span⟩ := rfl
  exact layout?_leaf hroot levels

/-- The outline of an item that is only its kind and its name shows just these. -/
theorem layout?_ofPlain (kind : DeclKind) (p : Plain) (levels : Nat) :
    (ofPlain kind p).layout? (levels + 2) root = some (p.layout (.declaration kind) []) := by
  have hnew := layout?_new (.declaration kind) p.tokens.compact p.span (levels + 1)
  rw [ofPlain, Plain.layout]
  cases p.name with
  | none => exact hnew
  | some name => exact (linked_new _ _ _).layout?_push hnew .name name.ident.text name.span

/-- An item of a module shows behind all that the root showed. -/
theorem Linked.layout?_pushNested {t : Outline Span} (h : t.Linked) {levels : Nat} {k : NodeKind}
    {s : Text} {layouts : List Layout}
    (hlayout : t.layout? (levels + 3) root = some (.node k s layouts)) (p : Plain) :
    (t.pushNested p).layout? (levels + 3) root =
      some (.node k s (layouts ++ [p.layout .nested []])) := by
  rw [Outline.pushNested, Plain.layout]
  cases p.name with
  | none => exact h.layout?_push hlayout .nested p.tokens.compact p.span
  | some name =>
      obtain ⟨n, _, hn, hshow, heq⟩ := layout?_eq_some_iff.mp hlayout
      cases heq
      have hnode := node?_push_self hn .nested p.tokens.compact p.span
      have hnew := layout?_push_new t root .nested p.tokens.compact p.span (levels + 1)
      have hkept := h.show_push hn hshow .nested p.tokens.compact p.span
      exact (h.push h.size_pos _ _ _).layout?_push_last hnode hkept hnew .name name.ident.text
        name.span

/-! ## Items of any kind -/

namespace Built

variable {t : Outline Span}

theorem foldl_pushField (h : t.Built) {clause : Nat} (hclause : clause < t.size)
    (fields : List Field) : (fields.foldl (pushField clause) t).Built := by
  induction fields generalizing t with
  | nil => exact h
  | cons f fields ih =>
      refine ih (h.push hclause _ _ _) ?_
      rw [pushField, size_push]
      omega

theorem pushClause (h : t.Built) {variant : Nat} (hvariant : variant < t.size) (grouping : Grouping)
    (fields : Fields) (span : Span) : (t.pushClause variant grouping fields span).Built := by
  refine (h.push hvariant _ _ _).foldl_pushField ?_ fields.items
  rw [size_push]
  omega

theorem pushVariant (h : t.Built) (v : Variant) : (t.pushVariant v).Built := by
  have hvariant := h.push h.linked.size_pos .variant v.tokens.compact v.span
  have hlt : t.size < (t.push root .variant v.tokens.compact v.span).size := by
    rw [size_push]
    omega
  have hname := hvariant.push hlt .name v.name.ident.text v.name.span
  have hlt' : t.size < ((t.push root .variant v.tokens.compact v.span).push t.size .name
      v.name.ident.text v.name.span).size := by
    rw [size_push]
    omega
  rw [Outline.pushVariant]
  cases v.fields with
  | unit => exact hname
  | tuple fields span => exact hname.pushClause hlt' .paren _ span
  | record fields span => exact hname.pushClause hlt' .brace _ span

theorem pushNested (h : t.Built) (p : Plain) : (t.pushNested p).Built := by
  have hnested := h.push h.linked.size_pos .nested p.tokens.compact p.span
  rw [Outline.pushNested]
  cases p.name with
  | none => exact hnested
  | some name =>
      refine hnested.push ?_ _ _ _
      rw [size_push]
      omega

theorem foldl {α : Type} {f : Outline Span → α → Outline Span}
    (hf : ∀ t a, Built t → Built (f t a)) (h : t.Built) (as : List α) : (as.foldl f t).Built := by
  induction as generalizing t with
  | nil => exact h
  | cons a as ih => exact ih (hf t a h)

end Built

theorem built_ofPlain (kind : DeclKind) (p : Plain) : (ofPlain kind p).Built := by
  rw [ofPlain]
  cases p.name with
  | none => exact .new _ _ _
  | some name => exact .push (.new _ _ _) (linked_new _ _ _).size_pos _ _ _

/-- The outline of an item is built. -/
theorem built_ofItem (item : Item) : (ofItem item).Built := by
  cases item with
  | enum e =>
      have hname := Built.push (.new (.declaration .sum) e.tokens.compact e.span)
        (linked_new _ _ _).size_pos .name e.name.ident.text e.name.span
      exact hname.foldl (fun t v ht => ht.pushVariant v) e.variants.items
  | product p => exact built_ofPlain .product p
  | module p items => exact (built_ofPlain .other p).foldl (fun t p ht => ht.pushNested p) items
  | other p => exact built_ofPlain .other p

/-- The items of a module show in turn. -/
theorem Built.layout?_foldl_pushNested {t : Outline Span} (h : t.Built) {levels : Nat}
    {k : NodeKind} {s : Text} {layouts : List Layout}
    (hlayout : t.layout? (levels + 3) root = some (.node k s layouts)) (items : List Plain) :
    (items.foldl Outline.pushNested t).layout? (levels + 3) root =
      some (.node k s (layouts ++ items.map (Plain.layout .nested []))) := by
  induction items generalizing t layouts with
  | nil => simpa using hlayout
  | cons p items ih =>
      have hfirst := ih (h.pushNested p) (h.linked.layout?_pushNested hlayout p)
      simpa using hfirst

/-- The outline of an item shows the item. -/
theorem layout?_ofItem (item : Item) (hlabels : item.Labelled) :
    (ofItem item).layout? 4 root = some item.layout := by
  cases item with
  | enum e => exact layout?_ofEnum e (hlabels e rfl)
  | product p => exact layout?_ofPlain .product p 2
  | module p items =>
      have hbare := layout?_ofPlain .other p 2
      have hitems := (built_ofPlain .other p).layout?_foldl_pushNested hbare items
      simpa [ofItem, Item.layout, Plain.layout] using hitems
  | other p => exact layout?_ofPlain .other p 2

/-- Nothing lies further below the root than its layout was read. -/
theorem depth_le_of_layout? {t : Outline σ} (h : t.Linked) {levels : Nat} {layout : Layout}
    (hlayout : t.layout? (levels + 1) root = some layout) {id depth : Nat}
    (hbelow : t.Below root id depth) : depth ≤ levels := by
  by_contra hdeep
  have hreach : t.reaches (levels + 1) root = true :=
    (h.reaches_iff_exists_below h.size_pos (levels + 1)).mpr ⟨id, depth, hbelow, by omega⟩
  rw [not_reaches_of_layout? hlayout] at hreach
  cases hreach

end Outline

/-! ## Reading back an enum -/

/-- The brackets of a payload, and the label and the type of each field in them. -/
structure PayloadSkeleton where
  grouping : Grouping
  slots : List (Option Text × TypeText)
deriving DecidableEq, Repr

/-- The name of a variant, and its payload if there is one. -/
structure VariantSkeleton where
  name : Text
  payload : Option PayloadSkeleton
deriving DecidableEq, Repr

/-- What generation depends on in an enum: its name and its variants. -/
structure EnumSkeleton where
  name : Text
  variants : List VariantSkeleton
deriving DecidableEq, Repr

/-- The skeleton of the fields of a variant. -/
def Fields.skeleton : Fields → Option PayloadSkeleton
  | .unit => none
  | .tuple fields _ => some ⟨.paren, fields.items.map fun f => (none, f.ty.classify)⟩
  | .record fields _ =>
    some ⟨.brace, fields.items.map fun f => (f.label.map Ident.text, f.ty.classify)⟩

/-- The skeleton of a variant. -/
def Variant.skeleton (v : Variant) : VariantSkeleton := ⟨v.name.ident.text, v.fields.skeleton⟩

/-- The skeleton of an enum. -/
def EnumItem.skeleton (e : EnumItem) : EnumSkeleton :=
  ⟨e.name.ident.text, e.variants.items.map Variant.skeleton⟩

namespace Layout

/-- Reads a slot back. -/
def slot? : Layout → Option (Option Text × TypeText)
  | .node (.slot label ty) _ [] => some (label, ty)
  | _ => none

/-- Reads a payload back, whose brackets have to be the same. -/
def clause? : Layout → Option PayloadSkeleton
  | .node (.clause (some opened) (some closed)) _ slots =>
    if opened = closed then (slots.mapM slot?).map (PayloadSkeleton.mk opened) else none
  | _ => none

/-- Reads a variant back. -/
def variant? : Layout → Option VariantSkeleton
  | .node .variant _ [.node .name name []] => some ⟨name, none⟩
  | .node .variant _ [.node .name name [], clause] => clause.clause?.map fun c => ⟨name, some c⟩
  | _ => none

/-- Reads an enum back. -/
def skeleton? : Layout → Option EnumSkeleton
  | .node (.declaration .sum) _ (.node .name name [] :: variants) =>
    (variants.mapM variant?).map (EnumSkeleton.mk name)
  | _ => none

/-- What can be read back one by one can be read back in a list. -/
theorem mapM_map_eq_some {α β : Type} {write : α → Layout} {read : Layout → Option β} {what : α → β}
    (h : ∀ a, read (write a) = some (what a)) (as : List α) :
    (as.map write).mapM read = some (as.map what) := by
  induction as with
  | nil => rfl
  | cons a as ih => simp [h, ih]

theorem clause?_clause (grouping : Grouping) (fields : Fields) (label : Field → Option Text)
    (fs : List Field) :
    clause? (fields.clause grouping (fs.map fun f => f.layout (label f))) =
      some ⟨grouping, fs.map fun f => (label f, f.ty.classify)⟩ := by
  have hslot : ∀ f : Field, slot? (f.layout (label f)) = some (label f, f.ty.classify) :=
    fun f => rfl
  rw [Fields.clause, clause?, if_pos rfl, mapM_map_eq_some hslot, Option.map_some]

theorem variant?_layout (v : Variant) : variant? v.layout = some v.skeleton := by
  rw [Variant.layout, Placed.layout, Variant.skeleton]
  cases v.fields with
  | unit => rfl
  | tuple fields span =>
      rw [Fields.layouts, variant?, clause?_clause .paren _ fun _ => none]
      rfl
  | record fields span =>
      rw [Fields.layouts, variant?, clause?_clause .brace]
      rfl

/-- An enum can be read back from what it shows. -/
theorem skeleton?_layout (e : EnumItem) : skeleton? e.layout = some e.skeleton := by
  rw [EnumItem.layout, Placed.layout, skeleton?, mapM_map_eq_some variant?_layout, Option.map_some,
    EnumItem.skeleton]

end Layout

/-! ## Types in brackets -/

/-- Brackets around a type: parentheses, or brackets that are not written. -/
inductive Wrapping where
  | parens
  | unwritten
deriving DecidableEq, Repr

namespace Ty

/-- The type in these brackets, the outermost first. -/
def wrapped (t : Ty) : List Wrapping → Ty
  | [] => t
  | .parens :: ws => .paren (t.wrapped ws)
  | .unwritten :: ws => .group (t.wrapped ws)

/-- Whether the type is a path, possibly one that begins at a type. -/
def isPath : Ty → Bool
  | .path .. => true
  | .qualified .. => true
  | _ => false

theorem exists_wrapped (t : Ty) : ∃ ws, t = t.peeled.wrapped ws := by
  induction t using bracketsInduction with
  | paren inner ih =>
      obtain ⟨ws, hws⟩ := ih
      exact ⟨.parens :: ws, congrArg Ty.paren hws⟩
  | group inner ih =>
      obtain ⟨ws, hws⟩ := ih
      exact ⟨.unwritten :: ws, congrArg Ty.group hws⟩
  | bare t h => exact ⟨[], (peeled_of_bare h).symm⟩

theorem peeled_wrapped (t : Ty) (ws : List Wrapping) : (t.wrapped ws).peeled = t.peeled := by
  induction ws with
  | nil => rfl
  | cons w ws ih => cases w <;> rwa [wrapped, peeled]

/-- What a type is inside its brackets. -/
theorem exists_wrapped_iff {is : Ty → Bool} (hbare : ∀ t, is t = true → t.isBracketed = false)
    (t : Ty) :
    (∃ (ws : List Wrapping) (inner : Ty), t = inner.wrapped ws ∧ is inner = true) ↔
      is t.peeled = true := by
  constructor
  · rintro ⟨ws, inner, rfl, his⟩
    rwa [peeled_wrapped, peeled_of_bare (hbare inner his)]
  · intro his
    obtain ⟨ws, hws⟩ := t.exists_wrapped
    exact ⟨ws, t.peeled, hws, his⟩

theorem classify_eq_function_iff (t : Ty) :
    (∃ params result source, t.classify = .function params result source) ↔
      ∃ (ws : List Wrapping) (inner : Ty), t = inner.wrapped ws ∧ inner.isFunction = true := by
  have hbare : ∀ u : Ty, u.isFunction = true → u.isBracketed = false := by
    intro u hu
    cases u <;> first | rfl | cases hu
  rw [exists_wrapped_iff hbare, ← isFunction_classify]
  cases t.classify <;> simp [TypeText.isFunction]

theorem classify_eq_named_iff (t : Ty) :
    (∃ text, t.classify = .named text) ↔
      ∃ (ws : List Wrapping) (inner : Ty), t = inner.wrapped ws ∧ inner.isPath = true := by
  have hbare : ∀ u : Ty, u.isPath = true → u.isBracketed = false := by
    intro u hu
    cases u <;> first | rfl | cases hu
  have hinside := t.isBracketed_peeled
  rw [exists_wrapped_iff hbare, ← classify_peeled]
  cases h : t.peeled with
  | paren inner => rw [h] at hinside; cases hinside
  | group inner => rw [h] at hinside; cases hinside
  | _ => simp [classify, isPath]

/-- Where all brackets are written, they are parentheses. -/
theorem Written.eq_parens {t : Ty} {ws : List Wrapping} (h : (t.wrapped ws).Written) :
    ∀ w ∈ ws, w = .parens := by
  induction ws with
  | nil => simp
  | cons w ws ih =>
      cases w with
      | parens => exact List.forall_mem_cons.mpr ⟨rfl, ih h⟩
      | unwritten => cases h

end Ty

/-! ## What was read -/

/-- The skeleton of the enum that an outline shows, if it shows one. -/
def Outline.skeleton? {σ : Type} (t : Outline σ) : Option EnumSkeleton :=
  (t.layout? 4 root).bind Layout.skeleton?

/-- **An outline loses nothing of its item.** Labels go with brackets in every item that was read.
The outline of any such item is a tree with nothing more than three levels below its root, and from
the root down it shows the item: an enum with its name, its variants, their payloads and their fields
in source order, a module with its items, anything else with its name alone. The skeleton of an enum
can be read back. A slot is a function exactly for an inline function, and named exactly for a path,
in any number of brackets, which are missing in its text; in what was read these are parentheses. -/
theorem Item.outline_exact :
    (∀ ls item, Item.read ls = .ok item → item.Labelled ∧ item.Written) ∧
    (∀ item : Item, item.Labelled →
      (Outline.ofItem item).Built ∧ (Outline.ofItem item).Linked ∧
      (∀ id depth, (Outline.ofItem item).Below Outline.root id depth → depth ≤ 3) ∧
      (Outline.ofItem item).layout? 4 Outline.root = some item.layout ∧
      ∀ e, item = .enum e → (Outline.ofItem item).skeleton? = some e.skeleton) ∧
    ∀ ty : Ty,
      ((∃ params result source, ty.classify = .function params result source) ↔
        ∃ (ws : List Wrapping) (inner : Ty), ty = inner.wrapped ws ∧ inner.isFunction = true) ∧
      ((∃ text, ty.classify = .named text) ↔
        ∃ (ws : List Wrapping) (inner : Ty), ty = inner.wrapped ws ∧ inner.isPath = true) ∧
      (∃ (ws : List Wrapping) (inner : Ty), ty = inner.wrapped ws ∧ inner.isBracketed = false ∧
        ty.classify.text = inner.tokens.compact) ∧
      (ty.Written → ∀ (ws : List Wrapping) (inner : Ty), ty = inner.wrapped ws →
        ∀ w ∈ ws, w = .parens) := by
  refine ⟨fun ls item h => Item.proper_of_read h, fun item hlabels => ?_, fun ty => ?_⟩
  · have hbuilt := Outline.built_ofItem item
    have hlayout := Outline.layout?_ofItem item hlabels
    refine ⟨hbuilt, hbuilt.linked, ?_, hlayout, ?_⟩
    · intro id depth hbelow
      exact Outline.depth_le_of_layout? hbuilt.linked hlayout hbelow
    · rintro e rfl
      rw [Outline.skeleton?, hlayout, Option.bind_some]
      exact Layout.skeleton?_layout e
  · refine ⟨ty.classify_eq_function_iff, ty.classify_eq_named_iff, ?_, ?_⟩
    · obtain ⟨ws, hws⟩ := ty.exists_wrapped
      exact ⟨ws, ty.peeled, hws, ty.isBracketed_peeled, ty.text_classify⟩
    · rintro hwritten ws inner rfl
      exact hwritten.eq_parens

/-- An enum with empty brackets, a raw label, and types in parentheses. -/
def bracketed : List Lexeme :=
  (lex? "enum r#E \x7b A, B(), C \x7b r#in: ((fn(u8) -> W)) \x7d, D((v::W)) \x7d").getD []

/-- An enum that a macro makes of two types: what it was handed stands in brackets that are not
written. -/
def handedOver : EnumItem where
  attributes := []
  visibility := []
  name := ⟨.plain "Pasted", default⟩
  named := by decide
  generics := .empty
  variants :=
    ⟨[⟨[], ⟨.plain "Callback", default⟩, by decide,
        .tuple ⟨[⟨[], [], none, .group (.function [] [] false [] none), default⟩], false⟩ default,
        none, default⟩,
      ⟨[], ⟨.plain "Count", default⟩, by decide,
        .tuple ⟨[⟨[], [], none, .paren (.group (.path false [.mk (.plain "usize") .none])), default⟩],
          false⟩ default, none, default⟩], false⟩
  span := default

theorem outline_exact_bracketed :
    (∃ e, Item.read bracketed = .ok (.enum e) ∧
      (Outline.ofItem (.enum e)).skeleton? = some ⟨"r#E",
        [⟨"A", none⟩, ⟨"B", some ⟨.paren, []⟩⟩,
         ⟨"C", some ⟨.brace, [(some "r#in", .function ["u8"] (some "W") "fn(u8) -> W")]⟩⟩,
         ⟨"D", some ⟨.paren, [(none, .named "v::W")]⟩⟩]⟩) ∧
    (Outline.ofItem (.enum handedOver)).skeleton? = some ⟨"Pasted",
      [⟨"Callback", some ⟨.paren, [(none, .function [] none "fn()")]⟩⟩,
       ⟨"Count", some ⟨.paren, [(none, .named "usize")]⟩⟩]⟩ := by
  obtain ⟨hproper, hshown, -⟩ := Item.outline_exact
  constructor
  · have hskeleton : (EnumItem.read? bracketed).map EnumItem.skeleton = some ⟨"r#E",
        [⟨"A", none⟩, ⟨"B", some ⟨.paren, []⟩⟩,
         ⟨"C", some ⟨.brace, [(some "r#in", .function ["u8"] (some "W") "fn(u8) -> W")]⟩⟩,
         ⟨"D", some ⟨.paren, [(none, .named "v::W")]⟩⟩]⟩ := by
      decide +kernel
    obtain ⟨e, hread, he⟩ := Option.map_eq_some_iff.mp hskeleton
    have hitem : Item.read bracketed = .ok (.enum e) := by
      rw [EnumItem.read?] at hread
      split at hread
      · rename_i e' he'
        cases hread
        exact he'
      · cases hread
    obtain ⟨-, -, -, -, hback⟩ := hshown _ (hproper _ _ hitem).1
    exact ⟨e, hitem, (hback e rfl).trans (congrArg some he)⟩
  · have hlabels : (Item.enum handedOver).Labelled := by
      rintro e ⟨⟩
      simp [EnumItem.Labelled, handedOver, Fields.Labelled]
    have hskeleton : handedOver.skeleton = ⟨"Pasted",
        [⟨"Callback", some ⟨.paren, [(none, .function [] none "fn()")]⟩⟩,
         ⟨"Count", some ⟨.paren, [(none, .named "usize")]⟩⟩]⟩ := by
      decide +kernel
    obtain ⟨-, -, -, -, hback⟩ := hshown _ hlabels
    exact (hback handedOver rfl).trans (congrArg some hskeleton)

end EnumTags

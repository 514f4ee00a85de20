import EnumTags.Proofs.EnumOutline
import Mathlib.Data.List.Nodup

/-!
# Parents and children

An outline keeps the relation between parents and children twice: every node has the number of its
parent, and every node has the numbers of its children. Searches upward follow the first and searches
downward the second. `Linked` says that the two agree, that parents come before their children, and
that every number leads to a node; it holds of a new outline and is kept by every push, so it holds of
every outline that was built. What follows is a tree: one path leads from the root to each node.

## Main definitions

* `Outline.Built`: the outline was made by pushes below nodes that it had.
* `Outline.Linked`: the links of an outline agree.
* `Outline.Path`: a way from the root down to a node.
-/

namespace EnumTags.Outline

variable {σ : Type}

/-- The outline was made from a single node by pushes below nodes that it had. -/
inductive Built : Outline σ → Prop
  | new (kind : NodeKind) (text : Text) (span : σ) : Built (new kind text span)
  | push {t : Outline σ} {parent : Nat} (built : Built t) (hparent : parent < t.size)
      (kind : NodeKind) (text : Text) (span : σ) : Built (t.push parent kind text span)

/-- The parent of a node. -/
def parent? (t : Outline σ) (id : Nat) : Option Nat := (t.node? id).bind Node.parent

/-- The links of an outline agree with each other and lead to nodes. -/
structure Linked (t : Outline σ) : Prop where
  size_pos : 0 < t.size
  id_eq : ∀ {i : Nat} {n : Node σ}, t.node? i = some n → n.id = i
  root_parent : t.parent? root = none
  exists_parent : ∀ {i : Nat}, i < t.size → i ≠ root → ∃ p < i, t.parent? i = some p
  mem_children_iff : ∀ {p c : Nat}, c ∈ t.children p ↔ t.parent? c = some p
  children_sorted : ∀ i, (t.children i).Pairwise (· < ·)

/-! ## Looking up -/

theorem node?_eq_none_iff {t : Outline σ} {id : Nat} : t.node? id = none ↔ t.size ≤ id := by
  simp [node?, size]

theorem exists_node? {t : Outline σ} {id : Nat} (h : id < t.size) : ∃ n, t.node? id = some n := by
  cases hn : t.node? id with
  | some n => exact ⟨n, rfl⟩
  | none => exact absurd (node?_eq_none_iff.mp hn) (Nat.not_le.mpr h)

theorem lt_size_of_node? {t : Outline σ} {id : Nat} {n : Node σ} (h : t.node? id = some n) :
    id < t.size := by
  by_contra hle
  rw [node?_eq_none_iff.mpr (Nat.not_lt.mp hle)] at h
  cases h

theorem lt_size_of_parent? {t : Outline σ} {c p : Nat} (h : t.parent? c = some p) :
    c < t.size := by
  obtain ⟨n, hn, -⟩ := Option.bind_eq_some_iff.mp h
  exact lt_size_of_node? hn

theorem parent?_eq_of_node? {t : Outline σ} {id : Nat} {n : Node σ} (h : t.node? id = some n) :
    t.parent? id = n.parent := by
  rw [parent?, h, Option.bind_some]

/-- **What a push does to a node**: the new one is there, its parent has it as the last child, and
all others are as they were. -/
theorem node?_push (t : Outline σ) (parent : Nat) (kind : NodeKind) (text : Text) (span : σ)
    (id : Nat) :
    (t.push parent kind text span).node? id =
      if id = t.size then some ⟨t.size, kind, some parent, [], text, span⟩
      else if id = parent then (t.node? id).map (Node.adopt · [t.size])
      else t.node? id := by
  rw [node?, push]
  by_cases hnew : id = t.size
  · have heq : id = t.nodes.size := hnew
    rw [if_pos hnew, Array.getElem?_push, if_pos (by simpa using heq)]
    rfl
  · have hne : id ≠ t.nodes.size := hnew
    rw [if_neg hnew, Array.getElem?_push, if_neg (by simpa using hne), Array.getElem?_modify]
    by_cases hparent : id = parent
    · simp [node?, size, hparent, Node.adopt]
    · simp [node?, hparent, Ne.symm hparent]

/-- The node that a push is made below has the new one as its last child. -/
theorem node?_push_self {t : Outline σ} {id : Nat} {n : Node σ} (hn : t.node? id = some n)
    (kind : NodeKind) (text : Text) (span : σ) :
    (t.push id kind text span).node? id = some (Node.adopt n [t.size]) := by
  rw [node?_push, if_neg (Nat.ne_of_lt (lt_size_of_node? hn)), if_pos rfl, hn, Option.map_some]

theorem node?_push_of_ne {t : Outline σ} {id parent : Nat} {n : Node σ} (hn : t.node? id = some n)
    (hne : id ≠ parent) (kind : NodeKind) (text : Text) (span : σ) :
    (t.push parent kind text span).node? id = some n := by
  rw [node?_push, if_neg (Nat.ne_of_lt (lt_size_of_node? hn)), if_neg hne, hn]

theorem parent?_push (t : Outline σ) (parent : Nat) (kind : NodeKind) (text : Text) (span : σ)
    (id : Nat) :
    (t.push parent kind text span).parent? id = if id = t.size then some parent else t.parent? id := by
  rw [parent?, node?_push, parent?]
  split
  · rfl
  · split
    · cases t.node? id <;> rfl
    · rfl

theorem children_push (t : Outline σ) {parent : Nat} (hparent : parent < t.size) (kind : NodeKind)
    (text : Text) (span : σ) (id : Nat) :
    (t.push parent kind text span).children id =
      if id = parent then t.children id ++ [t.size] else t.children id := by
  rw [children, node?_push, children]
  by_cases hnew : id = t.size
  · have hnone : t.node? id = none := node?_eq_none_iff.mpr (Nat.le_of_eq hnew.symm)
    rw [if_pos hnew, if_neg (by omega), hnone]
  · rw [if_neg hnew]
    by_cases hid : id = parent
    · obtain ⟨n, hn⟩ := exists_node? (hid ▸ hparent : id < t.size)
      rw [if_pos hid, if_pos hid, hn]
      rfl
    · rw [if_neg hid, if_neg hid]

/-! ## The links of a built outline -/

theorem linked_new (kind : NodeKind) (text : Text) (span : σ) : (new kind text span).Linked := by
  have hchildren : ∀ i, (new kind text span).children i = [] := by
    intro i
    cases i <;> rfl
  have hparent : ∀ i, (new kind text span).parent? i = none := by
    intro i
    cases i <;> rfl
  constructor
  · exact Nat.one_pos
  · intro i n hn
    cases i with
    | zero =>
        cases hn
        rfl
    | succ i => cases hn
  · exact hparent root
  · intro i hi hroot
    exact absurd (Nat.lt_one_iff.mp hi) hroot
  · intro p c
    simp [hchildren, hparent]
  · intro i
    rw [hchildren]
    exact List.Pairwise.nil

namespace Linked

variable {t : Outline σ}

theorem lt_of_parent? (h : t.Linked) {c p : Nat} (hc : t.parent? c = some p) : p < c := by
  have hroot : c ≠ root := by
    rintro rfl
    rw [h.root_parent] at hc
    cases hc
  obtain ⟨q, hq, hcq⟩ := h.exists_parent (lt_size_of_parent? hc) hroot
  rw [hc] at hcq
  cases hcq
  exact hq

theorem lt_size_of_mem_children (h : t.Linked) {p c : Nat} (hc : c ∈ t.children p) : c < t.size :=
  lt_size_of_parent? (h.mem_children_iff.mp hc)

theorem lt_of_mem_children (h : t.Linked) {p c : Nat} (hc : c ∈ t.children p) : p < c :=
  h.lt_of_parent? (h.mem_children_iff.mp hc)

theorem push (h : t.Linked) {parent : Nat} (hparent : parent < t.size) (kind : NodeKind)
    (text : Text) (span : σ) : (t.push parent kind text span).Linked := by
  have hfresh : t.parent? t.size = none := by
    rw [parent?, node?_eq_none_iff.mpr (Nat.le_refl _), Option.bind_none]
  constructor
  · rw [size_push]
    omega
  · intro i n hn
    rw [node?_push] at hn
    split at hn
    · rename_i hnew
      cases hn
      exact hnew.symm
    · split at hn
      · obtain ⟨m, hm, rfl⟩ := Option.map_eq_some_iff.mp hn
        exact (h.id_eq hm : m.id = i)
      · exact h.id_eq hn
  · rw [parent?_push, if_neg (by have := h.size_pos; unfold root; omega)]
    exact h.root_parent
  · intro i hi hroot
    rw [size_push] at hi
    rw [parent?_push]
    split
    · rename_i hnew
      exact ⟨parent, hnew ▸ hparent, rfl⟩
    · exact h.exists_parent (by omega) hroot
  · intro p c
    rw [children_push t hparent, parent?_push]
    by_cases hp : p = parent
    · subst hp
      by_cases hc : c = t.size
      · simp [hc]
      · simp [hc, h.mem_children_iff]
    · by_cases hc : c = t.size
      · subst hc
        simp [hp, Ne.symm hp, h.mem_children_iff, hfresh]
      · simp [hp, hc, h.mem_children_iff]
  · intro i
    rw [children_push t hparent]
    split
    · -- the new number is larger than all before it
      refine List.pairwise_append.mpr ⟨h.children_sorted i, List.pairwise_singleton _ _, ?_⟩
      intro c hc d hd
      rw [List.mem_singleton.mp hd]
      exact h.lt_size_of_mem_children hc
    · exact h.children_sorted i

end Linked

/-- Whatever was built is linked. -/
theorem Built.linked {t : Outline σ} (h : t.Built) : t.Linked := by
  induction h with
  | new kind text span => exact linked_new kind text span
  | push built hparent kind text span ih => exact ih.push hparent kind text span

/-! ## One path to each node -/

/-- The numbers lead from the root down to a node, from each to one of its children. -/
inductive Path (t : Outline σ) : Nat → List Nat → Prop
  | root : Path t root [root]
  | child {p c : Nat} {path : List Nat} (hpath : Path t p path) (hc : c ∈ t.children p) :
      Path t c (path ++ [c])

namespace Linked

variable {t : Outline σ}

theorem exists_path (h : t.Linked) {id : Nat} (hid : id < t.size) : ∃ path, t.Path id path := by
  induction id using Nat.strongRecOn with
  | _ id ih =>
      by_cases hroot : id = root
      · rw [hroot]
        exact ⟨[root], .root⟩
      · obtain ⟨p, hp, hparent⟩ := h.exists_parent hid hroot
        obtain ⟨path, hpath⟩ := ih p hp (by omega)
        exact ⟨path ++ [id], .child hpath (h.mem_children_iff.mpr hparent)⟩

theorem path_unique (h : t.Linked) {id : Nat} {path path' : List Nat} (hpath : t.Path id path)
    (hpath' : t.Path id path') : path = path' := by
  have hroot : ∀ {p : Nat}, Outline.root ∉ t.children p := by
    intro p hmem
    have hnone := h.root_parent
    rw [h.mem_children_iff.mp hmem] at hnone
    cases hnone
  induction hpath generalizing path' with
  | root =>
      cases hpath' with
      | root => rfl
      | child _ hc => exact absurd hc hroot
  | child _ hc ih =>
      cases hpath' with
      | root => exact absurd hc hroot
      | child hbefore hc' =>
          -- a child has one parent, and its path goes through it
          have hparent := (h.mem_children_iff.mp hc).symm.trans (h.mem_children_iff.mp hc')
          cases hparent
          rw [ih hbefore]

theorem existsUnique_path (h : t.Linked) {id : Nat} (hid : id < t.size) :
    ∃! path, t.Path id path := by
  obtain ⟨path, hpath⟩ := h.exists_path hid
  exact ⟨path, hpath, fun path' hpath' => h.path_unique hpath' hpath⟩

end Linked

/-! ## No search meets a number without a node -/

theorem searchEach_congr {search search' : Nat → Except SearchError (List Nat)} {stop : Bool}
    {ids : List Nat} (h : ∀ id ∈ ids, search id = search' id) :
    searchEach search stop ids = searchEach search' stop ids := by
  induction ids with
  | nil => rfl
  | cons id ids ih =>
      rw [searchEach, searchEach, h id List.mem_cons_self,
        ih fun i hi => h i (List.mem_cons_of_mem _ hi)]

namespace Linked

variable {t : Outline σ}

/-- The answer of a search upward does not depend on what a miss would give. -/
theorem searchUpOr_eq (h : t.Linked) (miss : Except SearchError (List Nat))
    (test : Node σ → Nat → Bool) (stop : Bool) (levels depth : Nat) {id : Nat} (hid : id < t.size) :
    t.searchUpOr miss test stop levels depth id = t.searchUp test stop levels depth id := by
  induction levels generalizing depth id with
  | zero => rfl
  | succ levels ih =>
      obtain ⟨n, hn⟩ := exists_node? hid
      simp only [searchUp, searchUpOr, hn] at ih ⊢
      cases hparent : n.parent with
      | none => rfl
      | some p =>
          have hp : p < id := h.lt_of_parent? (parent?_eq_of_node? hn ▸ hparent)
          simp only [ih (depth + 1) (Nat.lt_trans hp hid)]

/-- Nor does that of a search downward. -/
theorem searchDownOr_eq (h : t.Linked) (miss : Except SearchError (List Nat))
    (test : Node σ → Nat → Bool) (stop : Bool) (levels depth : Nat) {id : Nat} (hid : id < t.size) :
    t.searchDownOr miss test stop levels depth id = t.searchDown test stop levels depth id := by
  induction levels generalizing depth id with
  | zero => rfl
  | succ levels ih =>
      obtain ⟨n, hn⟩ := exists_node? hid
      have hbelow : ∀ child ∈ n.children,
          t.searchDownOr miss test stop levels (depth + 1) child =
            t.searchDown test stop levels (depth + 1) child := by
        intro child hchild
        rw [← children_eq_of_node? hn] at hchild
        exact ih (depth + 1) (h.lt_size_of_mem_children hchild)
      simp only [searchDown, searchDownOr, hn] at hbelow ⊢
      rw [searchEach_congr hbelow]

end Linked

/-! ## Searches upward after a push -/

/-- Whether a test looks at everything but the children of a node. -/
def IgnoresChildren (test : Node σ → Nat → Bool) : Prop :=
  ∀ (n : Node σ) (ids : List Nat) (depth : Nat), test { n with children := ids } depth = test n depth

/-- A push is not seen by a search upward that does not ask for children. -/
theorem Linked.searchUp_push {t : Outline σ} (h : t.Linked) {test : Node σ → Nat → Bool}
    (htest : IgnoresChildren test) (stop : Bool) (parent : Nat) (kind : NodeKind) (text : Text)
    (span : σ) (levels depth : Nat) {id : Nat} (hid : id < t.size) :
    (t.push parent kind text span).searchUp test stop levels depth id =
      t.searchUp test stop levels depth id := by
  induction levels generalizing depth id with
  | zero => rfl
  | succ levels ih =>
      obtain ⟨n, hn⟩ := exists_node? hid
      -- the node has the same parent and passes the same tests as before
      obtain ⟨n', hn', hparent, hsame⟩ : ∃ n', (t.push parent kind text span).node? id = some n' ∧
          n'.parent = n.parent ∧ test n' depth = test n depth := by
        rw [node?_push, if_neg (Nat.ne_of_lt hid), hn]
        split
        · exact ⟨Node.adopt n [t.size], rfl, rfl, htest n _ depth⟩
        · exact ⟨n, rfl, rfl, rfl⟩
      rw [searchUp_of_node? hn, searchUp_of_node? hn', hparent, hsame]
      cases hp : n.parent with
      | none => rfl
      | some p =>
          have hlt : p < id := h.lt_of_parent? (parent?_eq_of_node? hn ▸ hp)
          simp only [ih (depth + 1) (Nat.lt_trans hlt hid)]

/-! ## The whole shape -/

/-- **What was built is a tree, and stays the same tree under a push.** Every number that a node
holds leads to a node, so that no search misses one; parents and children agree, children are listed
once and in their order, and one path leads from the root to each node. A push changes no node but
the one it is made below, which gets the new node as its last child; what a search upward finds by a
test that does not look at children stays the same. -/
theorem Built.wellLinked {t : Outline σ} (h : t.Built) :
    (∀ i n, t.node? i = some n → n.id = i) ∧
    (∀ i < t.size, t.parent? i = none ↔ i = root) ∧
    (∀ c p, t.parent? c = some p → p < c) ∧
    (∀ p c, (c ∈ t.children p ↔ t.parent? c = some p) ∧
      (c ∈ t.children p → (t.children p).count c = 1)) ∧
    (∀ p, (t.children p).Pairwise (· < ·)) ∧
    (∀ i n, t.node? i = some n →
      n.id < t.size ∧ (∀ p ∈ n.parent, p < t.size) ∧ ∀ c ∈ n.children, c < t.size) ∧
    (∀ id < t.size, (∀ c ∈ t.children id, (t.node? c).isSome) ∧
      ∀ miss test stop levels depth,
        t.searchUpOr miss test stop levels depth id = t.searchUp test stop levels depth id ∧
        t.searchDownOr miss test stop levels depth id = t.searchDown test stop levels depth id) ∧
    (∀ id < t.size, ∃! path, t.Path id path) ∧
    ∀ parent < t.size, ∀ kind text span,
      (t.push parent kind text span).size = t.size + 1 ∧
      (t.push parent kind text span).node? t.size =
        some ⟨t.size, kind, some parent, [], text, span⟩ ∧
      ∀ id < t.size,
        (t.push parent kind text span).node? id = (t.node? id).map (fun n =>
          if id = parent then { n with children := n.children ++ [t.size] } else n) ∧
        ∀ test, IgnoresChildren test →
          (t.push parent kind text span).parents id test = t.parents id test ∧
          (t.push parent kind text span).firstParent? id test = t.firstParent? id test ∧
          (t.push parent kind text span).topmostParent? id test = t.topmostParent? id test := by
  have hl := h.linked
  refine ⟨fun i n => hl.id_eq, ?_, fun c p => hl.lt_of_parent?, ?_, hl.children_sorted, ?_, ?_,
    fun id hid => hl.existsUnique_path hid, ?_⟩
  · intro i hi
    constructor
    · intro hnone
      by_contra hroot
      obtain ⟨p, -, hp⟩ := hl.exists_parent hi hroot
      rw [hnone] at hp
      cases hp
    · rintro rfl
      exact hl.root_parent
  · intro p c
    have hnodup : (t.children p).Nodup := (hl.children_sorted p).imp fun hlt => Nat.ne_of_lt hlt
    exact ⟨hl.mem_children_iff, List.count_eq_one_of_mem hnodup⟩
  · intro i n hn
    have hi := lt_size_of_node? hn
    refine ⟨hl.id_eq hn ▸ hi, fun p hp => ?_, fun c hc => ?_⟩
    · have hlt := hl.lt_of_parent? (parent?_eq_of_node? hn ▸ hp)
      omega
    · exact hl.lt_size_of_mem_children (children_eq_of_node? hn ▸ hc)
  · intro id hid
    refine ⟨fun c hc => ?_, fun miss test stop levels depth =>
      ⟨hl.searchUpOr_eq miss test stop levels depth hid,
        hl.searchDownOr_eq miss test stop levels depth hid⟩⟩
    obtain ⟨n, hn⟩ := exists_node? (hl.lt_size_of_mem_children hc)
    rw [hn, Option.isSome_some]
  · intro parent hparent kind text span
    refine ⟨size_push t parent kind text span, ?_, ?_⟩
    · rw [node?_push, if_pos rfl]
    · intro id hid
      refine ⟨?_, fun test htest => ?_⟩
      · rw [node?_push, if_neg (Nat.ne_of_lt hid)]
        by_cases hid : id = parent <;> simp [hid, Node.adopt]
      · have hup : ∀ stop, (t.push parent kind text span).searchUp test stop maxDepth 0 id =
            t.searchUp test stop maxDepth 0 id :=
          fun stop => hl.searchUp_push htest stop parent kind text span maxDepth 0 hid
        simp only [topmostParent?, firstParent?, parents, hup, and_self]

/-- A declaration with a name, and a variant with a name of its own. -/
def branch : Outline Unit :=
  (((new (.declaration .sum) [] ()).push 0 .name "E" ()).push 0 .variant [] ()).push 2 .name "A" ()

theorem branch_wellLinked : branch.Built ∧ (∃! path, branch.Path 3 path) ∧
    branch.children 0 = [1, 2] ∧ branch.parent? 2 = some 0 ∧
    (branch.push 2 .variant [] ()).parents 3 (fun n _ => n.kind == .variant) =
      branch.parents 3 (fun n _ => n.kind == .variant) := by
  have hbuilt : branch.Built :=
    .push (.push (.push (.new _ _ _) (by decide) _ _ _) (by decide) _ _ _) (by decide) _ _ _
  obtain ⟨-, -, -, hchildren, -, -, -, hpath, hpush⟩ := hbuilt.wellLinked
  obtain ⟨-, -, hkept⟩ := hpush 2 (by decide) .variant [] ()
  have hparent : branch.parent? 2 = some 0 := ((hchildren 0 2).1).mp (by decide)
  exact ⟨hbuilt, hpath 3 (by decide), by decide, hparent,
    ((hkept 3 (by decide)).2 _ fun _ _ _ => rfl).1⟩

/-- A search upward for a node without children does see a push. -/
theorem parents_childless_push :
    (branch.push 3 .name [] ()).parents 3 (fun n _ => n.children.isEmpty) ≠
      branch.parents 3 (fun n _ => n.children.isEmpty) := by
  decide

end EnumTags.Outline

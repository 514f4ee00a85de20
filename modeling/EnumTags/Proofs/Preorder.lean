import EnumTags.Proofs.Links
import Mathlib.Data.List.Lattice
import Mathlib.Data.List.Perm.Basic

/-!
# All nodes in order

`Outline.preorder` lists the nodes of an outline with their distances from the root, each before
those below it. It holds every node of a built outline once, and the distance is the length of the
path to the node. A search that stops is read off this list: it ends at the first node that passes
its test or lies too far down, whichever comes first.

## Main definitions

* `Outline.preorder`: all nodes with their distances from the root.
* `Outline.stops`: what ends a search that stops at its first find.
-/

namespace EnumTags.Outline

variable {σ : Type}

/-- The nodes from `id` on that are less than `levels` levels below it, each with its distance and
before those below it. The distance of `id` itself is `depth`. -/
def preorderFrom (t : Outline σ) : (levels depth id : Nat) → List (Nat × Nat)
  | 0, _, _ => []
  | levels + 1, depth, id =>
    (id, depth) :: (t.children id).flatMap (t.preorderFrom levels (depth + 1))

/-- All nodes with their distances from the root. No node lies further down than there are nodes. -/
def preorder (t : Outline σ) : List (Nat × Nat) := t.preorderFrom t.size 0 root

/-! ## Every node once -/

theorem le_of_mem_preorderFrom {t : Outline σ} (h : t.Linked) {levels depth id c d : Nat}
    (hmem : (c, d) ∈ t.preorderFrom levels depth id) : id ≤ c := by
  induction levels generalizing depth id with
  | zero => cases hmem
  | succ levels ih =>
      rcases List.mem_cons.mp hmem with hhead | hbelow
      · cases hhead
        exact Nat.le_refl _
      · obtain ⟨child, hchild, hc⟩ := List.mem_flatMap.mp hbelow
        have hlt := h.lt_of_mem_children hchild
        have hle := ih hc
        omega

/-- Every path to a node of the list goes through the node where the list begins, and is as much
longer as the node is further down. -/
theorem exists_path_of_mem {t : Outline σ} {levels depth id c d : Nat}
    (hmem : (c, d) ∈ t.preorderFrom levels depth id) {path : List Nat} (hpath : t.Path id path)
    (hlength : path.length = depth + 1) :
    ∃ path', t.Path c path' ∧ path'.length = d + 1 ∧ path <+: path' := by
  induction levels generalizing depth id path with
  | zero => cases hmem
  | succ levels ih =>
      rcases List.mem_cons.mp hmem with hhead | hbelow
      · cases hhead
        exact ⟨path, hpath, hlength, List.prefix_rfl⟩
      · obtain ⟨child, hchild, hc⟩ := List.mem_flatMap.mp hbelow
        obtain ⟨path', hpath', hlength', hle⟩ := ih hc (.child hpath hchild) (by simp [hlength])
        exact ⟨path', hpath', hlength', (List.prefix_append _ _).trans hle⟩

/-- With a node the list holds its children. -/
theorem mem_preorderFrom_child {t : Outline σ} (h : t.Linked) {levels depth id p d c : Nat}
    (hlevels : t.size ≤ id + levels) (hp : (p, d) ∈ t.preorderFrom levels depth id)
    (hc : c ∈ t.children p) : (c, d + 1) ∈ t.preorderFrom levels depth id := by
  induction levels generalizing depth id with
  | zero => cases hp
  | succ levels ih =>
      rcases List.mem_cons.mp hp with hhead | hbelow
      · cases hhead
        have hlt := h.lt_of_mem_children hc
        have hsize := h.lt_size_of_mem_children hc
        obtain ⟨more, rfl⟩ : ∃ more, levels = more + 1 := ⟨levels - 1, by omega⟩
        exact List.mem_cons_of_mem _ (List.mem_flatMap.mpr ⟨c, hc, List.mem_cons_self⟩)
      · obtain ⟨child, hchild, hmem⟩ := List.mem_flatMap.mp hbelow
        have hlt := h.lt_of_mem_children hchild
        exact List.mem_cons_of_mem _
          (List.mem_flatMap.mpr ⟨child, hchild, ih (by omega) hmem⟩)

/-- A node is listed with the length of its path. -/
theorem mem_preorder_iff {t : Outline σ} (h : t.Linked) {id d : Nat} :
    (id, d) ∈ t.preorder ↔ ∃ path, t.Path id path ∧ path.length = d + 1 := by
  constructor
  · intro hmem
    obtain ⟨path, hpath, hlength, -⟩ := exists_path_of_mem hmem .root rfl
    exact ⟨path, hpath, hlength⟩
  · rintro ⟨path, hpath, hlength⟩
    induction hpath generalizing d with
    | root =>
        obtain ⟨levels, hlevels⟩ : ∃ levels, t.size = levels + 1 :=
          ⟨t.size - 1, by have := h.size_pos; omega⟩
        obtain rfl : d = 0 := by simpa using hlength.symm
        rw [preorder, hlevels]
        exact List.mem_cons_self
    | @child p c path hbefore hc ih =>
        obtain ⟨e, rfl⟩ : ∃ e, d = e + 1 := by
          cases hbefore <;> exact ⟨d - 1, by simp at hlength; omega⟩
        have hp : (p, e) ∈ t.preorder := ih (by simpa using hlength)
        exact mem_preorderFrom_child h (by omega) hp hc

theorem nodup_preorderFrom {t : Outline σ} (h : t.Linked) (levels depth : Nat) {id : Nat}
    {path : List Nat} (hpath : t.Path id path) (hlength : path.length = depth + 1) :
    ((t.preorderFrom levels depth id).map Prod.fst).Nodup := by
  induction levels generalizing depth id path with
  | zero => exact List.nodup_nil
  | succ levels ih =>
      rw [preorderFrom, List.map_cons, List.nodup_cons, List.map_flatMap]
      constructor
      · intro hmem
        obtain ⟨child, hchild, hid⟩ := List.mem_flatMap.mp hmem
        obtain ⟨d, hd⟩ : ∃ d, (id, d) ∈ t.preorderFrom levels (depth + 1) child := by
          simpa using hid
        have hlt := h.lt_of_mem_children hchild
        have hle := le_of_mem_preorderFrom h hd
        omega
      · refine List.nodup_flatMap.mpr ⟨fun child hchild =>
          ih (depth + 1) (.child hpath hchild) (by simp [hlength]), ?_⟩
        have hnodup : (t.children id).Nodup := (h.children_sorted id).imp fun hlt => Nat.ne_of_lt hlt
        refine hnodup.imp_of_mem ?_
        intro a b ha hb hne
        -- a node below both would have a path through either of them
        change List.Disjoint _ _
        rw [List.disjoint_left]
        intro c hca hcb
        obtain ⟨d, hd⟩ : ∃ d, (c, d) ∈ t.preorderFrom levels (depth + 1) a := by simpa using hca
        obtain ⟨e, he⟩ : ∃ e, (c, e) ∈ t.preorderFrom levels (depth + 1) b := by simpa using hcb
        obtain ⟨pathA, hpathA, -, hthroughA⟩ :=
          exists_path_of_mem hd (.child hpath ha) (by simp [hlength])
        obtain ⟨pathB, hpathB, -, hthroughB⟩ :=
          exists_path_of_mem he (.child hpath hb) (by simp [hlength])
        rw [h.path_unique hpathA hpathB] at hthroughA
        have hsame := List.prefix_of_prefix_length_le hthroughA hthroughB (by simp)
        have heq : path ++ [a] = path ++ [b] := hsame.eq_of_length (by simp)
        exact hne (by simpa using heq)

/-- **Every node of a linked outline is listed once.** -/
theorem perm_preorder {t : Outline σ} (h : t.Linked) :
    (t.preorder.map Prod.fst).Perm (List.range t.size) := by
  have hnodup : (t.preorder.map Prod.fst).Nodup := nodup_preorderFrom h t.size 0 .root rfl
  refine (List.perm_ext_iff_of_nodup hnodup List.nodup_range).mpr fun id => ?_
  rw [List.mem_range]
  constructor
  · intro hmem
    obtain ⟨d, hd⟩ : ∃ d, (id, d) ∈ t.preorder := by simpa using hmem
    obtain ⟨path, hpath, -⟩ := (mem_preorder_iff h).mp hd
    cases hpath with
    | root => exact h.size_pos
    | child _ hc => exact h.lt_size_of_mem_children hc
  · intro hid
    obtain ⟨path, hpath⟩ := h.exists_path hid
    have hmem : (id, path.length - 1) ∈ t.preorder := by
      refine (mem_preorder_iff h).mpr ⟨path, hpath, ?_⟩
      cases hpath <;> simp
    exact List.mem_map_of_mem (f := Prod.fst) hmem

/-- More levels than there are nodes show nothing more. -/
theorem preorderFrom_of_le {t : Outline σ} (h : t.Linked) {levels levels' id : Nat} (depth : Nat)
    (hid : id < t.size) (hlevels : t.size ≤ id + levels) (hle : levels ≤ levels') :
    t.preorderFrom levels' depth id = t.preorderFrom levels depth id := by
  induction levels generalizing levels' depth id with
  | zero => omega
  | succ levels ih =>
      obtain ⟨more, rfl⟩ : ∃ more, levels' = more + 1 := ⟨levels' - 1, by omega⟩
      rw [preorderFrom, preorderFrom]
      congr 1
      refine List.flatMap_congr fun child hchild => ?_
      have hlt := h.lt_of_mem_children hchild
      exact ih (depth + 1) (h.lt_size_of_mem_children hchild) (by omega) (by omega)

/-- What ends a search that stops at its first find: a node too far down, or one that passes. -/
def stops (t : Outline σ) (test : Node σ → Nat → Bool) (limit : Nat) (p : Nat × Nat) : Bool :=
  decide (limit ≤ p.2) || (t.node? p.1).any (test · p.2)

/-- The answer of such a search, given where it ended. -/
def stopped (limit : Nat) : Option (Nat × Nat) → Except SearchError (List Nat)
  | none => .ok []
  | some (id, depth) => if limit ≤ depth then .error .tooDeep else .ok [id]

/-- Going through the children in turn is going through the list of all that is below them. -/
theorem searchEach_stopped {search : Nat → Except SearchError (List Nat)} {limit : Nat}
    {p : Nat × Nat → Bool} {f : Nat → List (Nat × Nat)} {ids : List Nat}
    (h : ∀ id ∈ ids, search id = stopped limit ((f id).find? p)) :
    searchEach search true ids = stopped limit ((ids.flatMap f).find? p) := by
  induction ids with
  | nil => rfl
  | cons id ids ih =>
      have hrest := ih fun i hi => h i (List.mem_cons_of_mem _ hi)
      rw [searchEach, h id List.mem_cons_self, List.flatMap_cons, List.find?_append]
      cases hfind : (f id).find? p with
      | none =>
          simp only [stopped, hrest, Option.none_or, bind, Except.bind, List.isEmpty_nil,
            Bool.not_true, Bool.and_false, Bool.false_eq_true, if_false, List.nil_append, pure,
            Except.pure]
          split <;> simp_all
      | some found =>
          obtain ⟨c, d⟩ := found
          rw [Option.some_or]
          by_cases hlimit : limit ≤ d
          · simp [stopped, hlimit, bind, Except.bind]
          · simp [stopped, hlimit, bind, Except.bind, pure, Except.pure]

/-- **A search that stops** ends at the first node that passes or lies too far down. -/
theorem searchDown_stop_eq (t : Outline σ) (test : Node σ → Nat → Bool) {levels more : Nat}
    (depth id : Nat) (hmore : levels < more) :
    t.searchDown test true levels depth id =
      stopped (depth + levels)
        ((t.preorderFrom more depth id).find? (t.stops test (depth + levels))) := by
  induction levels generalizing more depth id with
  | zero =>
      obtain ⟨more, rfl⟩ : ∃ m, more = m + 1 := ⟨more - 1, by omega⟩
      simp [searchDown, searchDownOr, preorderFrom, stops, stopped]
  | succ levels ih =>
      obtain ⟨more, rfl⟩ : ∃ m, more = m + 1 := ⟨more - 1, by omega⟩
      have hnear : ¬ depth + (levels + 1) ≤ depth := by omega
      cases hn : t.node? id with
      | none =>
          simp [searchDown_of_node?_eq_none hn, preorderFrom, children, hn, stops, hnear, stopped]
      | some n =>
          by_cases htest : test n depth = true
          · simp [searchDown_of_node? hn, preorderFrom, hn, stops, htest, stopped]
          · have hbelow : ∀ child ∈ n.children,
                t.searchDown test true levels (depth + 1) child =
                  stopped (depth + (levels + 1)) ((t.preorderFrom more (depth + 1) child).find?
                    (t.stops test (depth + (levels + 1)))) := by
              intro child _
              rw [ih (depth + 1) child (Nat.lt_of_succ_lt_succ hmore), Nat.add_right_comm depth 1,
                Nat.add_assoc]
            simp [searchDown_of_node? hn, preorderFrom, children_eq_of_node? hn, hn, stops, htest,
              hnear, searchEach_stopped hbelow, Except.map]
            split <;> simp_all

/-- Something lies too far down exactly if the list holds such a node. -/
theorem reaches_iff (t : Outline σ) {levels more : Nat} (depth id : Nat) (hmore : levels < more) :
    t.reaches levels id = true ↔ ∃ p ∈ t.preorderFrom more depth id, depth + levels ≤ p.2 := by
  induction levels generalizing more depth id with
  | zero =>
      obtain ⟨more, rfl⟩ : ∃ m, more = m + 1 := ⟨more - 1, by omega⟩
      exact iff_of_true rfl ⟨(id, depth), List.mem_cons_self, by simp⟩
  | succ levels ih =>
      obtain ⟨more, rfl⟩ : ∃ m, more = m + 1 := ⟨more - 1, by omega⟩
      have hbelow := fun child => ih (depth + 1) child (Nat.lt_of_succ_lt_succ hmore)
      simp only [reaches, List.any_eq_true, hbelow, preorderFrom, List.mem_cons, List.mem_flatMap]
      constructor
      · rintro ⟨child, hchild, p, hp, hdepth⟩
        exact ⟨p, .inr ⟨child, hchild, hp⟩, by omega⟩
      · rintro ⟨p, rfl | ⟨child, hchild, hp⟩, hdepth⟩
        · exact absurd hdepth (by omega)
        · exact ⟨child, hchild, p, hp, by omega⟩

end EnumTags.Outline

import EnumTags.Outline.Search

/-!
# What a search downward finds

A search that collects everything either meets a node too far down, and fails, or gives the nodes
that pass its test in the order of a walk: each node before those below it, and the children of a
node in their order. Told to stop at the first find, it gives the first node of that walk, provided
that nothing lies too far down. The generator asks mostly for direct children, where a walk is
nothing but the list of children.

## Main definitions

* `Outline.reaches levels id`: something lies `levels` levels below `id`.
* `Outline.walk test levels depth id`: the nodes from `id` down that pass the test.
-/

namespace EnumTags.Outline

variable {σ : Type}

/-- Whether something lies `levels` levels below this node. -/
def reaches (t : Outline σ) : (levels id : Nat) → Bool
  | 0, _ => true
  | levels + 1, id => (t.children id).any (t.reaches levels)

/-- The nodes from here down that pass the test, a node before those below it. -/
def walk (t : Outline σ) (test : Node σ → Nat → Bool) : (levels depth id : Nat) → List Nat
  | 0, _, _ => []
  | levels + 1, depth, id =>
    match t.node? id with
    | none => []
    | some n =>
      (if test n depth then [id] else []) ++
        n.children.flatMap (t.walk test levels (depth + 1))

theorem children_eq_of_node? {t : Outline σ} {id : Nat} {n : Node σ} (h : t.node? id = some n) :
    t.children id = n.children := by
  simp [children, h]

theorem kind?_eq_of_node? {t : Outline σ} {id : Nat} {n : Node σ} (h : t.node? id = some n) :
    t.kind? id = some n.kind := by
  simp [kind?, h]

/-! ## One node after the other -/

/-- Where no search of a node fails, nothing is lost and nothing reordered. -/
theorem searchEach_of_forall_ok {search : Nat → Except SearchError (List Nat)} {f : Nat → List Nat}
    {ids : List Nat} (h : ∀ id ∈ ids, search id = .ok (f id)) :
    searchEach search false ids = .ok (ids.flatMap f) := by
  induction ids with
  | nil => rfl
  | cons id ids ih =>
      have hrest := ih fun i hi => h i (List.mem_cons_of_mem _ hi)
      simp [searchEach, h id List.mem_cons_self, hrest, bind, Except.bind, pure, Except.pure]

/-- One search that fails makes all of them fail, whatever was found before it. -/
theorem searchEach_of_exists_error {search : Nat → Except SearchError (List Nat)}
    {ids : List Nat} (h : ∃ id ∈ ids, search id = .error .tooDeep) :
    searchEach search false ids = .error .tooDeep := by
  induction ids with
  | nil => simp at h
  | cons id ids ih =>
      cases hid : search id with
      | error e =>
          cases e
          simp [searchEach, hid, bind, Except.bind]
      | ok found =>
          have hrest : ∃ i ∈ ids, search i = .error .tooDeep := by
            obtain ⟨i, hi, he⟩ := h
            rcases List.mem_cons.mp hi with rfl | hi
            · simp [hid] at he
            · exact ⟨i, hi, he⟩
          simp [searchEach, hid, ih hrest, bind, Except.bind]

/-- Stopping at the first find gives the first element of what would be collected. -/
theorem searchEach_stop_of_forall_ok {search : Nat → Except SearchError (List Nat)}
    {f : Nat → List Nat} {ids : List Nat} (h : ∀ id ∈ ids, search id = .ok ((f id).take 1)) :
    searchEach search true ids = .ok ((ids.flatMap f).take 1) := by
  induction ids with
  | nil => rfl
  | cons id ids ih =>
      have hrest := ih fun i hi => h i (List.mem_cons_of_mem _ hi)
      cases hf : f id with
      | nil =>
          simp [searchEach, h id List.mem_cons_self, hrest, hf, bind, Except.bind, pure,
            Except.pure]
      | cons x xs =>
          simp [searchEach, h id List.mem_cons_self, hf, bind, Except.bind, pure, Except.pure]

/-! ## A whole search -/

theorem reaches_succ_eq_false {t : Outline σ} {levels id : Nat} :
    t.reaches (levels + 1) id = false ↔ ∀ child ∈ t.children id, t.reaches levels child = false := by
  simp [reaches]

/-- A search that collects fails as soon as something lies too far down, whatever its test. -/
theorem searchDown_of_reaches (t : Outline σ) (test : Node σ → Nat → Bool) {levels : Nat}
    (depth : Nat) {id : Nat} (h : t.reaches levels id = true) :
    t.searchDown test false levels depth id = .error .tooDeep := by
  induction levels generalizing depth id with
  | zero => rfl
  | succ levels ih =>
      cases hn : t.node? id with
      | none => simp [reaches, children, hn] at h
      | some n =>
          have hbelow : ∃ child ∈ n.children,
              t.searchDown test false levels (depth + 1) child = .error .tooDeep := by
            simp only [reaches, children_eq_of_node? hn, List.any_eq_true] at h
            obtain ⟨child, hmem, hreach⟩ := h
            exact ⟨child, hmem, ih (depth + 1) hreach⟩
          simp [searchDown_of_node? hn, searchEach_of_exists_error hbelow, Except.map]

/-- Otherwise it gives the walk. -/
theorem searchDown_of_not_reaches (t : Outline σ) (test : Node σ → Nat → Bool) {levels : Nat}
    (depth : Nat) {id : Nat} (h : t.reaches levels id = false) :
    t.searchDown test false levels depth id = .ok (t.walk test levels depth id) := by
  induction levels generalizing depth id with
  | zero => simp [reaches] at h
  | succ levels ih =>
      cases hn : t.node? id with
      | none => simp [searchDown_of_node?_eq_none hn, walk, hn]
      | some n =>
          have hbelow : ∀ child ∈ n.children,
              t.searchDown test false levels (depth + 1) child =
                .ok (t.walk test levels (depth + 1) child) := by
            rw [reaches_succ_eq_false, children_eq_of_node? hn] at h
            exact fun child hmem => ih (depth + 1) (h child hmem)
          by_cases htest : test n depth = true <;>
            simp [searchDown_of_node? hn, walk, hn, searchEach_of_forall_ok hbelow, htest,
              Except.map]

/-- And a search that stops gives the first node of the walk. -/
theorem searchDown_stop_of_not_reaches (t : Outline σ) (test : Node σ → Nat → Bool) {levels : Nat}
    (depth : Nat) {id : Nat} (h : t.reaches levels id = false) :
    t.searchDown test true levels depth id = .ok ((t.walk test levels depth id).take 1) := by
  induction levels generalizing depth id with
  | zero => simp [reaches] at h
  | succ levels ih =>
      cases hn : t.node? id with
      | none => simp [searchDown_of_node?_eq_none hn, walk, hn]
      | some n =>
          have hbelow : ∀ child ∈ n.children,
              t.searchDown test true levels (depth + 1) child =
                .ok ((t.walk test levels (depth + 1) child).take 1) := by
            rw [reaches_succ_eq_false, children_eq_of_node? hn] at h
            exact fun child hmem => ih (depth + 1) (h child hmem)
          by_cases htest : test n depth = true <;>
            simp [searchDown_of_node? hn, walk, hn, searchEach_stop_of_forall_ok hbelow, htest,
              Except.map]

/-! ## Direct children -/

/-- A test for direct children passes nothing further down. -/
theorem walk_below_children (t : Outline σ) (p : Node σ → Bool) (levels depth id : Nat)
    (h : 2 ≤ depth) : t.walk (fun n d => d == 1 && p n) levels depth id = [] := by
  induction levels generalizing depth id with
  | zero => rfl
  | succ levels ih =>
      have hdepth : (depth == 1) = false := by simp; omega
      cases hn : t.node? id with
      | none => simp [walk, hn]
      | some n => simp [walk, hn, hdepth, ih (depth + 1) _ (by omega)]

/-- So a walk that asks for direct children is the list of those that pass. -/
theorem walk_children (t : Outline σ) (p : Node σ → Bool) (levels id : Nat) :
    t.walk (fun n d => d == 1 && p n) (levels + 2) 0 id =
      (t.children id).filter fun child => (t.node? child).any p := by
  have hchild : ∀ child, t.walk (fun n d => d == 1 && p n) (levels + 1) 1 child =
      if (t.node? child).any p then [child] else [] := by
    intro child
    cases hn : t.node? child with
    | none => simp [walk, hn]
    | some n => simp [walk, hn, walk_below_children]
  cases hn : t.node? id with
  | none => simp [walk, children, hn]
  | some n =>
      rw [walk, children_eq_of_node? hn]
      simp only [hn, Nat.zero_add, funext hchild]
      simp only [Bool.and_eq_true, beq_iff_eq, Nat.zero_ne_one, false_and, if_false, List.nil_append]
      induction n.children with
      | nil => rfl
      | cons child children ih =>
          rw [List.flatMap_cons, List.filter_cons, ih]
          split <;> rfl

end EnumTags.Outline

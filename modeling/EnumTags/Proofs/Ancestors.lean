import EnumTags.Proofs.Subtrees

/-!
# Searching upward

A search upward sees the chain of parents of its start: the start itself, its parent, and so on up
to the root (`Outline.Lineage`). What passes its test in this chain decides everything. The search
that collects, and with it the one for the topmost find, fails exactly if the chain is longer than a
search goes; the search for the nearest find only fails if it comes that far without one.

Searches upward follow the parents and searches downward the children. Since the two agree, what one
finds at some distance is found from there by the other, at the same distance.

## Main results

* `Outline.Built.upward_exact`: the three searches upward, read off the chain.
* `Outline.Built.allDescendants_dual_parents`: searches upward and downward find each other.
-/

namespace EnumTags.Outline

variable {σ : Type}

/-! ## The chain of parents -/

/-- The numbers lead from a node up to the root, each to its parent. -/
inductive Lineage (t : Outline σ) : (id : Nat) → (chain : List Nat) → Prop
  | root : Lineage t root [root]
  | step {id p : Nat} {chain : List Nat} (hparent : t.parent? id = some p)
      (hchain : Lineage t p chain) : Lineage t id (id :: chain)

namespace Linked

variable {t : Outline σ}

theorem exists_lineage (h : t.Linked) {id : Nat} (hid : id < t.size) :
    ∃ chain, t.Lineage id chain := by
  induction id using Nat.strongRecOn with
  | _ id ih =>
      by_cases hroot : id = root
      · rw [hroot]
        exact ⟨[root], .root⟩
      · obtain ⟨p, hp, hparent⟩ := h.exists_parent hid hroot
        obtain ⟨chain, hchain⟩ := ih p hp (by omega)
        exact ⟨id :: chain, .step hparent hchain⟩

theorem lineage_unique (h : t.Linked) {id : Nat} {chain chain' : List Nat}
    (hchain : t.Lineage id chain) (hchain' : t.Lineage id chain') : chain = chain' := by
  have hroot : ∀ {p : Nat}, t.parent? Outline.root ≠ some p := by
    intro p hparent
    rw [h.root_parent] at hparent
    cases hparent
  induction hchain generalizing chain' with
  | root =>
      cases hchain' with
      | root => rfl
      | step hparent _ => exact absurd hparent hroot
  | step hparent _ ih =>
      cases hchain' with
      | root => exact absurd hparent hroot
      | step hparent' habove =>
          rw [hparent] at hparent'
          cases hparent'
          rw [ih habove]

/-- **The chain of a node is what lies above it.** The node at a place of the chain is the one that
has the start so many levels below it. -/
theorem below_iff_getElem? (h : t.Linked) {a d : Nat} {chain : List Nat}
    (hchain : t.Lineage d chain) (k : Nat) : t.Below a d k ↔ chain[k]? = some a := by
  induction hchain generalizing k with
  | root =>
      constructor
      · intro hbelow
        cases hbelow with
        | self => rfl
        | child _ hc =>
            rw [h.mem_children_iff, h.root_parent] at hc
            cases hc
      · intro hk
        cases k with
        | zero =>
            cases hk
            exact .self
        | succ k => cases hk
  | @step d p chain hparent _ ih =>
      cases k with
      | zero =>
          constructor
          · intro hbelow
            cases hbelow
            rfl
          · intro hk
            cases hk
            exact .self
      | succ k =>
          rw [List.getElem?_cons_succ, ← ih k]
          constructor
          · intro hbelow
            cases hbelow with
            | child habove hd =>
                -- the node above the last step is the parent of the last node
                rw [h.mem_children_iff, hparent] at hd
                cases hd
                exact habove
          · intro hbelow
            exact .child hbelow (h.mem_children_iff.mpr hparent)

end Linked

/-! ## What passes in a chain -/

/-- The node at this place of a chain passes the test, at the distance that its place is. -/
def PassesAt (t : Outline σ) (test : Node σ → Nat → Bool) (chain : List Nat) (k a : Nat) : Prop :=
  chain[k]? = some a ∧ t.passes test (a, k) = true

/-- What passes the test in a chain, with its distance; that of the first node is `depth`. -/
def hits (t : Outline σ) (test : Node σ → Nat → Bool) (depth : Nat) (chain : List Nat) :
    List (Nat × Nat) :=
  (chain.zipIdx depth).filter (t.passes test)

theorem hits_cons (t : Outline σ) (test : Node σ → Nat → Bool) (depth id : Nat)
    (chain : List Nat) :
    t.hits test depth (id :: chain) =
      if t.passes test (id, depth) then (id, depth) :: t.hits test (depth + 1) chain
      else t.hits test (depth + 1) chain := by
  simp only [hits, List.zipIdx_cons, List.filter_cons]

theorem mem_hits_iff {t : Outline σ} {test : Node σ → Nat → Bool} {chain : List Nat} {a k : Nat} :
    (a, k) ∈ t.hits test 0 chain ↔ t.PassesAt test chain k a := by
  rw [hits, List.mem_filter, List.mk_mem_zipIdx_iff_getElem?, PassesAt]

theorem le_depth_of_mem_hits {t : Outline σ} {test : Node σ → Nat → Bool} {depth : Nat}
    {chain : List Nat} {p : Nat × Nat} (hp : p ∈ t.hits test depth chain) : depth ≤ p.2 :=
  (List.mem_zipIdx (List.mem_filter.mp hp).1).1

/-- What passes stands in the order of its distances. -/
theorem pairwise_hits (t : Outline σ) (test : Node σ → Nat → Bool) (depth : Nat)
    (chain : List Nat) : (t.hits test depth chain).Pairwise fun p q => p.2 < q.2 := by
  refine List.Pairwise.filter _ (List.pairwise_map.mp ?_)
  rw [List.zipIdx_map_snd]
  exact List.pairwise_lt_range'

/-- Where distances grow, the first entry is the one with the smallest. -/
theorem head?_eq_some_iff_of_pairwise {l : List (Nat × Nat)}
    (h : l.Pairwise fun p q => p.2 < q.2) (p : Nat × Nat) :
    l.head? = some p ↔ p ∈ l ∧ ∀ q ∈ l, p.2 ≤ q.2 := by
  cases l with
  | nil => simp
  | cons first l =>
      have hrest : ∀ q ∈ l, first.2 < q.2 := (List.pairwise_cons.mp h).1
      constructor
      · intro hp
        cases hp
        refine ⟨List.mem_cons_self, List.forall_mem_cons.mpr ⟨Nat.le_refl _, ?_⟩⟩
        intro q hq
        exact Nat.le_of_lt (hrest q hq)
      · rintro ⟨hp, hle⟩
        rcases List.mem_cons.mp hp with rfl | hp
        · rfl
        · have hlt := hrest p hp
          have hge := hle first List.mem_cons_self
          omega

/-- And the last entry is the one with the largest. -/
theorem getLast?_eq_some_iff_of_pairwise {l : List (Nat × Nat)}
    (h : l.Pairwise fun p q => p.2 < q.2) (p : Nat × Nat) :
    l.getLast? = some p ↔ p ∈ l ∧ ∀ q ∈ l, q.2 ≤ p.2 := by
  rcases List.eq_nil_or_concat l with rfl | ⟨front, last, rfl⟩
  · simp
  · rw [List.concat_eq_append] at h ⊢
    have hbefore : ∀ q ∈ front, q.2 < last.2 := by
      intro q hq
      exact (List.pairwise_append.mp h).2.2 q hq last (List.mem_singleton_self last)
    rw [List.getLast?_concat]
    constructor
    · intro hp
      cases hp
      refine ⟨by simp, fun q hq => ?_⟩
      rcases List.mem_append.mp hq with hq | hq
      · exact Nat.le_of_lt (hbefore q hq)
      · exact Nat.le_of_eq (congrArg Prod.snd (List.mem_singleton.mp hq))
    · rintro ⟨hp, hle⟩
      rcases List.mem_append.mp hp with hp | hp
      · have hlt := hbefore p hp
        have hge := hle last (by simp)
        omega
      · rw [List.mem_singleton.mp hp]

theorem head?_hits_eq_some_iff {t : Outline σ} {test : Node σ → Nat → Bool} {chain : List Nat}
    {a k : Nat} :
    (t.hits test 0 chain).head? = some (a, k) ↔
      t.PassesAt test chain k a ∧ ∀ j b, t.PassesAt test chain j b → k ≤ j := by
  rw [head?_eq_some_iff_of_pairwise (t.pairwise_hits test 0 chain), mem_hits_iff, Prod.forall,
    forall_comm]
  simp only [mem_hits_iff]

theorem getLast?_hits_eq_some_iff {t : Outline σ} {test : Node σ → Nat → Bool} {chain : List Nat}
    {a k : Nat} :
    (t.hits test 0 chain).getLast? = some (a, k) ↔
      t.PassesAt test chain k a ∧ ∀ j b, t.PassesAt test chain j b → j ≤ k := by
  rw [getLast?_eq_some_iff_of_pairwise (t.pairwise_hits test 0 chain), mem_hits_iff, Prod.forall,
    forall_comm]
  simp only [mem_hits_iff]

/-! ## The searches -/

/-- One step upward from a node that has a parent. -/
theorem searchUp_of_parent? {t : Outline σ} {id p : Nat} {n : Node σ} (hn : t.node? id = some n)
    (hparent : t.parent? id = some p) (test : Node σ → Nat → Bool) (stop : Bool)
    (levels depth : Nat) :
    t.searchUp test stop (levels + 1) depth id =
      if test n depth && stop then .ok [id]
      else (t.searchUp test stop levels (depth + 1) p).map fun above =>
        if test n depth then id :: above else above := by
  rw [parent?_eq_of_node? hn] at hparent
  rw [searchUp_of_node? hn, hparent]

/-- The last step, at the root. -/
theorem searchUp_of_parent?_eq_none {t : Outline σ} {id : Nat} {n : Node σ}
    (hn : t.node? id = some n) (hparent : t.parent? id = none) (test : Node σ → Nat → Bool)
    (stop : Bool) (levels depth : Nat) :
    t.searchUp test stop (levels + 1) depth id = .ok (if test n depth then [id] else []) := by
  rw [parent?_eq_of_node? hn] at hparent
  rw [searchUp_of_node? hn, hparent]
  by_cases hstop : (test n depth && stop) = true
  · rw [Bool.and_eq_true] at hstop
    simp [hstop]
  · simp [hstop, Except.map]

/-- What fails exactly if a bound is passed. -/
theorem ite_ok_eq_tooDeep_iff {α : Type} (length : Nat) (found : α) :
    (if length ≤ maxDepth then .ok found else .error .tooDeep : Except SearchError α) =
      .error .tooDeep ↔ maxDepth < length := by
  by_cases hlength : length ≤ maxDepth
  · simp [hlength, Nat.not_lt.mpr hlength]
  · simp [hlength, Nat.lt_of_not_le hlength]

namespace Linked

variable {t : Outline σ}

/-- A search that collects gives what passes in the chain, unless the chain is too long. -/
theorem searchUp_eq (h : t.Linked) (test : Node σ → Nat → Bool) {id : Nat} {chain : List Nat}
    (hchain : t.Lineage id chain) (levels depth : Nat) :
    t.searchUp test false levels depth id =
      if chain.length ≤ levels then .ok ((t.hits test depth chain).map Prod.fst)
      else .error .tooDeep := by
  induction levels generalizing id chain depth with
  | zero => cases hchain <;> rfl
  | succ levels ih =>
      cases hchain with
      | root =>
          obtain ⟨n, hn⟩ : ∃ n, t.node? Outline.root = some n := exists_node? h.size_pos
          rw [searchUp_of_parent?_eq_none hn h.root_parent]
          by_cases htest : test n depth = true <;> simp [hits, passes, hn, htest]
      | @step _ p chain hparent habove =>
          obtain ⟨n, hn⟩ := exists_node? (lt_size_of_parent? hparent)
          have hpass : t.passes test (id, depth) = test n depth := by simp [passes, hn]
          rw [searchUp_of_parent? hn hparent, ih habove, hits_cons, hpass]
          by_cases hlength : chain.length ≤ levels
          · by_cases htest : test n depth = true <;> simp [hlength, htest, Except.map]
          · simp [hlength, Except.map]

/-- A search that stops gives the first of what passes in the chain, if it comes to it. -/
theorem searchUp_stop_eq (h : t.Linked) (test : Node σ → Nat → Bool) {id : Nat} {chain : List Nat}
    (hchain : t.Lineage id chain) (levels depth : Nat) :
    t.searchUp test true levels depth id =
      match (t.hits test depth chain).head? with
      | some p => if p.2 < depth + levels then .ok [p.1] else .error .tooDeep
      | none => if chain.length ≤ levels then .ok [] else .error .tooDeep := by
  induction levels generalizing id chain depth with
  | zero =>
      have hlength : ¬ chain.length ≤ 0 := by cases hchain <;> simp
      rw [searchUp, searchUpOr]
      cases hhead : (t.hits test depth chain).head? with
      | none => simp only [hlength, if_false]
      | some p =>
          -- nothing that passes lies nearer than the start
          have hle := le_depth_of_mem_hits (List.mem_of_mem_head? hhead)
          simp only [Nat.add_zero, Nat.not_lt.mpr hle, if_false]
  | succ levels ih =>
      cases hchain with
      | root =>
          obtain ⟨n, hn⟩ : ∃ n, t.node? Outline.root = some n := exists_node? h.size_pos
          rw [searchUp_of_parent?_eq_none hn h.root_parent]
          by_cases htest : test n depth = true <;> simp [hits, passes, hn, htest]
      | @step _ p chain hparent habove =>
          obtain ⟨n, hn⟩ := exists_node? (lt_size_of_parent? hparent)
          have hpass : t.passes test (id, depth) = test n depth := by simp [passes, hn]
          have hlimit : depth + 1 + levels = depth + (levels + 1) := by omega
          rw [searchUp_of_parent? hn hparent, ih habove, hits_cons, hpass, hlimit]
          by_cases htest : test n depth = true
          · simp [htest]
          · cases hhead : (t.hits test (depth + 1) chain).head? with
            | none =>
                by_cases hlength : chain.length ≤ levels <;> simp [hhead, htest, hlength, Except.map]
            | some q =>
                by_cases hnear : q.2 < depth + (levels + 1) <;>
                  simp [hhead, htest, hnear, Except.map]

theorem parents_eq (h : t.Linked) (test : Node σ → Nat → Bool) {id : Nat} {chain : List Nat}
    (hchain : t.Lineage id chain) :
    t.parents id test =
      if chain.length ≤ maxDepth then .ok ((t.hits test 0 chain).map Prod.fst)
      else .error .tooDeep :=
  h.searchUp_eq test hchain maxDepth 0

theorem topmostParent?_eq (h : t.Linked) (test : Node σ → Nat → Bool) {id : Nat}
    {chain : List Nat} (hchain : t.Lineage id chain) :
    t.topmostParent? id test =
      if chain.length ≤ maxDepth then .ok ((t.hits test 0 chain).getLast?.map Prod.fst)
      else .error .tooDeep := by
  rw [topmostParent?, h.parents_eq test hchain]
  by_cases hlength : chain.length ≤ maxDepth <;>
    simp [hlength, bind, Except.bind, pure, Except.pure]

/-- The search for the nearest find either comes to the nearest node that passes, if that is near
enough, or to the end of the chain, if that is. -/
theorem firstParent?_cases (h : t.Linked) (test : Node σ → Nat → Bool) {id : Nat}
    {chain : List Nat} (hchain : t.Lineage id chain) :
    (∃ k a, t.PassesAt test chain k a ∧ (∀ j b, t.PassesAt test chain j b → k ≤ j) ∧
      t.firstParent? id test = if k < maxDepth then .ok (some a) else .error .tooDeep) ∨
    (∀ k a, ¬ t.PassesAt test chain k a) ∧
      t.firstParent? id test =
        if chain.length ≤ maxDepth then .ok none else .error .tooDeep := by
  rw [firstParent?, h.searchUp_stop_eq test hchain, Nat.zero_add]
  cases hhead : (t.hits test 0 chain).head? with
  | none =>
      refine .inr ⟨fun k a hpass => ?_, ?_⟩
      · rw [← mem_hits_iff, List.head?_eq_none_iff.mp hhead] at hpass
        cases hpass
      · by_cases hlength : chain.length ≤ maxDepth <;>
          simp [hlength, bind, Except.bind, pure, Except.pure]
  | some p =>
      obtain ⟨a, k⟩ := p
      obtain ⟨hpass, hnearest⟩ := head?_hits_eq_some_iff.mp hhead
      refine .inl ⟨k, a, hpass, hnearest, ?_⟩
      by_cases hnear : k < maxDepth <;> simp [hnear, bind, Except.bind, pure, Except.pure]

theorem firstParent?_eq_some_iff (h : t.Linked) (test : Node σ → Nat → Bool) {id : Nat}
    {chain : List Nat} (hchain : t.Lineage id chain) (a : Nat) :
    t.firstParent? id test = .ok (some a) ↔
      ∃ k < maxDepth, t.PassesAt test chain k a ∧ ∀ j b, t.PassesAt test chain j b → k ≤ j := by
  obtain ⟨k, b, hpass, hnearest, hsearch⟩ | ⟨hnone, hsearch⟩ := h.firstParent?_cases test hchain
  · rw [hsearch]
    constructor
    · intro hfound
      by_cases hnear : k < maxDepth
      · rw [if_pos hnear] at hfound
        cases hfound
        exact ⟨k, hnear, hpass, hnearest⟩
      · rw [if_neg hnear] at hfound
        cases hfound
    · rintro ⟨k', hnear, hpass', hnearest'⟩
      -- both are nearest, so they are the same
      obtain rfl : k' = k := Nat.le_antisymm (hnearest' k b hpass) (hnearest k' a hpass')
      obtain rfl : b = a := Option.some.inj (hpass.1.symm.trans hpass'.1)
      rw [if_pos hnear]
  · rw [hsearch]
    constructor
    · intro hfound
      by_cases hlength : chain.length ≤ maxDepth <;> simp [hlength] at hfound
    · rintro ⟨k, -, hpass, -⟩
      exact absurd hpass (hnone k a)

theorem firstParent?_eq_none_iff (h : t.Linked) (test : Node σ → Nat → Bool) {id : Nat}
    {chain : List Nat} (hchain : t.Lineage id chain) :
    t.firstParent? id test = .ok none ↔
      chain.length ≤ maxDepth ∧ ∀ k a, ¬ t.PassesAt test chain k a := by
  obtain ⟨k, a, hpass, -, hsearch⟩ | ⟨hnone, hsearch⟩ := h.firstParent?_cases test hchain
  · rw [hsearch]
    constructor
    · intro hfound
      by_cases hnear : k < maxDepth <;> simp [hnear] at hfound
    · rintro ⟨-, hnone⟩
      exact absurd hpass (hnone k a)
  · rw [hsearch]
    by_cases hlength : chain.length ≤ maxDepth <;> simp [hlength, hnone]

theorem firstParent?_eq_error_iff (h : t.Linked) (test : Node σ → Nat → Bool) {id : Nat}
    {chain : List Nat} (hchain : t.Lineage id chain) :
    t.firstParent? id test = .error .tooDeep ↔
      maxDepth < chain.length ∧ ∀ k < maxDepth, ∀ a, ¬ t.PassesAt test chain k a := by
  obtain ⟨k, a, hpass, hnearest, hsearch⟩ | ⟨hnone, hsearch⟩ := h.firstParent?_cases test hchain
  · rw [hsearch]
    by_cases hnear : k < maxDepth
    · rw [if_pos hnear]
      constructor
      · intro herror
        cases herror
      · rintro ⟨-, hnone⟩
        exact absurd hpass (hnone k hnear a)
    · rw [if_neg hnear]
      refine iff_of_true rfl ⟨?_, fun j hj b hpass' => ?_⟩
      · have hlt : k < chain.length := (List.getElem?_eq_some_iff.mp hpass.1).1
        omega
      · have hle := hnearest j b hpass'
        omega
  · rw [hsearch, ite_ok_eq_tooDeep_iff]
    exact (and_iff_left fun k _ a => hnone k a).symm

end Linked

/-- **What searches upward find.** Let the chain lead from a node to the root. The search that
collects fails exactly if the chain has more nodes than a search goes through, and otherwise gives
those that pass, the nearest first. The search for the topmost find fails in the same cases, and
otherwise gives the node that passes farthest from the start, if there is one. The search for the
nearest find gives the node that passes nearest to the start, if that is within reach; it gives
nothing if nothing passes and the chain ends in time, and fails only if nothing within reach passes
and the chain goes on. -/
theorem Built.upward_exact {t : Outline σ} (h : t.Built) {id : Nat} (hid : id < t.size)
    (test : Node σ → Nat → Bool) :
    ∃ chain, (∀ other, t.Lineage id other ↔ other = chain) ∧
      (t.parents id test = .error .tooDeep ↔ maxDepth < chain.length) ∧
      (chain.length ≤ maxDepth →
        t.parents id test = .ok ((chain.zipIdx.filter (t.passes test)).map Prod.fst)) ∧
      (t.topmostParent? id test = .error .tooDeep ↔ maxDepth < chain.length) ∧
      (chain.length ≤ maxDepth → ∃ found, t.topmostParent? id test = .ok found ∧
        ∀ a, found = some a ↔ ∃ k, t.PassesAt test chain k a ∧
          ∀ j b, t.PassesAt test chain j b → j ≤ k) ∧
      (∀ a, t.firstParent? id test = .ok (some a) ↔ ∃ k < maxDepth, t.PassesAt test chain k a ∧
        ∀ j b, t.PassesAt test chain j b → k ≤ j) ∧
      (t.firstParent? id test = .ok none ↔
        chain.length ≤ maxDepth ∧ ∀ k a, ¬ t.PassesAt test chain k a) ∧
      (t.firstParent? id test = .error .tooDeep ↔
        maxDepth < chain.length ∧ ∀ k < maxDepth, ∀ a, ¬ t.PassesAt test chain k a) := by
  have hl := h.linked
  obtain ⟨chain, hchain⟩ := hl.exists_lineage hid
  refine ⟨chain, fun other => ⟨fun hother => hl.lineage_unique hother hchain, ?_⟩, ?_, ?_, ?_, ?_,
    ?_, ?_, ?_⟩
  · rintro rfl
    exact hchain
  · rw [hl.parents_eq test hchain, ite_ok_eq_tooDeep_iff]
  · intro hlength
    rw [hl.parents_eq test hchain, if_pos hlength, hits]
  · rw [hl.topmostParent?_eq test hchain, ite_ok_eq_tooDeep_iff]
  · intro hlength
    refine ⟨_, by rw [hl.topmostParent?_eq test hchain, if_pos hlength], fun a => ?_⟩
    rw [Option.map_eq_some_iff]
    constructor
    · rintro ⟨⟨b, k⟩, hlast, rfl⟩
      exact ⟨k, getLast?_hits_eq_some_iff.mp hlast⟩
    · rintro ⟨k, hpass⟩
      exact ⟨(a, k), getLast?_hits_eq_some_iff.mpr hpass, rfl⟩
  · exact hl.firstParent?_eq_some_iff test hchain
  · exact hl.firstParent?_eq_none_iff test hchain
  · exact hl.firstParent?_eq_error_iff test hchain

theorem pit_upward_exact : 67 < pit.size ∧ ∃ chain, pit.Lineage 67 chain ∧
    maxDepth < chain.length ∧
    pit.topmostParent? 67 (fun _ depth => depth == 63) = .error .tooDeep ∧
    ∃ k < maxDepth, pit.PassesAt (fun _ depth => depth == 63) chain k 4 := by
  have hid : 67 < pit.size := by rw [size_pit]; decide
  obtain ⟨chain, hchain, herror, -, htopmost, -, hfirst, -, -⟩ :=
    built_pit.upward_exact hid fun _ depth => depth == 63
  have hlength : maxDepth < chain.length := herror.mp (by decide +kernel)
  obtain ⟨k, hk, hpass, -⟩ := (hfirst 4).mp (by decide +kernel)
  exact ⟨hid, chain, (hchain chain).mpr rfl, hlength, htopmost.mpr hlength, k, hk, hpass⟩

/-! ## Upward and downward -/

/-- The test for one node at one distance. -/
def isAt (id k : Nat) (n : Node σ) (depth : Nat) : Bool := n.id == id && depth == k

theorem Linked.isAt_iff {t : Outline σ} (h : t.Linked) {c : Nat} {n : Node σ}
    (hn : t.node? c = some n) (id k depth : Nat) : isAt id k n depth = true ↔ c = id ∧ depth = k := by
  rw [isAt, Bool.and_eq_true, beq_iff_eq, beq_iff_eq, h.id_eq hn]

/-- A list without repetitions that can only hold one thing holds it or nothing. -/
theorem eq_nil_or_singleton {α : Type} {l : List α} {a : α} (hnodup : l.Nodup)
    (h : ∀ c ∈ l, c = a) : l = [] ∨ l = [a] := by
  match l with
  | [] => exact .inl rfl
  | [c] => exact .inr (congrArg ([·]) (h c List.mem_cons_self))
  | c :: c' :: l =>
      have hsame : c = c' := (h c (by simp)).trans (h c' (by simp)).symm
      simp [hsame] at hnodup

/-- A search downward for one node at one distance. -/
theorem Linked.allDescendants_isAt {t : Outline σ} (h : t.Linked) {a : Nat} (ha : a < t.size)
    (hshallow : ¬ t.TooDeep a) (d k : Nat) (hd : d < t.size) :
    ∃ found, t.allDescendants a (isAt d k) = .ok found ∧ (found = [] ∨ found = [d]) ∧
      (d ∈ found ↔ t.Below a d k) := by
  have hmem := h.mem_found_iff ha (isAt d k)
  refine ⟨_, h.allDescendants_of_not_tooDeep ha hshallow (isAt d k), ?_, ?_⟩
  · refine eq_nil_or_singleton ((h.nodup_subtree ha).sublist (List.filter_sublist.map Prod.fst)) ?_
    intro c hc
    obtain ⟨depth, n, -, hn, hat⟩ := (hmem c).mp hc
    exact ((h.isAt_iff hn d k depth).mp hat).1
  · rw [hmem d]
    constructor
    · rintro ⟨depth, n, hbelow, hn, hat⟩
      rw [h.isAt_iff hn] at hat
      exact hat.2 ▸ hbelow
    · intro hbelow
      obtain ⟨n, hn⟩ := exists_node? hd
      exact ⟨k, n, hbelow, hn, (h.isAt_iff hn d k k).mpr ⟨rfl, rfl⟩⟩

/-- A search upward for one node at one distance. -/
theorem Linked.parents_isAt {t : Outline σ} (h : t.Linked) {d : Nat} {chain : List Nat}
    (hchain : t.Lineage d chain) (hlength : chain.length ≤ maxDepth) (a k : Nat) (ha : a < t.size) :
    ∃ found, t.parents d (isAt a k) = .ok found ∧ (found = [] ∨ found = [a]) ∧
      (a ∈ found ↔ t.Below a d k) := by
  obtain ⟨n, hn⟩ := exists_node? ha
  have hpass : ∀ c depth, t.passes (isAt a k) (c, depth) = true ↔ c = a ∧ depth = k := by
    intro c depth
    rw [passes, Option.any_eq_true]
    constructor
    · rintro ⟨m, hm, hat⟩
      exact (h.isAt_iff hm a k depth).mp hat
    · rintro ⟨rfl, rfl⟩
      exact ⟨n, hn, (h.isAt_iff hn c depth depth).mpr ⟨rfl, rfl⟩⟩
  have hhits : ∀ p, p ∈ t.hits (isAt a k) 0 chain ↔ chain[k]? = some a ∧ p = (a, k) := by
    rintro ⟨c, depth⟩
    rw [mem_hits_iff, PassesAt, hpass, Prod.mk.injEq]
    constructor
    · rintro ⟨hat, rfl, rfl⟩
      exact ⟨hat, rfl, rfl⟩
    · rintro ⟨hat, rfl, rfl⟩
      exact ⟨hat, rfl, rfl⟩
  refine ⟨_, by rw [h.parents_eq _ hchain, if_pos hlength], ?_, ?_⟩
  · have hnodup : (t.hits (isAt a k) 0 chain).Nodup :=
      (t.pairwise_hits (isAt a k) 0 chain).imp fun hlt heq => absurd hlt (by simp [heq])
    have hcases := eq_nil_or_singleton hnodup fun p hp => ((hhits p).mp hp).2
    exact hcases.imp (congrArg (List.map Prod.fst)) (congrArg (List.map Prod.fst))
  · rw [h.below_iff_getElem? hchain, List.mem_map]
    constructor
    · rintro ⟨p, hp, -⟩
      exact ((hhits p).mp hp).1
    · intro hat
      exact ⟨(a, k), (hhits (a, k)).mpr ⟨hat, rfl⟩, rfl⟩

/-- A search that finds a node exactly if something holds has shown that it holds. -/
theorem below_of_found {search : Except SearchError (List Nat)} {id : Nat} {only : List Nat → Prop}
    {below : Prop} (h : ∃ found, search = .ok found ∧ only found ∧ (id ∈ found ↔ below))
    (hsearch : search = .ok [id]) : below := by
  obtain ⟨found, hfound, -, hbelow⟩ := h
  rw [hsearch] at hfound
  cases hfound
  exact hbelow.mp (List.mem_singleton_self id)

/-- A node lies below another at one distance only. -/
theorem Linked.below_depth_unique {t : Outline σ} (h : t.Linked) {a d k k' : Nat}
    (ha : a < t.size) (hbelow : t.Below a d k) (hbelow' : t.Below a d k') : k = k' := by
  rw [← h.mem_subtree_iff ha] at hbelow hbelow'
  have hsame := List.inj_on_of_nodup_map (h.nodup_subtree ha) hbelow hbelow' rfl
  exact congrArg Prod.snd hsame

/-- **Searches upward and downward find each other.** Take two nodes such that no search downward
from the first fails and no search upward from the second. At each distance the first search finds
the second node exactly if the second search finds the first node, which is if the one lies so far
below the other; neither finds anything else, and both find something at one distance at most. -/
theorem Built.allDescendants_dual_parents {t : Outline σ} (h : t.Built) {a d : Nat}
    (ha : a < t.size) (hd : d < t.size) {down up : Node σ → Nat → Bool} {below above : List Nat}
    (hdown : t.allDescendants a down = .ok below) (hup : t.parents d up = .ok above) :
    (∀ k, ∃ found found', t.allDescendants a (isAt d k) = .ok found ∧
      t.parents d (isAt a k) = .ok found' ∧
      (d ∈ found ↔ a ∈ found') ∧ (d ∈ found ↔ t.Below a d k) ∧
      (found = [] ∨ found = [d]) ∧ (found' = [] ∨ found' = [a])) ∧
    ∀ k k', (t.allDescendants a (isAt d k) = .ok [d] → t.allDescendants a (isAt d k') = .ok [d] →
        k = k') ∧
      (t.parents d (isAt a k) = .ok [a] → t.parents d (isAt a k') = .ok [a] → k = k') := by
  have hl := h.linked
  have hshallow : ¬ t.TooDeep a := by
    intro hdeep
    rw [hl.allDescendants_of_tooDeep ha hdeep down] at hdown
    cases hdown
  obtain ⟨chain, hchain⟩ := hl.exists_lineage hd
  have hlength : chain.length ≤ maxDepth := by
    by_contra hlong
    rw [hl.parents_eq up hchain, if_neg hlong] at hup
    cases hup
  have hdownAt := fun k => hl.allDescendants_isAt ha hshallow d k hd
  have hupAt := fun k => hl.parents_isAt hchain hlength a k ha
  refine ⟨fun k => ?_, fun k k' => ⟨fun hk hk' => ?_, fun hk hk' => ?_⟩⟩
  · obtain ⟨found, hfound, honly, hbelow⟩ := hdownAt k
    obtain ⟨found', hfound', honly', hbelow'⟩ := hupAt k
    exact ⟨found, found', hfound, hfound', hbelow.trans hbelow'.symm, hbelow, honly, honly'⟩
  · exact hl.below_depth_unique ha (below_of_found (hdownAt k) hk) (below_of_found (hdownAt k') hk')
  · exact hl.below_depth_unique ha (below_of_found (hupAt k) hk) (below_of_found (hupAt k') hk')

theorem pit_allDescendants_dual_parents :
    pit.allDescendants 4 (fun _ _ => false) = .ok [] ∧ pit.parents 66 (fun _ _ => false) = .ok [] ∧
    pit.Below 4 66 62 ∧
    ∀ k k', pit.allDescendants 4 (isAt 66 k) = .ok [66] →
      pit.allDescendants 4 (isAt 66 k') = .ok [66] → k = k' := by
  have hdown : pit.allDescendants 4 (fun _ _ => false) = .ok [] := by decide +kernel
  have hup : pit.parents 66 (fun _ _ => false) = .ok [] := by decide +kernel
  obtain ⟨hfound, honce⟩ := built_pit.allDescendants_dual_parents
    (show 4 < pit.size by rw [size_pit]; decide) (show 66 < pit.size by rw [size_pit]; decide)
    hdown hup
  obtain ⟨found, found', -, hsearch, hdual, hbelow, -, -⟩ := hfound 62
  have hup62 : pit.parents 66 (isAt 4 62) = .ok [4] := by decide +kernel
  rw [hup62] at hsearch
  cases hsearch
  exact ⟨hdown, hup, hbelow.mp (hdual.mpr (List.mem_singleton_self 4)), fun k k' =>
    (honce k k').1⟩

end EnumTags.Outline

import EnumTags.Proofs.Preorder

/-!
# Searching from any node

A search downward may begin at any node. What it can see is the list of everything from that node
on, each node before those below it and with its distance from the start (`Outline.subtree`). A
search that collects everything fails exactly if this list holds a node too far down, and otherwise
gives those that pass its test. A search that stops is decided by which comes first in the list: a
node that passes or a node too far down.

## Main results

* `Outline.Built.allDescendants_exact`: a search that collects, read off the list.
* `Outline.Built.descendants_stop_exact`: a search that stops, read off the same list.
-/

namespace EnumTags.Outline

variable {σ : Type}

/-! ## Everything below a node -/

/-- `c` lies `depth` levels below `id`: so many steps lead to it, each to a child. -/
inductive Below (t : Outline σ) (id : Nat) : (c depth : Nat) → Prop
  | self : Below t id id 0
  | child {p c depth : Nat} (hp : Below t id p depth) (hc : c ∈ t.children p) :
      Below t id c (depth + 1)

/-- Below a child is below its parent, one level further down. -/
theorem Below.of_child {t : Outline σ} {id c d depth : Nat} (hc : c ∈ t.children id)
    (hbelow : t.Below c d depth) : t.Below id d (depth + 1) := by
  induction hbelow with
  | self => exact .child .self hc
  | child _ hd ih => exact .child ih hd

namespace Linked

variable {t : Outline σ}

theorem le_of_below (h : t.Linked) {id c depth : Nat} (hbelow : t.Below id c depth) : id ≤ c := by
  induction hbelow with
  | self => exact Nat.le_refl id
  | child _ hc ih =>
      have hlt := h.lt_of_mem_children hc
      omega

theorem not_below_of_mem_children (h : t.Linked) {id c depth : Nat} (hc : c ∈ t.children id) :
    ¬ t.Below c id depth := by
  intro hbelow
  have hlt := h.lt_of_mem_children hc
  have hle := h.le_of_below hbelow
  omega

/-- No child lies below another one. -/
theorem not_below_sibling (h : t.Linked) {id c d depth : Nat} (hc : c ∈ t.children id)
    (hd : d ∈ t.children id) (hne : c ≠ d) : ¬ t.Below c d depth := by
  intro hbelow
  cases hbelow with
  | self => exact hne rfl
  | child hp hmem =>
      have hparent := (h.mem_children_iff.mp hd).symm.trans (h.mem_children_iff.mp hmem)
      cases hparent
      exact h.not_below_of_mem_children hc hp

end Linked

/-- Whether something lies too far below a node for a search from there. -/
def TooDeep (t : Outline σ) (id : Nat) : Prop := ∃ c depth, t.Below id c depth ∧ maxDepth ≤ depth

/-- Everything from a node on, with its distance: a node stands before those below it. No node lies
further down than there are nodes. -/
def subtree (t : Outline σ) (id : Nat) : List (Nat × Nat) := t.preorderFrom t.size 0 id

/-- Whether a node at some distance passes a test. -/
def passes (t : Outline σ) (test : Node σ → Nat → Bool) (p : Nat × Nat) : Bool :=
  (t.node? p.1).any (test · p.2)

/-- Counting from a later start only adds to the distances. -/
theorem preorderFrom_add (t : Outline σ) (levels depth more id : Nat) :
    t.preorderFrom levels (depth + more) id =
      (t.preorderFrom levels depth id).map fun p => (p.1, p.2 + more) := by
  induction levels generalizing depth id with
  | zero => rfl
  | succ levels ih =>
      have hchild : ∀ child, t.preorderFrom levels (depth + more + 1) child =
          (t.preorderFrom levels (depth + 1) child).map fun p => (p.1, p.2 + more) := by
        intro child
        rw [← ih (depth + 1) child, Nat.add_right_comm]
      rw [preorderFrom, preorderFrom, List.map_cons, List.map_flatMap, funext hchild]

theorem below_of_mem_preorderFrom {t : Outline σ} {start levels depth id c d : Nat}
    (hstart : t.Below start id depth) (hmem : (c, d) ∈ t.preorderFrom levels depth id) :
    t.Below start c d := by
  induction levels generalizing depth id with
  | zero => cases hmem
  | succ levels ih =>
      rcases List.mem_cons.mp hmem with hhead | hbelow
      · cases hhead
        exact hstart
      · obtain ⟨child, hchild, hc⟩ := List.mem_flatMap.mp hbelow
        exact ih (.child hstart hchild) hc

namespace Linked

variable {t : Outline σ}

/-- As many levels as there are nodes show everything. -/
theorem preorderFrom_eq_subtree (h : t.Linked) {levels id : Nat} (hid : id < t.size)
    (hlevels : t.size ≤ levels) : t.preorderFrom levels 0 id = t.subtree id :=
  preorderFrom_of_le h 0 hid (by omega) hlevels

/-- **The order of the list**: a node, and then what is below each of its children in turn. -/
theorem subtree_eq (h : t.Linked) {id : Nat} (hid : id < t.size) :
    t.subtree id = (id, 0) ::
      (t.children id).flatMap fun child => (t.subtree child).map fun p => (p.1, p.2 + 1) := by
  rw [← h.preorderFrom_eq_subtree hid (Nat.le_succ t.size), preorderFrom]
  congr 1
  refine List.flatMap_congr fun child _ => ?_
  exact preorderFrom_add t t.size 0 1 child

theorem mem_subtree_iff (h : t.Linked) {id : Nat} (hid : id < t.size) {c d : Nat} :
    (c, d) ∈ t.subtree id ↔ t.Below id c d := by
  constructor
  · exact below_of_mem_preorderFrom .self
  · intro hbelow
    induction hbelow with
    | self =>
        rw [h.subtree_eq hid]
        exact List.mem_cons_self
    | child _ hc ih => exact mem_preorderFrom_child h (by omega) ih hc

/-- Every node below is listed once. -/
theorem nodup_subtree (h : t.Linked) {id : Nat} (hid : id < t.size) :
    ((t.subtree id).map Prod.fst).Nodup := by
  obtain ⟨path, hpath⟩ := h.exists_path hid
  have hlength : path.length = 0 + (path.length - 1) + 1 := by cases hpath <;> simp
  have hnodup := nodup_preorderFrom h t.size (0 + (path.length - 1)) hpath hlength
  rw [preorderFrom_add, List.map_map] at hnodup
  exact hnodup

/-- Something lies so many levels below a node exactly if there is a way down to it. -/
theorem reaches_iff_exists_below (h : t.Linked) {id : Nat} (hid : id < t.size) (levels : Nat) :
    t.reaches levels id = true ↔ ∃ c depth, t.Below id c depth ∧ levels ≤ depth := by
  have hlist := h.preorderFrom_eq_subtree hid (Nat.le_max_left t.size (levels + 1))
  rw [reaches_iff t 0 id (Nat.le_max_right t.size (levels + 1)), hlist, Nat.zero_add]
  constructor
  · rintro ⟨⟨c, d⟩, hmem, hdeep⟩
    exact ⟨c, d, (h.mem_subtree_iff hid).mp hmem, hdeep⟩
  · rintro ⟨c, d, hbelow, hdeep⟩
    exact ⟨(c, d), (h.mem_subtree_iff hid).mpr hbelow, hdeep⟩

theorem reaches_maxDepth_iff (h : t.Linked) {id : Nat} (hid : id < t.size) :
    t.reaches maxDepth id = true ↔ t.TooDeep id :=
  h.reaches_iff_exists_below hid maxDepth

theorem not_reaches_maxDepth (h : t.Linked) {id : Nat} (hid : id < t.size)
    (hshallow : ¬ t.TooDeep id) : t.reaches maxDepth id = false := by
  rw [← Bool.not_eq_true, h.reaches_maxDepth_iff hid]
  exact hshallow

end Linked

/-! ## Searches that collect -/

/-- A walk lists what passes, in the order of the list. -/
theorem walk_eq (t : Outline σ) (test : Node σ → Nat → Bool) (levels depth id : Nat) :
    t.walk test levels depth id =
      ((t.preorderFrom levels depth id).filter (t.passes test)).map Prod.fst := by
  induction levels generalizing depth id with
  | zero => rfl
  | succ levels ih =>
      rw [preorderFrom, List.filter_cons, List.filter_flatMap]
      cases hn : t.node? id with
      | none => simp [walk, passes, children, hn]
      | some n =>
          have hhead : t.passes test (id, depth) = test n depth := by simp [passes, hn]
          rw [hhead, children_eq_of_node? hn]
          by_cases htest : test n depth = true
          · simp [walk, hn, htest, funext (ih (depth + 1)), List.map_flatMap]
          · simp [walk, hn, htest, funext (ih (depth + 1)), List.map_flatMap]

/-- Where nothing lies further down, more levels show nothing more. -/
theorem preorderFrom_of_not_reaches {t : Outline σ} {levels more id : Nat} (depth : Nat)
    (h : t.reaches levels id = false) (hle : levels ≤ more) :
    t.preorderFrom more depth id = t.preorderFrom levels depth id := by
  induction levels generalizing more depth id with
  | zero => cases h
  | succ levels ih =>
      obtain ⟨more, rfl⟩ : ∃ m, more = m + 1 := ⟨more - 1, by omega⟩
      rw [reaches_succ_eq_false] at h
      rw [preorderFrom, preorderFrom]
      congr 1
      exact List.flatMap_congr fun child hchild => ih (depth + 1) (h child hchild) (by omega)

/-- What a search collects where nothing lies too far down. -/
theorem Linked.allDescendants_of_not_tooDeep {t : Outline σ} (h : t.Linked) {id : Nat}
    (hid : id < t.size) (hshallow : ¬ t.TooDeep id) (test : Node σ → Nat → Bool) :
    t.allDescendants id test = .ok (((t.subtree id).filter (t.passes test)).map Prod.fst) := by
  have hreach := h.not_reaches_maxDepth hid hshallow
  have hlist : t.preorderFrom maxDepth 0 id = t.subtree id := by
    rw [← h.preorderFrom_eq_subtree hid (Nat.le_max_left t.size maxDepth)]
    exact (preorderFrom_of_not_reaches 0 hreach (Nat.le_max_right t.size maxDepth)).symm
  rw [allDescendants, descendants, searchDown_of_not_reaches t test 0 hreach, walk_eq, hlist]

theorem Linked.allDescendants_of_tooDeep {t : Outline σ} (h : t.Linked) {id : Nat}
    (hid : id < t.size) (hdeep : t.TooDeep id) (test : Node σ → Nat → Bool) :
    t.allDescendants id test = .error .tooDeep :=
  searchDown_of_reaches t test 0 ((h.reaches_maxDepth_iff hid).mpr hdeep)

theorem Linked.mem_found_iff {t : Outline σ} (h : t.Linked) {id : Nat} (hid : id < t.size)
    (test : Node σ → Nat → Bool) (c : Nat) :
    c ∈ ((t.subtree id).filter (t.passes test)).map Prod.fst ↔
      ∃ depth n, t.Below id c depth ∧ t.node? c = some n ∧ test n depth = true := by
  simp only [List.mem_map, List.mem_filter, Prod.exists, exists_and_right, exists_eq_right, passes,
    Option.any_eq_true_iff_get, h.mem_subtree_iff hid]
  constructor
  · rintro ⟨depth, hbelow, hsome, htest⟩
    exact ⟨depth, _, hbelow, (Option.some_get hsome).symm, htest⟩
  · rintro ⟨depth, n, hbelow, hn, htest⟩
    refine ⟨depth, hbelow, by simp [hn], ?_⟩
    simpa [hn] using htest

/-- **A search that collects finds exactly what passes.** It fails if and only if something lies too
far below its start, whatever the test. Otherwise it gives the nodes from the start on that pass the
test at their distance, each once and in the order of the list of all of them: a node, and then what
is below each of its children in turn. -/
theorem Built.allDescendants_exact {t : Outline σ} (h : t.Built) {id : Nat} (hid : id < t.size)
    (test : Node σ → Nat → Bool) :
    (t.allDescendants id test = .error .tooDeep ↔ t.TooDeep id) ∧
    (¬ t.TooDeep id → ∃ found, t.allDescendants id test = .ok found ∧
      found = ((t.subtree id).filter (t.passes test)).map Prod.fst ∧
      found.Nodup ∧
      ∀ c, c ∈ found ↔ ∃ depth n, t.Below id c depth ∧ t.node? c = some n ∧ test n depth = true) ∧
    ∀ i < t.size, t.subtree i = (i, 0) ::
      (t.children i).flatMap fun child => (t.subtree child).map fun p => (p.1, p.2 + 1) := by
  have hl := h.linked
  refine ⟨⟨fun herror => ?_, fun hdeep => hl.allDescendants_of_tooDeep hid hdeep test⟩,
    fun hshallow => ?_, fun i hi => hl.subtree_eq hi⟩
  · by_contra hshallow
    rw [hl.allDescendants_of_not_tooDeep hid hshallow test] at herror
    cases herror
  · refine ⟨_, hl.allDescendants_of_not_tooDeep hid hshallow test, rfl, ?_,
      hl.mem_found_iff hid test⟩
    exact (hl.nodup_subtree hid).sublist (List.filter_sublist.map Prod.fst)

/-- Adds nodes one below the other, the first of them below `parent`. -/
def pushChain (t : Outline Unit) (parent : Nat) : Nat → Outline Unit
  | 0 => t
  | count + 1 => pushChain (t.push parent .nested [] ()) t.size count

theorem Built.pushChain {t : Outline Unit} (h : t.Built) {parent : Nat} (hparent : parent < t.size)
    (count : Nat) : (t.pushChain parent count).Built := by
  induction count generalizing t parent with
  | zero => exact h
  | succ count ih =>
      refine ih (h.push hparent .nested [] ()) ?_
      rw [size_push]
      omega

/-- A declaration with a variant, behind which more follows than a search goes through. -/
def pit : Outline Unit := branch.pushChain root maxDepth

theorem built_pit : pit.Built := by
  have hbranch : branch.Built :=
    .push (.push (.push (.new _ _ _) (by decide) _ _ _) (by decide) _ _ _) (by decide) _ _ _
  exact hbranch.pushChain (by decide) maxDepth

theorem size_pit : pit.size = 68 := by decide +kernel

theorem pit_allDescendants_exact : pit.TooDeep root ∧ ¬ pit.TooDeep 4 ∧
    ∃ found, pit.allDescendants 4 (fun _ depth => depth == 63) = .ok found ∧ found.Nodup ∧
      ∀ c, c ∈ found ↔ ∃ depth n, pit.Below 4 c depth ∧ pit.node? c = some n ∧
        (depth == 63) = true := by
  obtain ⟨hroot, -⟩ :=
    built_pit.allDescendants_exact (show root < pit.size by rw [size_pit]; decide) fun _ _ => true
  obtain ⟨hchild, hfound, -⟩ := built_pit.allDescendants_exact
    (show 4 < pit.size by rw [size_pit]; decide) fun _ depth => depth == 63
  have hok : pit.allDescendants 4 (fun _ depth => depth == 63) = .ok [67] := by decide +kernel
  have hshallow : ¬ pit.TooDeep 4 := by
    rw [← hchild, hok]
    intro hc
    cases hc
  obtain ⟨found, hsearch, -, hnodup, hmem⟩ := hfound hshallow
  exact ⟨hroot.mp (by decide +kernel), hshallow, found, hsearch, hnodup, hmem⟩

/-! ## Searches that stop -/

/-- The first find from a node on that is not too far down. -/
def firstFind? (t : Outline σ) (id : Nat) (test : Node σ → Nat → Bool) : Option (Nat × Nat) :=
  (t.subtree id).find? fun p => decide (p.2 < maxDepth) && t.passes test p

/-- The first node from a node on that is too far down. -/
def firstTooDeep? (t : Outline σ) (id : Nat) : Option (Nat × Nat) :=
  (t.subtree id).find? fun p => p.2 == maxDepth

/-- The one of two elements that comes first in a list, as far as they are given. -/
def earlier? {α : Type} [BEq α] (l : List α) : Option α → Option α → Option α
  | some x, some y => if l.idxOf x < l.idxOf y then some x else some y
  | some x, none => some x
  | none, found => found

/-- Of two things that a list is searched for at once, the one that comes first is found. -/
theorem find?_or_eq {α : Type} [BEq α] [LawfulBEq α] (p q : α → Bool) (l : List α) :
    l.find? (fun a => q a || p a) = earlier? l (l.find? fun a => !q a && p a) (l.find? q) := by
  induction l with
  | nil => rfl
  | cons a l ih =>
      by_cases hq : q a = true
      · cases hx : l.find? (fun a => !q a && p a) <;> simp [earlier?, hq, hx]
      · rw [Bool.not_eq_true] at hq
        by_cases hp : p a = true
        · cases hy : l.find? q with
          | none => simp [earlier?, hq, hp, hy]
          | some y =>
              have hne : a ≠ y := by
                rintro rfl
                rw [List.find?_some hy] at hq
                cases hq
              simp [earlier?, hq, hp, hy, List.idxOf_cons_ne l hne]
        · rw [Bool.not_eq_true] at hp
          simp only [List.find?_cons, hq, hp, Bool.or_self, Bool.not_false, Bool.and_false, ih]
          cases hx : l.find? (fun a => !q a && p a) with
          | none => rfl
          | some x =>
              cases hy : l.find? q with
              | none => rfl
              | some y =>
                  have hxa : a ≠ x := by
                    rintro rfl
                    have hpass := List.find?_some hx
                    simp [hp] at hpass
                  have hya : a ≠ y := by
                    rintro rfl
                    rw [List.find?_some hy] at hq
                    cases hq
                  simp [earlier?, List.idxOf_cons_ne l hxa, List.idxOf_cons_ne l hya]

/-- The first node that lies too far down lies at the limit, since one at the limit stands above
every other. -/
theorem find?_preorderFrom_limit (t : Outline σ) (limit levels : Nat) {depth : Nat} (id : Nat)
    (hdepth : depth ≤ limit) :
    (t.preorderFrom levels depth id).find? (fun p => decide (limit ≤ p.2)) =
      (t.preorderFrom levels depth id).find? (fun p => p.2 == limit) := by
  induction levels generalizing depth id with
  | zero => rfl
  | succ levels ih =>
      rw [preorderFrom, List.find?_cons, List.find?_cons]
      by_cases hlimit : depth = limit
      · simp [hlimit]
      · have hbelow := fun child => ih child (show depth + 1 ≤ limit by omega)
        have hnear : ¬ limit ≤ depth := by omega
        simp only [hnear, List.find?_flatMap, funext hbelow, decide_false,
          beq_eq_false_iff_ne.mpr hlimit]

theorem Linked.isSome_firstTooDeep?_iff {t : Outline σ} (h : t.Linked) {id : Nat}
    (hid : id < t.size) : (t.firstTooDeep? id).isSome = true ↔ t.TooDeep id := by
  have hdeep : t.firstTooDeep? id = (t.subtree id).find? fun p => decide (maxDepth ≤ p.2) :=
    (find?_preorderFrom_limit t maxDepth t.size id (Nat.zero_le maxDepth)).symm
  simp only [hdeep, List.find?_isSome, Prod.exists, decide_eq_true_eq, h.mem_subtree_iff hid,
    TooDeep]

theorem Linked.descendants_stop_eq {t : Outline σ} (h : t.Linked) {id : Nat} (hid : id < t.size)
    (test : Node σ → Nat → Bool) :
    t.descendants id test true =
      match t.firstFind? id test, t.firstTooDeep? id with
      | some x, some y =>
        if (t.subtree id).idxOf x < (t.subtree id).idxOf y then .ok [x.1] else .error .tooDeep
      | some x, none => .ok [x.1]
      | none, some _ => .error .tooDeep
      | none, none => .ok [] := by
  have hlist := h.preorderFrom_eq_subtree hid (Nat.le_max_left t.size (maxDepth + 1))
  have hstop := searchDown_stop_eq t test 0 id (Nat.le_max_right t.size (maxDepth + 1))
  rw [hlist, Nat.zero_add] at hstop
  have hfind : (t.subtree id).find? (t.stops test maxDepth) =
      earlier? (t.subtree id) (t.firstFind? id test) (t.firstTooDeep? id) := by
    have hdeep : t.firstTooDeep? id = (t.subtree id).find? fun p => decide (maxDepth ≤ p.2) :=
      (find?_preorderFrom_limit t maxDepth t.size id (Nat.zero_le maxDepth)).symm
    have hnear : ∀ p : Nat × Nat, decide (p.2 < maxDepth) = !decide (maxDepth ≤ p.2) := by
      intro p
      rw [← decide_not]
      simp only [Nat.not_le]
    simp only [hdeep, firstFind?, hnear]
    exact find?_or_eq (t.passes test) (fun p => decide (maxDepth ≤ p.2)) (t.subtree id)
  rw [descendants, hstop, hfind]
  cases hx : t.firstFind? id test with
  | none =>
      cases hy : t.firstTooDeep? id with
      | none => rfl
      | some y =>
          have hlimit : y.2 = maxDepth := by simpa using List.find?_some hy
          simp [earlier?, stopped, hlimit]
  | some x =>
      have hnear : x.2 < maxDepth := by
        have hpass := List.find?_some hx
        simp only [Bool.and_eq_true, decide_eq_true_eq] at hpass
        exact hpass.1
      cases hy : t.firstTooDeep? id with
      | none => simp [earlier?, stopped, hnear]
      | some y =>
          have hlimit : y.2 = maxDepth := by simpa using List.find?_some hy
          by_cases hbefore : (t.subtree id).idxOf x < (t.subtree id).idxOf y
          · simp [earlier?, stopped, hbefore, hnear]
          · simp [earlier?, stopped, hbefore, hlimit]

/-- Where nothing lies too far down, stopping gives the first of what would be collected. -/
theorem Linked.descendants_stop_of_not_tooDeep {t : Outline σ} (h : t.Linked) {id : Nat}
    (hid : id < t.size) (hshallow : ¬ t.TooDeep id) (test : Node σ → Nat → Bool) {found : List Nat}
    (hfound : t.allDescendants id test = .ok found) :
    t.descendants id test true = .ok (found.take 1) := by
  have hreach := h.not_reaches_maxDepth hid hshallow
  rw [allDescendants, descendants, searchDown_of_not_reaches t test 0 hreach] at hfound
  rw [descendants, searchDown_stop_of_not_reaches t test 0 hreach, Except.ok.inj hfound]

/-- **A search that stops agrees with one that collects.** Let `x` be the first node from the start
on that passes the test and is not too far down, and `y` the first that is too far down. The search
gives `x` if it comes before `y`, or if there is no `y`; it fails if `y` comes first, and it finds
nothing if there is neither. Where the search that collects succeeds, this one gives the first of
what it collected; it succeeds where the other fails exactly if `x` comes before `y`. -/
theorem Built.descendants_stop_exact {t : Outline σ} (h : t.Built) {id : Nat} (hid : id < t.size)
    (test : Node σ → Nat → Bool) :
    (t.descendants id test true =
      match t.firstFind? id test, t.firstTooDeep? id with
      | some x, some y =>
        if (t.subtree id).idxOf x < (t.subtree id).idxOf y then .ok [x.1] else .error .tooDeep
      | some x, none => .ok [x.1]
      | none, some _ => .error .tooDeep
      | none, none => .ok []) ∧
    (∀ found, t.allDescendants id test = .ok found →
      t.descendants id test true = .ok (found.take 1) ∧
      t.firstDescendant? id test = .ok found.head?) ∧
    ((t.allDescendants id test = .error .tooDeep ∧
        ∃ found, t.descendants id test true = .ok found) ↔
      ∃ x y, t.firstFind? id test = some x ∧ t.firstTooDeep? id = some y ∧
        (t.subtree id).idxOf x < (t.subtree id).idxOf y) := by
  have hl := h.linked
  have hstop := hl.descendants_stop_eq hid test
  refine ⟨hstop, fun found hfound => ?_, ?_, ?_⟩
  · have hshallow : ¬ t.TooDeep id := by
      intro hdeep
      rw [hl.allDescendants_of_tooDeep hid hdeep test] at hfound
      cases hfound
    have hfirst := hl.descendants_stop_of_not_tooDeep hid hshallow test hfound
    refine ⟨hfirst, ?_⟩
    cases found <;> simp [firstDescendant?, hfirst, bind, Except.bind, pure, Except.pure]
  · rintro ⟨herror, found, hfound⟩
    have hdeep : t.TooDeep id := by
      by_contra hshallow
      rw [hl.allDescendants_of_not_tooDeep hid hshallow test] at herror
      cases herror
    obtain ⟨y, hy⟩ := Option.isSome_iff_exists.mp ((hl.isSome_firstTooDeep?_iff hid).mpr hdeep)
    rw [hstop, hy] at hfound
    cases hx : t.firstFind? id test with
    | none =>
        rw [hx] at hfound
        cases hfound
    | some x =>
        refine ⟨x, y, rfl, hy, ?_⟩
        by_contra hafter
        rw [hx] at hfound
        simp [hafter] at hfound
  · rintro ⟨x, y, hx, hy, hbefore⟩
    have hdeep : t.TooDeep id := (hl.isSome_firstTooDeep?_iff hid).mp (by rw [hy]; rfl)
    refine ⟨hl.allDescendants_of_tooDeep hid hdeep test, [x.1], ?_⟩
    rw [hstop, hx, hy]
    simp [hbefore]

theorem pit_descendants_stop_exact :
    pit.allDescendants root (fun n _ => n.kind == .variant) = .error .tooDeep ∧
    (∃ found, pit.descendants root (fun n _ => n.kind == .variant) true = .ok found) ∧
    pit.firstDescendant? 4 (fun _ depth => depth == 63) = .ok (some 67) := by
  obtain ⟨-, -, hrescued⟩ := built_pit.descendants_stop_exact
    (show root < pit.size by rw [size_pit]; decide) fun n _ => n.kind == .variant
  obtain ⟨-, hfirst, -⟩ := built_pit.descendants_stop_exact
    (show 4 < pit.size by rw [size_pit]; decide) fun _ depth => depth == 63
  obtain ⟨herror, hstop⟩ := hrescued.mpr ⟨(2, 1), (67, 64), by decide +kernel⟩
  exact ⟨herror, hstop, (hfirst [67] (by decide +kernel)).2⟩

end EnumTags.Outline

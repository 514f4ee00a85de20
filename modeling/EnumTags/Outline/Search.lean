import EnumTags.Outline.Basic

/-!
# Searching an outline

Searches go from a node up to the root or down to everything below it. A test sees a node and how
far it is from the start, which is itself tested at distance zero. No search looks at a node at
distance `maxDepth` or beyond: it fails there, whatever it has found, unless it was told to stop
at the first find and has one.
-/

namespace EnumTags

/-- How far a search goes. -/
def maxDepth : Nat := 64

/-- A search came to a node that is too far from its start. -/
inductive SearchError where
  | tooDeep
deriving DecidableEq, Repr

/-- The wording of the error. -/
def SearchError.message : SearchError → Text
  | .tooDeep =>
    ("syntax tree recursion was too deep (max " : Text) ++ Text.ofNat maxDepth ++ (")" : Text)

namespace Outline

variable {σ : Type}

/-- Searches upward, with `miss` as the answer where a number leads to no node. There are `levels`
more levels to go, and `depth` lie behind. -/
def searchUpOr (t : Outline σ) (miss : Except SearchError (List Nat)) (test : Node σ → Nat → Bool)
    (stop : Bool) : (levels depth id : Nat) → Except SearchError (List Nat)
  | 0, _, _ => .error .tooDeep
  | levels + 1, depth, id =>
    match t.node? id with
    | none => miss
    | some n =>
      if test n depth && stop then .ok [id]
      else do
        let above ← match n.parent with
          | some parent => searchUpOr t miss test stop levels (depth + 1) parent
          | none => .ok []
        return if test n depth then id :: above else above

/-- Searches upward; where a number leads to no node, nothing is found. -/
def searchUp (t : Outline σ) (test : Node σ → Nat → Bool) (stop : Bool) (levels depth id : Nat) :
    Except SearchError (List Nat) :=
  t.searchUpOr (.ok []) test stop levels depth id

/-- Searches one node after the other, up to the first find if that is wanted. -/
def searchEach (search : Nat → Except SearchError (List Nat)) (stop : Bool) :
    List Nat → Except SearchError (List Nat)
  | [] => .ok []
  | id :: ids => do
    let found ← search id
    if stop && !found.isEmpty then return found
    return found ++ (← searchEach search stop ids)

/-- Searches downward, a node before its children, with `miss` as the answer where a number leads
to no node. There are `levels` more levels to go, and `depth` lie behind. -/
def searchDownOr (t : Outline σ) (miss : Except SearchError (List Nat)) (test : Node σ → Nat → Bool)
    (stop : Bool) : (levels depth id : Nat) → Except SearchError (List Nat)
  | 0, _, _ => .error .tooDeep
  | levels + 1, depth, id =>
    match t.node? id with
    | none => miss
    | some n =>
      if test n depth && stop then .ok [id]
      else do
        let below ← searchEach (searchDownOr t miss test stop levels (depth + 1)) stop n.children
        return if test n depth then id :: below else below

/-- Searches downward; where a number leads to no node, nothing is found. -/
def searchDown (t : Outline σ) (test : Node σ → Nat → Bool) (stop : Bool) (levels depth id : Nat) :
    Except SearchError (List Nat) :=
  t.searchDownOr (.ok []) test stop levels depth id

/-! One step of a search, in terms of the search itself. -/

theorem searchUp_of_node? {t : Outline σ} {id : Nat} {n : Node σ} (hn : t.node? id = some n)
    (test : Node σ → Nat → Bool) (stop : Bool) (levels depth : Nat) :
    t.searchUp test stop (levels + 1) depth id =
      if test n depth && stop then .ok [id]
      else (match n.parent with
        | some parent => t.searchUp test stop levels (depth + 1) parent
        | none => .ok []).map fun above => if test n depth then id :: above else above := by
  simp only [searchUp, searchUpOr, hn]
  cases n.parent with
  | none => rfl
  | some parent => cases t.searchUpOr (.ok []) test stop levels (depth + 1) parent <;> rfl

theorem searchDown_of_node? {t : Outline σ} {id : Nat} {n : Node σ} (hn : t.node? id = some n)
    (test : Node σ → Nat → Bool) (stop : Bool) (levels depth : Nat) :
    t.searchDown test stop (levels + 1) depth id =
      if test n depth && stop then .ok [id]
      else (searchEach (t.searchDown test stop levels (depth + 1)) stop n.children).map fun below =>
        if test n depth then id :: below else below := by
  have hbelow : t.searchDown test stop levels (depth + 1) =
      t.searchDownOr (.ok []) test stop levels (depth + 1) := rfl
  simp only [searchDown, searchDownOr, hn, hbelow]
  cases searchEach (t.searchDownOr (.ok []) test stop levels (depth + 1)) stop n.children <;> rfl

theorem searchDown_of_node?_eq_none {t : Outline σ} {id : Nat} (hn : t.node? id = none)
    (test : Node σ → Nat → Bool) (stop : Bool) (levels depth : Nat) :
    t.searchDown test stop (levels + 1) depth id = .ok [] := by
  rw [searchDown, searchDownOr, hn]

/-- The node and its ancestors that pass the test, the nearest first. -/
def parents (t : Outline σ) (id : Nat) (test : Node σ → Nat → Bool) :
    Except SearchError (List Nat) :=
  t.searchUp test false maxDepth 0 id

/-- The nearest node that passes the test, going up. -/
def firstParent? (t : Outline σ) (id : Nat) (test : Node σ → Nat → Bool) :
    Except SearchError (Option Nat) := do
  return (← t.searchUp test true maxDepth 0 id).head?

/-- The node nearest to the root that passes the test, going up. -/
def topmostParent? (t : Outline σ) (id : Nat) (test : Node σ → Nat → Bool) :
    Except SearchError (Option Nat) := do
  return (← t.parents id test).getLast?

/-- The nodes from here down that pass the test, each before those below it; at most the first of
them if `stop` is set. -/
def descendants (t : Outline σ) (id : Nat) (test : Node σ → Nat → Bool) (stop : Bool) :
    Except SearchError (List Nat) :=
  t.searchDown test stop maxDepth 0 id

/-- All nodes from here down that pass the test. -/
def allDescendants (t : Outline σ) (id : Nat) (test : Node σ → Nat → Bool) :
    Except SearchError (List Nat) :=
  t.descendants id test false

/-- The first node from here down that passes the test. -/
def firstDescendant? (t : Outline σ) (id : Nat) (test : Node σ → Nat → Bool) :
    Except SearchError (Option Nat) := do
  return (← t.descendants id test true).head?

end Outline

end EnumTags

import EnumTags.Text.LetterCase
import Mathlib.Data.List.Basic

/-!
# Laws of snake case

An underscore cuts a name into parts that do not see each other: behind it no word begins, and
before it no capital has a small letter behind it. So `snakeCase` goes over an underscore part by
part, and it is `snakeCaseAfter` behind an underscore that is not there, which is why the laws below
are proved for `snakeCaseAfter` alone.

What `snakeCase` puts in stands before the lower case of a capital and behind a character that is no
underscore. In an ASCII text neither neighbour is an underscore then, and two underscores side by
side were both there before.

## Main definitions

* `isSnake`: the texts that are their own snake case.

## Main results

* `snakeCase_append_underscore`: snake case goes over an underscore part by part.
* `snakeCase_eq_self_iff`: what `isSnake` decides.
* `snakeCase_ascii`: the snake case of an ASCII text.
-/

namespace EnumTags.Text

/-! ## Lower case -/

theorem lowerChar_ne_nil (c : Char) : lowerChar c ≠ [] := by
  rw [lowerChar]
  split_ifs
  · simp
  · simp
  · split <;> simp

theorem lowerChar_of_ascii {c : Char} (h : c.toNat < 128) : lowerChar c = [c.toLower] := by
  rw [lowerChar, if_pos h]

/-- What holds of the first 128 characters holds of every ASCII character. -/
theorem forall_ascii {P : Char → Prop} (h : ∀ n < 128, P (Char.ofNat n)) (c : Char)
    (hc : c.toNat < 128) : P c := by
  rw [← Char.ofNat_toNat c]
  exact h c.toNat hc

theorem toNat_of_isUpper {c : Char} (h : c.isUpper = true) : 65 ≤ c.toNat ∧ c.toNat ≤ 90 := by
  have hrange : 'A'.val ≤ c.val ∧ c.val ≤ 'Z'.val := of_decide_eq_true h
  rw [UInt32.le_iff_toNat_le, UInt32.le_iff_toNat_le] at hrange
  exact hrange

/-- The lower case of an ASCII character is an ASCII character again, and no capital. -/
theorem toLower_ascii {c : Char} (h : c.toNat < 128) :
    c.toLower.toNat < 128 ∧ isUpper c.toLower = false ∧ (c.toLower = '_' ↔ c = '_') :=
  forall_ascii (P := fun c => c.toLower.toNat < 128 ∧ isUpper c.toLower = false ∧
    (c.toLower = '_' ↔ c = '_')) (by decide +kernel) c h

/-- The ASCII characters that are their own lower case are those that are no capitals. -/
theorem toLower_eq_self_iff {c : Char} (h : c.toNat < 128) :
    c.toLower = c ↔ isUpper c = false :=
  forall_ascii (P := fun c => c.toLower = c ↔ isUpper c = false) (by decide +kernel) c h

theorem not_isUpper_underscore : isUpper '_' = false := by decide

theorem lowerChar_underscore : lowerChar '_' = ['_'] := by decide

/-! ## Underscores -/

theorem not_beginsWord_underscore (rest : Text) : beginsWord '_' rest = false := by
  simp [beginsWord]

/-- What stands behind an underscore has no say in whether a word begins before it. -/
theorem beginsWord_append_underscore (previous : Char) (a b : Text) :
    beginsWord previous (a ++ '_' :: b) = beginsWord previous a := by
  have hlower : isLower '_' = false := by decide
  cases a with
  | nil => simp [beginsWord, hlower]
  | cons c a => simp [beginsWord]

@[simp]
theorem snakeCaseAfter_underscore (s : Text) : snakeCaseAfter '_' s = snakeCase s := by
  cases s with
  | nil => rfl
  | cons c s => simp [snakeCaseAfter, snakeCase, not_beginsWord_underscore]

theorem snakeCaseAfter_append_underscore (previous : Char) (a b : Text) :
    snakeCaseAfter previous (a ++ '_' :: b) = snakeCaseAfter previous a ++ '_' :: snakeCase b := by
  induction a generalizing previous with
  | nil => simp [snakeCaseAfter, not_isUpper_underscore, lowerChar_underscore]
  | cons c a ih =>
      simp only [List.cons_append, snakeCaseAfter, beginsWord_append_underscore, ih,
        List.append_assoc]

/-- **Snake case goes over an underscore part by part.** -/
theorem snakeCase_append_underscore (a b : Text) :
    snakeCase (a ++ '_' :: b) = snakeCase a ++ '_' :: snakeCase b := by
  rw [← snakeCaseAfter_underscore, snakeCaseAfter_append_underscore, snakeCaseAfter_underscore]

/-- Apart from the underscores, snake case is lower case. -/
theorem filter_snakeCaseAfter (previous : Char) (s : Text) :
    (snakeCaseAfter previous s).filter (· != '_') = (s.flatMap lowerChar).filter (· != '_') := by
  induction s generalizing previous with
  | nil => rfl
  | cons c s ih =>
      rw [snakeCaseAfter, List.filter_append, ih, List.flatMap_cons, List.filter_append]
      split <;> simp

/-- Snake case holds lower case and underscores. -/
theorem mem_snakeCaseAfter {previous d : Char} {s : Text} (h : d ∈ snakeCaseAfter previous s) :
    d = '_' ∨ ∃ c ∈ s, d ∈ lowerChar c := by
  by_cases hd : d = '_'
  · exact .inl hd
  · have hmem : d ∈ (snakeCaseAfter previous s).filter (· != '_') := by simp [h, hd]
    rw [filter_snakeCaseAfter] at hmem
    exact .inr (List.mem_flatMap.mp (List.mem_filter.mp hmem).1)

/-! ## Texts that are their own snake case -/

/-- Whether a text behind the character `previous` is its own snake case: every character is its
own lower case, and no word begins. -/
def isSnakeAfter : Char → Text → Bool
  | _, [] => true
  | previous, c :: rest =>
    lowerChar c == [c] && !(isUpper c && beginsWord previous rest) && isSnakeAfter c rest

/-- Whether a text is its own snake case. -/
def isSnake (s : Text) : Bool := isSnakeAfter '_' s

theorem length_le_snakeCaseAfter (previous : Char) (s : Text) :
    s.length ≤ (snakeCaseAfter previous s).length := by
  induction s generalizing previous with
  | nil => simp
  | cons c s ih =>
      have hlower := List.length_pos_iff.mpr (lowerChar_ne_nil c)
      have hrest := ih c
      simp only [snakeCaseAfter, List.length_append, List.length_cons]
      split
      · simp only [List.length_cons]
        omega
      · omega

/-- Snake case keeps a text behind `previous` as it is exactly if it changes no character of it. -/
theorem snakeCaseAfter_eq_self_iff (previous : Char) (s : Text) :
    snakeCaseAfter previous s = s ↔ isSnakeAfter previous s = true := by
  induction s generalizing previous with
  | nil => simp [snakeCaseAfter, isSnakeAfter]
  | cons c s ih =>
      have hlower := List.length_pos_iff.mpr (lowerChar_ne_nil c)
      have hrest := length_le_snakeCaseAfter c s
      by_cases hword : (isUpper c && beginsWord previous s) = true
      · have hlonger : snakeCaseAfter previous (c :: s) ≠ c :: s := by
          intro h
          have hlength := congrArg List.length h
          simp only [snakeCaseAfter, if_pos hword, List.length_append, List.length_cons] at hlength
          omega
        simp [isSnakeAfter, hword, hlonger]
      · rw [Bool.not_eq_true] at hword
        simp only [snakeCaseAfter, isSnakeAfter, hword, Bool.false_eq_true, if_false,
          Bool.not_false, Bool.and_true, Bool.and_eq_true, beq_iff_eq, ← ih]
        constructor
        · intro h
          -- The lower case of `c` is not empty, so what is behind it cannot reach further back.
          have hlength := congrArg List.length h
          simp only [List.length_append, List.length_cons] at hlength
          have hsingle : (lowerChar c).length = [c].length := by
            rw [List.length_singleton]
            omega
          exact List.append_inj h hsingle
        · rintro ⟨hc, hs⟩
          rw [hc, hs, List.singleton_append]

theorem snakeCase_eq_self_iff (s : Text) : snakeCase s = s ↔ isSnake s = true := by
  rw [← snakeCaseAfter_underscore, snakeCaseAfter_eq_self_iff, isSnake]

/-- In ASCII, a text without capitals is its own snake case. -/
theorem isSnakeAfter_of_ascii {s : Text} (hs : ∀ c ∈ s, c.toNat < 128) (previous : Char) :
    isSnakeAfter previous s = true ↔ ∀ c ∈ s, isUpper c = false := by
  induction s generalizing previous with
  | nil => simp [isSnakeAfter]
  | cons c s ih =>
      rw [List.forall_mem_cons] at hs
      cases hupper : isUpper c <;>
        simp [isSnakeAfter, lowerChar_of_ascii hs.1, toLower_eq_self_iff hs.1, hupper, ih hs.2]

/-! ## ASCII texts -/

theorem flatMap_lowerChar_of_ascii {s : Text} (hs : ∀ c ∈ s, c.toNat < 128) :
    s.flatMap lowerChar = s.map Char.toLower := by
  rw [← List.flatMap_singleton' (s.map Char.toLower), List.flatMap_map]
  refine List.flatMap_congr ?_
  intro c hc
  exact lowerChar_of_ascii (hs c hc)

/-- The snake case of an ASCII text is one, and holds no capital. -/
theorem ascii_of_mem_snakeCaseAfter {s : Text} (hs : ∀ c ∈ s, c.toNat < 128) {previous d : Char}
    (h : d ∈ snakeCaseAfter previous s) : d.toNat < 128 ∧ isUpper d = false := by
  rcases mem_snakeCaseAfter h with rfl | ⟨c, hc, hd⟩
  · decide
  · rw [lowerChar_of_ascii (hs c hc), List.mem_singleton] at hd
    obtain ⟨hcode, hupper, -⟩ := toLower_ascii (hs c hc)
    exact ⟨hd ▸ hcode, hd ▸ hupper⟩

/-- An underscore in front was there before. -/
theorem exists_of_snakeCase_eq_cons {s : Text} (hs : ∀ c ∈ s, c.toNat < 128) {b : Text}
    (h : snakeCase s = '_' :: b) : ∃ b', s = '_' :: b' ∧ b = snakeCase b' := by
  cases s with
  | nil => cases h
  | cons c s =>
      have hc : c.toNat < 128 := hs c List.mem_cons_self
      rw [snakeCase, lowerChar_of_ascii hc, List.singleton_append, List.cons.injEq] at h
      obtain rfl : c = '_' := (toLower_ascii hc).2.2.mp h.1
      exact ⟨s, rfl, by rw [← h.2, snakeCaseAfter_underscore]⟩

/-- What is written for one character ends before two underscores that stand side by side, or it is
the first of them. -/
theorem snakeCaseAfter_cons_eq_append {previous c : Char} {s a b : Text} (hc : c.toNat < 128)
    (h : snakeCaseAfter previous (c :: s) = a ++ '_' :: '_' :: b) :
    (∃ a₁, a = (if isUpper c && beginsWord previous s then '_' :: lowerChar c else lowerChar c) ++
        a₁ ∧ snakeCaseAfter c s = a₁ ++ '_' :: '_' :: b) ∨
    (c = '_' ∧ a = [] ∧ snakeCaseAfter c s = '_' :: b) := by
  have hunderscore : c.toLower = '_' ↔ c = '_' := (toLower_ascii hc).2.2
  rw [snakeCaseAfter, lowerChar_of_ascii hc] at h
  rw [lowerChar_of_ascii hc]
  by_cases hword : (isUpper c && beginsWord previous s) = true
  · -- The underscore that is put in has a character before it that is none, and one behind it.
    have hlower : c.toLower ≠ '_' := by
      intro heq
      rw [hunderscore.mp heq, not_isUpper_underscore, Bool.false_and] at hword
      cases hword
    rw [if_pos hword] at h ⊢
    match a with
    | [] => simp [hlower] at h
    | [x] => simp [hlower] at h
    | x :: y :: a =>
        simp only [List.cons_append, List.nil_append, List.cons.injEq] at h
        obtain ⟨rfl, rfl, hrest⟩ := h
        exact .inl ⟨a, rfl, hrest⟩
  · rw [if_neg hword] at h ⊢
    match a with
    | [] =>
        simp only [List.cons_append, List.nil_append, List.cons.injEq, hunderscore] at h
        exact .inr ⟨h.1, rfl, h.2⟩
    | x :: a =>
        simp only [List.cons_append, List.nil_append, List.cons.injEq] at h
        obtain ⟨rfl, hrest⟩ := h
        exact .inl ⟨a, rfl, hrest⟩

/-- Two underscores side by side were both there before, with the same parts around them. -/
theorem exists_of_snakeCaseAfter_eq_append {s : Text} (hs : ∀ c ∈ s, c.toNat < 128)
    {previous : Char} {a b : Text} (h : snakeCaseAfter previous s = a ++ '_' :: '_' :: b) :
    ∃ a' b', s = a' ++ '_' :: '_' :: b' ∧ a = snakeCaseAfter previous a' ∧ b = snakeCase b' := by
  induction s generalizing previous a with
  | nil => simp [snakeCaseAfter] at h
  | cons c s ih =>
      rw [List.forall_mem_cons] at hs
      rcases snakeCaseAfter_cons_eq_append hs.1 h with ⟨a₁, rfl, hrest⟩ | ⟨rfl, rfl, hrest⟩
      · obtain ⟨a', b', rfl, rfl, hb⟩ := ih hs.2 hrest
        refine ⟨c :: a', b', rfl, ?_, hb⟩
        rw [snakeCaseAfter, beginsWord_append_underscore]
      · rw [snakeCaseAfter_underscore] at hrest
        obtain ⟨b', rfl, hb⟩ := exists_of_snakeCase_eq_cons hs.2 hrest
        exact ⟨[], b', rfl, rfl, hb⟩

/-- **The snake case of an ASCII text** holds no capital, and apart from the underscores it is the
lower case. Two underscores side by side, and one in front, are those of the text: what stands
around them is the snake case of what stands around them in the text. A second pass changes
nothing. -/
theorem snakeCase_ascii {s : Text} (hs : ∀ c ∈ s, c.toNat < 128) :
    (∀ c ∈ snakeCase s, isUpper c = false) ∧
    (snakeCase s).filter (· != '_') = (s.map Char.toLower).filter (· != '_') ∧
    (∀ a b, snakeCase s = a ++ '_' :: '_' :: b ↔
      ∃ a' b', s = a' ++ '_' :: '_' :: b' ∧ a = snakeCase a' ∧ b = snakeCase b') ∧
    (∀ b, snakeCase s = '_' :: b ↔ ∃ b', s = '_' :: b' ∧ b = snakeCase b') ∧
    snakeCase (snakeCase s) = snakeCase s := by
  have hascii : ∀ d ∈ snakeCase s, d.toNat < 128 ∧ isUpper d = false := by
    intro d hd
    rw [← snakeCaseAfter_underscore] at hd
    exact ascii_of_mem_snakeCaseAfter hs hd
  refine ⟨fun c hc => (hascii c hc).2, ?_, fun a b => ⟨?_, ?_⟩, fun b => ⟨?_, ?_⟩, ?_⟩
  · rw [← snakeCaseAfter_underscore, filter_snakeCaseAfter, flatMap_lowerChar_of_ascii hs]
  · intro h
    simp only [← snakeCaseAfter_underscore s] at h
    simpa using exists_of_snakeCaseAfter_eq_append hs h
  · rintro ⟨a', b', rfl, rfl, rfl⟩
    rw [snakeCase_append_underscore, ← List.nil_append ('_' :: b'), snakeCase_append_underscore]
    rfl
  · exact exists_of_snakeCase_eq_cons hs
  · rintro ⟨b', rfl, rfl⟩
    exact snakeCase_append_underscore [] b'
  · rw [snakeCase_eq_self_iff, isSnake, isSnakeAfter_of_ascii fun d hd => (hascii d hd).1]
    exact fun d hd => (hascii d hd).2

/-- Old underscores and new ones, the latter inside a row of capitals and behind a small letter. -/
theorem snakeCase_ascii_mixed :
    (∀ c ∈ "HTTPServer2__aB".toList, c.toNat < 128) ∧
    snakeCase "HTTPServer2__aB" = "http_server2__a_b".toList ∧
    (∃ a' b', "HTTPServer2__aB".toList = a' ++ '_' :: '_' :: b' ∧
      "http_server2".toList = snakeCase a' ∧ "a_b".toList = snakeCase b') ∧
    snakeCase (snakeCase "HTTPServer2__aB") = snakeCase "HTTPServer2__aB" := by
  have hall : "HTTPServer2__aB".toList.all (fun c => c.toNat < 128) = true := by decide
  have hs : ∀ c ∈ "HTTPServer2__aB".toList, c.toNat < 128 := by
    intro c hc
    exact of_decide_eq_true (List.all_eq_true.mp hall c hc)
  have hsnake : snakeCase "HTTPServer2__aB" = "http_server2__a_b".toList := by decide
  obtain ⟨-, -, hpair, -, htwice⟩ := snakeCase_ascii hs
  exact ⟨hs, hsnake, (hpair _ _).mp hsnake, htwice⟩

end EnumTags.Text

import EnumTags.Proofs.ModuleNames
import Mathlib.Data.List.Basic

/-!
# Words of a camel-case name

A camel-case name is words without anything between them: each is capitalised or an acronym, and an
acronym does not follow an acronym, since nothing would tell the two apart. The snake case finds all
the words again. Behind its initial, a word has no capital that begins one: a capitalised word has
no other capital, and in an acronym each capital follows a capital and has no small letter behind
it. The initial of the next word does begin one, as it has a small letter behind it or none of the
capitals before it.

## Main definitions

* `IsCamelCase`: words that can be written without anything between them.

## Main results

* `Text.snakeCase_flatten`: snake case puts one underscore between neighbours.
* `snakeCase_of_isCamelCase`: the words are found again in the name of the module.
-/

namespace EnumTags

namespace Text

/-! ## Words -/

/-- Whether a word is a capital, a small letter, and then small letters and digits. -/
def isCapitalised : Text → Bool
  | initial :: second :: rest =>
    initial.isUpper && second.isLower && rest.all fun c => c.isLower || c.isDigit
  | _ => false

/-- Whether a word is capitals and nothing else. -/
def isAcronym (w : Text) : Bool := !w.isEmpty && w.all Char.isUpper

/-- Words in ASCII that can be written without anything between them. -/
structure IsCamelCase (ws : List Text) : Prop where
  /-- Each word is capitalised or an acronym. -/
  words : ∀ w ∈ ws, isCapitalised w = true ∨ isAcronym w = true
  /-- No acronym directly follows another. -/
  apart : ws.IsChain fun v w => ¬ (isAcronym v = true ∧ isAcronym w = true)

theorem IsCamelCase.tail {w : Text} {ws : List Text} (h : IsCamelCase (w :: ws)) :
    IsCamelCase ws :=
  ⟨fun v hv => h.words v (List.mem_cons_of_mem _ hv), h.apart.of_cons⟩

theorem isUpper_of_capital {c : Char} (h : c.isUpper = true) :
    c.toNat < 128 ∧ isUpper c = true ∧ isLower c = false ∧ c ≠ '_' := by
  have hascii : c.toNat < 128 := by
    have hcode := toNat_of_isUpper h
    omega
  exact ⟨hascii, forall_ascii (P := fun c => c.isUpper = true → isUpper c = true ∧
    isLower c = false ∧ c ≠ '_') (by decide +kernel) c hascii h⟩

theorem not_isUpper_of_small {c : Char} (h : (c.isLower || c.isDigit) = true) :
    c.toNat < 128 ∧ isUpper c = false ∧ c ≠ '_' := by
  have hascii : c.toNat < 128 := by
    rcases Bool.or_eq_true_iff.mp h with h | h
    · have hle : c.val ≤ 'z'.val := of_decide_eq_true (Bool.and_eq_true_iff.mp h).2
      have hcode : c.toNat ≤ 122 := UInt32.le_iff_toNat_le.mp hle
      omega
    · have hcode : c.toNat ≤ 57 := (Char.isDigit_iff_toNat.mp h).2
      omega
  exact ⟨hascii, forall_ascii (P := fun c => (c.isLower || c.isDigit) = true →
    isUpper c = false ∧ c ≠ '_') (by decide +kernel) c hascii h⟩

theorem exists_of_isCapitalised {w : Text} (h : isCapitalised w = true) :
    ∃ c d u, w = c :: d :: u ∧ c.isUpper = true ∧ isLower d = true ∧
      ∀ e ∈ d :: u, (e.isLower || e.isDigit) = true := by
  rw [isCapitalised.eq_def] at h
  split at h
  · rename_i c d u
    simp only [Bool.and_eq_true, List.all_eq_true] at h
    obtain ⟨⟨hc, hd⟩, hu⟩ := h
    refine ⟨c, d, u, rfl, hc, ?_, List.forall_mem_cons.mpr ⟨by simp [hd], hu⟩⟩
    have hcode := (not_isUpper_of_small (c := d) (by simp [hd])).1
    rw [isLower, if_pos hcode, hd]
  · cases h

theorem exists_of_isAcronym {w : Text} (h : isAcronym w = true) :
    ∃ c u, w = c :: u ∧ ∀ e ∈ c :: u, e.isUpper = true := by
  cases w with
  | nil => cases h
  | cons c u => exact ⟨c, u, rfl, by simpa [isAcronym] using h⟩

/-- A word begins with a capital. -/
theorem exists_initial {w : Text} (h : isCapitalised w = true ∨ isAcronym w = true) :
    ∃ c u, w = c :: u ∧ c.isUpper = true := by
  rcases h with h | h
  · obtain ⟨c, d, u, rfl, hc, -⟩ := exists_of_isCapitalised h
    exact ⟨c, d :: u, rfl, hc⟩
  · obtain ⟨c, u, rfl, hu⟩ := exists_of_isAcronym h
    exact ⟨c, u, rfl, hu c List.mem_cons_self⟩

theorem ascii_of_mem_word {w : Text} (h : isCapitalised w = true ∨ isAcronym w = true) {c : Char}
    (hc : c ∈ w) : c.toNat < 128 ∧ c ≠ '_' := by
  rcases h with h | h
  · obtain ⟨initial, d, u, rfl, hinitial, -, hu⟩ := exists_of_isCapitalised h
    rcases List.mem_cons.mp hc with rfl | hc
    · exact ⟨(isUpper_of_capital hinitial).1, (isUpper_of_capital hinitial).2.2.2⟩
    · exact ⟨(not_isUpper_of_small (hu c hc)).1, (not_isUpper_of_small (hu c hc)).2.2⟩
  · obtain ⟨initial, u, rfl, hu⟩ := exists_of_isAcronym h
    exact ⟨(isUpper_of_capital (hu c hc)).1, (isUpper_of_capital (hu c hc)).2.2.2⟩

/-- No word begins with a small letter. -/
theorem head?_flatten_of_isCamelCase {ws : List Text} (h : IsCamelCase ws) :
    ws.flatten.head?.any isLower = false := by
  cases ws with
  | nil => rfl
  | cons w ws =>
      obtain ⟨c, u, rfl, hc⟩ := exists_initial (h.words w List.mem_cons_self)
      simp [(isUpper_of_capital hc).2.2.1]

/-! ## Inside a word -/

/-- No word begins at what is no capital. -/
theorem snakeCaseAfter_append_of_small {u : Text}
    (hu : ∀ c ∈ u, (c.isLower || c.isDigit) = true) (previous : Char) (s : Text) :
    snakeCaseAfter previous (u ++ s) =
      u.map Char.toLower ++ snakeCaseAfter (u.getLastD previous) s := by
  induction u generalizing previous with
  | nil => rfl
  | cons c u ih =>
      rw [List.forall_mem_cons] at hu
      obtain ⟨hascii, hupper, -⟩ := not_isUpper_of_small hu.1
      simp only [List.cons_append, snakeCaseAfter, lowerChar_of_ascii hascii, hupper, ih hu.2,
        Bool.false_and, Bool.false_eq_true, if_false, List.nil_append, List.map_cons,
        List.getLastD_cons]

/-- No word begins in a row of capitals behind its first, up to what is no small letter. -/
theorem snakeCaseAfter_append_of_capitals {u s : Text} (hu : ∀ c ∈ u, c.isUpper = true)
    (hs : s.head?.any isLower = false) {previous : Char} (hprevious : isUpper previous = true) :
    snakeCaseAfter previous (u ++ s) =
      u.map Char.toLower ++ snakeCaseAfter (u.getLastD previous) s := by
  induction u generalizing previous with
  | nil => rfl
  | cons c u ih =>
      rw [List.forall_mem_cons] at hu
      obtain ⟨hascii, hupper, -⟩ := isUpper_of_capital hu.1
      have hnext : (u ++ s).head?.any isLower = false := by
        cases u with
        | nil => exact hs
        | cons d u => simp [(isUpper_of_capital (hu.2 d List.mem_cons_self)).2.2.1]
      have hinside : beginsWord previous (u ++ s) = false := by
        rw [beginsWord, hprevious, hnext, Bool.not_true, Bool.or_false, Bool.and_false]
      simp only [List.cons_append, snakeCaseAfter, lowerChar_of_ascii hascii, hinside,
        ih hu.2 hupper, Bool.and_false, Bool.false_eq_true, if_false, List.nil_append,
        List.map_cons, List.getLastD_cons]

/-- Behind its initial a word is put into lower case, if no small letter follows it. -/
theorem snakeCaseAfter_append_of_word {c : Char} {u s : Text}
    (h : isCapitalised (c :: u) = true ∨ isAcronym (c :: u) = true)
    (hs : s.head?.any isLower = false) :
    snakeCaseAfter c (u ++ s) = u.map Char.toLower ++ snakeCaseAfter (u.getLastD c) s := by
  rcases h with h | h
  · obtain ⟨_, d, v, heq, -, -, hu⟩ := exists_of_isCapitalised h
    obtain ⟨rfl, rfl⟩ := List.cons.inj heq
    exact snakeCaseAfter_append_of_small hu c s
  · obtain ⟨_, _, heq, hu⟩ := exists_of_isAcronym h
    obtain ⟨rfl, rfl⟩ := List.cons.inj heq
    rw [List.forall_mem_cons] at hu
    exact snakeCaseAfter_append_of_capitals hu.2 hs (isUpper_of_capital hu.1).2.1

/-! ## Between two words -/

/-- A word ends in no underscore, and in a capital only if it is an acronym. -/
theorem getLastD_of_word {c : Char} {u : Text}
    (h : isCapitalised (c :: u) = true ∨ isAcronym (c :: u) = true) :
    u.getLastD c ≠ '_' ∧ (isAcronym (c :: u) = true ∨ isUpper (u.getLastD c) = false) := by
  refine ⟨(ascii_of_mem_word h List.getLastD_mem_cons).2, ?_⟩
  rcases h with h | h
  · obtain ⟨_, d, v, heq, -, -, hu⟩ := exists_of_isCapitalised h
    obtain ⟨rfl, rfl⟩ := List.cons.inj heq
    rw [List.getLastD_cons]
    exact .inr (not_isUpper_of_small (hu _ List.getLastD_mem_cons)).2.1
  · exact .inl h

/-- Behind a word the next one begins: it has a small letter behind its initial, or it is an acronym
and the word before it does not end in a capital. -/
theorem beginsWord_of_word {c c' : Char} {u u' : Text}
    (h : isCapitalised (c :: u) = true ∨ isAcronym (c :: u) = true)
    (h' : isCapitalised (c' :: u') = true ∨ isAcronym (c' :: u') = true)
    (hapart : ¬ (isAcronym (c :: u) = true ∧ isAcronym (c' :: u') = true)) (s : Text) :
    beginsWord (u.getLastD c) (u' ++ s) = true := by
  obtain ⟨hne, hlast⟩ := getLastD_of_word h
  rw [beginsWord, bne_iff_ne.mpr hne, Bool.true_and, Bool.or_eq_true, Bool.not_eq_true']
  rcases h' with h' | h'
  · obtain ⟨_, d, v, heq, -, hd, -⟩ := exists_of_isCapitalised h'
    obtain ⟨rfl, rfl⟩ := List.cons.inj heq
    exact .inr hd
  · exact .inl (hlast.resolve_left fun hacronym => hapart ⟨hacronym, h'⟩)

/-- What follows the initial of the first word. -/
theorem snakeCaseAfter_flatten {c : Char} {u : Text} {ws : List Text}
    (h : IsCamelCase ((c :: u) :: ws)) :
    snakeCaseAfter c (u ++ ws.flatten) =
      u.map Char.toLower ++ ws.flatMap fun w => '_' :: w.map Char.toLower := by
  induction ws generalizing c u with
  | nil =>
      rw [snakeCaseAfter_append_of_word (h.words _ List.mem_cons_self)
        (head?_flatten_of_isCamelCase h.tail)]
      rfl
  | cons w ws ih =>
      have hword := h.words _ List.mem_cons_self
      rw [snakeCaseAfter_append_of_word hword (head?_flatten_of_isCamelCase h.tail)]
      obtain ⟨c', u', rfl, hc'⟩ := exists_initial (h.tail.words w List.mem_cons_self)
      have hbegins := beginsWord_of_word hword (h.tail.words _ List.mem_cons_self)
        (List.isChain_cons_cons.mp h.apart).1 ws.flatten
      obtain ⟨hascii, hupper, -⟩ := isUpper_of_capital hc'
      simp only [List.flatten_cons, List.cons_append, snakeCaseAfter, hupper, hbegins,
        Bool.true_and, if_true, lowerChar_of_ascii hascii, ih h.tail, List.flatMap_cons,
        List.map_cons, List.nil_append]

theorem intercalate_cons_eq_flatMap (separator w : Text) (ws : List Text) :
    separator.intercalate (w :: ws) = w ++ ws.flatMap (separator ++ ·) := by
  induction ws generalizing w with
  | nil => simp
  | cons w' ws ih =>
      rw [List.intercalate_cons_cons, ih, List.flatMap_cons, List.append_assoc, List.append_assoc]

/-- **Snake case puts one underscore between neighbours** in a camel-case name. -/
theorem snakeCase_flatten {ws : List Text} (h : IsCamelCase ws) :
    snakeCase ws.flatten = ['_'].intercalate (ws.map (List.map Char.toLower)) := by
  cases ws with
  | nil => rfl
  | cons w ws =>
      obtain ⟨c, u, rfl, hc⟩ := exists_initial (h.words w List.mem_cons_self)
      obtain ⟨hascii, -⟩ := isUpper_of_capital hc
      rw [List.map_cons, intercalate_cons_eq_flatMap, List.flatMap_map, List.flatten_cons,
        List.cons_append, snakeCase, snakeCaseAfter_flatten h, lowerChar_of_ascii hascii]
      rfl

/-- No word has an underscore. -/
theorem underscore_not_mem_word {w : Text} (h : isCapitalised w = true ∨ isAcronym w = true) :
    '_' ∉ w.map Char.toLower := by
  intro hmem
  obtain ⟨c, hc, heq⟩ := List.mem_map.mp hmem
  obtain ⟨hascii, hne⟩ := ascii_of_mem_word h hc
  exact hne ((toLower_ascii hascii).2.2.mp heq)

end Text

/-- **A camel-case name is taken apart at its words.** Its snake case is the words in lower case with
single underscores between them, and so the name of the module, where there is one, gives the words
again when it is split at its underscores. -/
theorem snakeCase_of_isCamelCase {ws : List Text} (h : Text.IsCamelCase ws) :
    Text.snakeCase ws.flatten = ['_'].intercalate (ws.map (List.map Char.toLower)) ∧
    ∀ i m : Ident, i.name = ws.flatten → i.moduleName = .ok m →
      m.name.splitOn '_' = ws.map (List.map Char.toLower) := by
  have hsnake := Text.snakeCase_flatten h
  refine ⟨hsnake, ?_⟩
  intro i m hi hm
  have hwords : ws.map (List.map Char.toLower) ≠ [] := by
    intro hnone
    rw [List.map_eq_nil_iff] at hnone
    have hword := i.isWord_name
    rw [hi, hnone] at hword
    cases hword
  rw [Ident.name_of_moduleName hm, hi, hsnake]
  refine List.splitOn_intercalate '_' ?_ hwords
  intro v hv
  obtain ⟨w, hw, rfl⟩ := List.mem_map.mp hv
  exact Text.underscore_not_mem_word (h.words w hw)

/-- Acronyms of several letters and of one, beside capitalised words. -/
theorem snakeCase_of_mixed_words :
    Text.IsCamelCase ["HTTP".toList, "Server2".toList, "X".toList, "Of".toList] ∧
    Text.snakeCase "HTTPServer2XOf" = "http_server2_x_of".toList ∧
    ∃ m, (Ident.plain "HTTPServer2XOf").moduleName = .ok m ∧
      m.name.splitOn '_' = ["http".toList, "server2".toList, "x".toList, "of".toList] := by
  have h : Text.IsCamelCase ["HTTP".toList, "Server2".toList, "X".toList, "Of".toList] :=
    ⟨by decide, by decide⟩
  obtain ⟨hsnake, hmodule⟩ := snakeCase_of_isCamelCase h
  rcases (Ident.plain "HTTPServer2XOf").moduleName_cases with ⟨hnone, -⟩ | ⟨-, m, hm, -, -⟩
  · exact absurd hnone (by decide)
  · exact ⟨h, hsnake, m, hm, hmodule _ m rfl hm⟩

end EnumTags

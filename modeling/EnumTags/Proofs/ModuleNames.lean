import EnumTags.Emission
import EnumTags.Proofs.AliasParameters
import EnumTags.Proofs.Names
import EnumTags.Proofs.SnakeCase

/-!
# Names of modules

The lower case of a letter is a letter, and the lower case of any character of a word stands in
words, so the snake case of a name is a word again. A word that is no keyword is a name as it is, a
keyword is one with the raw mark, and only five words have no raw form. Two of these cannot come out
of snake case: `Self` has a capital, and `_` is the snake case of nothing but itself.

## Main results

* `Text.isWord_snakeCase`: the snake case of a word is a word.
* `Ident.revive?_of_isWord`: what becomes of a word that is turned back into a name.
* `Ident.moduleName_exact`: when there is a name for the module, and which.
-/

namespace EnumTags

/-! ## The snake case of a word -/

namespace Text

/-- Whether the characters with the numbers from `lo` to `hi` are small letters of ASCII, or lie on
one run of the table of letters. -/
def areLetters (lo hi : Nat) : Bool :=
  (Nat.ble 97 lo && Nat.ble hi 122) || wordStartRuns.any fun r =>
    Nat.ble hi r.last && Nat.ble r.first lo && Nat.ble 128 r.first && r.step == 1

theorem isWordStart_of_areLetters {lo hi : Nat} (h : areLetters lo hi = true) {c : Char}
    (hlo : lo ≤ c.toNat) (hhi : c.toNat ≤ hi) : 97 ≤ c.toNat ∧ isWordStart c = true := by
  rw [areLetters, Bool.or_eq_true, Bool.and_eq_true, Nat.ble_eq, Nat.ble_eq] at h
  rcases h with ⟨hsmall, hlarge⟩ | hrun
  · refine ⟨by omega, ?_⟩
    exact forall_ascii (P := fun c => 97 ≤ c.toNat → c.toNat ≤ 122 → isWordStart c = true)
      (by decide +kernel) c (by omega) (by omega) (by omega)
  · obtain ⟨r, hr, hbounds⟩ := List.any_eq_true.mp hrun
    simp only [Bool.and_eq_true, beq_iff_eq, Nat.ble_eq] at hbounds
    obtain ⟨⟨⟨habove, hbelow⟩, hfirst⟩, hstep⟩ := hbounds
    refine ⟨by omega, ?_⟩
    rw [isWordStart, if_neg (by omega)]
    refine List.any_eq_true.mpr ⟨r, hr, ?_⟩
    simp only [Run.has, hstep, Nat.mod_one, beq_self_eq_true, Bool.and_true, Bool.and_eq_true,
      decide_eq_true_eq]
    omega

/-- A table entry for lower case leads to letters, or else it is about characters that stand in no
word. -/
theorem areLetters_lowerShifts : ∀ p ∈ lowerShifts,
    (areLetters (p.1.first + p.2).toNat (p.1.last + p.2).toNat = true ∧
      ((p.1.last + p.2).toNat < 0xd800 ∨
        0xdfff < (p.1.first + p.2).toNat ∧ (p.1.last + p.2).toNat < 0x110000)) ∨
    (wordStartRuns ++ wordOnlyInsideRuns).all
      (fun r => r.last.blt p.1.first || p.1.last.blt r.first) = true := by
  decide +kernel

/-- The lower case of a character of a word: in ASCII as usual, and outside it the character itself,
a letter, or the two characters of `İ`. -/
theorem lowerChar_cases {c : Char} (hc : isWordChar c = true) :
    (c.toNat < 128 ∧ lowerChar c = [c.toLower]) ∨ (128 ≤ c.toNat ∧ lowerChar c = [c]) ∨
      (∃ d, lowerChar c = [d] ∧ 97 ≤ d.toNat ∧ isWordStart d = true) ∨
      lowerChar c = ['i', Char.ofNat 0x307] := by
  rw [lowerChar]
  split_ifs with hascii hdotted
  · exact .inl ⟨hascii, rfl⟩
  · exact .inr (.inr (.inr rfl))
  · split
    case h_2 => exact .inr (.inl ⟨by omega, rfl⟩)
    case h_1 r shift hfound =>
      have hhas : r.has c = true := by
        simpa using List.find?_some hfound
      simp only [Run.has, Bool.and_eq_true, decide_eq_true_eq] at hhas
      obtain ⟨⟨hfirst, hlast⟩, -⟩ := hhas
      rcases areLetters_lowerShifts _ (List.mem_of_find?_eq_some hfound) with
        ⟨hletters, hvalid⟩ | hapart
      · -- The entry leads from `r` to letters, and `c` lies on `r`.
        have hlo : (r.first + shift).toNat ≤ (c.toNat + shift).toNat := by omega
        have hhi : (c.toNat + shift).toNat ≤ (r.last + shift).toNat := by omega
        have hscalar : (c.toNat + shift).toNat.isValidChar := by
          rw [Nat.isValidChar]
          simp only at hvalid
          omega
        have hcode : (Char.ofNat (c.toNat + shift).toNat).toNat = (c.toNat + shift).toNat := by
          rw [Char.ofNat, dif_pos hscalar]
          rfl
        rw [← hcode] at hlo hhi
        exact .inr (.inr (.inl ⟨_, rfl, isWordStart_of_areLetters hletters hlo hhi⟩))
      · have hnone := Run.anyHas_of_apart hapart hfirst hlast
        rw [Run.anyHas, List.any_append] at hnone
        rw [isWordChar, if_neg hascii, Run.anyHas, Run.anyHas, hnone] at hc
        cases hc

/-- The lower case of a character that may begin a word begins one, and that of any character of a
word stands in words. -/
theorem exists_lowerChar_eq_cons {c : Char} (hc : isWordChar c = true) :
    ∃ d ds, lowerChar c = d :: ds ∧ (d :: ds).all isWordChar = true ∧
      (isWordStart c = true → isWordStart d = true) := by
  rcases lowerChar_cases hc with ⟨hascii, hlower⟩ | ⟨-, hlower⟩ | ⟨d, hlower, -, hd⟩ | hlower
  · refine ⟨c.toLower, [], hlower, ?_⟩
    exact forall_ascii (P := fun c => isWordChar c = true → [c.toLower].all isWordChar = true ∧
      (isWordStart c = true → isWordStart c.toLower = true)) (by decide +kernel) c hascii hc
  · exact ⟨c, [], hlower, by simpa using hc, id⟩
  · exact ⟨d, [], hlower, by simpa using isWordChar_of_isWordStart hd, fun _ => hd⟩
  · exact ⟨'i', [Char.ofNat 0x307], hlower, by decide +kernel, fun _ => by decide⟩

/-- **The snake case of a word is a word.** -/
theorem isWord_snakeCase {s : Text} (h : isWord s = true) : isWord (snakeCase s) = true := by
  have hinside : ∀ d ∈ snakeCase s, isWordChar d = true := by
    intro d hd
    rw [← snakeCaseAfter_underscore] at hd
    rcases mem_snakeCaseAfter hd with rfl | ⟨c, hc, hdc⟩
    · decide
    · obtain ⟨e, es, hlower, hall, -⟩ := exists_lowerChar_eq_cons (isWordChar_of_mem_isWord h hc)
      rw [hlower] at hdc
      exact List.all_eq_true.mp hall d hdc
  cases s with
  | nil => cases h
  | cons c s =>
      have hc : isWordStart c = true := (Bool.and_eq_true_iff.mp h).1
      obtain ⟨d, ds, hlower, -, hd⟩ := exists_lowerChar_eq_cons (isWordChar_of_isWordStart hc)
      rw [snakeCase, hlower, List.cons_append] at hinside ⊢
      rw [List.forall_mem_cons] at hinside
      rw [isWord, hd hc, Bool.true_and]
      exact List.all_eq_true.mpr hinside.2

/-- A character with a smaller number than the small letters is the lower case of nothing outside
ASCII. -/
theorem eq_toLower_of_mem_lowerChar {c d : Char} (hc : isWordChar c = true)
    (hd : d ∈ lowerChar c) (hsmall : d.toNat < 97) : c.toNat < 128 ∧ d = c.toLower := by
  rcases lowerChar_cases hc with ⟨hascii, hlower⟩ | ⟨hcode, hlower⟩ | ⟨e, hlower, he, -⟩ | hlower
  · rw [hlower, List.mem_singleton] at hd
    exact ⟨hascii, hd⟩
  · rw [hlower, List.mem_singleton] at hd
    subst hd
    omega
  · rw [hlower, List.mem_singleton] at hd
    subst hd
    omega
  · rw [hlower] at hd
    have hlarge : ['i', Char.ofNat 0x307].all (fun e => 97 ≤ e.toNat) = true := by decide
    have hcode := of_decide_eq_true (List.all_eq_true.mp hlarge d hd)
    omega

/-- No capital of ASCII is left. -/
theorem capital_not_mem_snakeCase {s : Text} (h : isWord s = true) {d : Char}
    (hd : d.isUpper = true) : d ∉ snakeCase s := by
  intro hmem
  rw [← snakeCaseAfter_underscore] at hmem
  have hcode := toNat_of_isUpper hd
  rcases mem_snakeCaseAfter hmem with rfl | ⟨c, hc, hdc⟩
  · cases hd
  · obtain ⟨hascii, rfl⟩ :=
      eq_toLower_of_mem_lowerChar (isWordChar_of_mem_isWord h hc) hdc (by omega)
    have hnone := (toLower_ascii hascii).2.1
    rw [isUpper, if_pos (by omega), hd] at hnone
    cases hnone

/-- Only the underscore has itself as its snake case. -/
theorem snakeCase_eq_underscore_iff {s : Text} (h : isWord s = true) :
    snakeCase s = ['_'] ↔ s = ['_'] := by
  constructor
  · intro hsnake
    cases s with
    | nil => cases h
    | cons c s =>
        have hc : isWordChar c = true := isWordChar_of_mem_isWord h List.mem_cons_self
        have hlength := length_le_snakeCaseAfter c s
        obtain ⟨d, ds, hlower, -, -⟩ := exists_lowerChar_eq_cons hc
        rw [snakeCase, hlower, List.cons_append, List.cons.injEq, List.append_eq_nil_iff] at hsnake
        obtain ⟨rfl, -, hrest⟩ := hsnake
        rw [hrest, List.length_nil, Nat.le_zero, List.length_eq_zero_iff] at hlength
        obtain ⟨hascii, hunderscore⟩ :=
          eq_toLower_of_mem_lowerChar (d := '_') hc (by simp [hlower]) (by decide)
        rw [hlength, (toLower_ascii hascii).2.2.mp hunderscore.symm]
  · rintro rfl
    decide

end Text

/-! ## Words turned back into names -/

namespace Ident

/-- Each word without a raw form is a keyword, and cannot be turned back into a name. -/
theorem revive?_of_mem_neverRaw {t : Text} (h : t ∈ neverRaw) :
    t ∈ keywords ∧ revive? t = none := by
  revert t
  decide +kernel

/-- A keyword is not read as a name. -/
theorem ofText?_keyword {t : Text} (hword : Text.isWord t = true) (h : t ∈ keywords) :
    ofText? t = none := by
  have hspelled : isSpelling false t = true := by simp [isSpelling, hword]
  obtain ⟨span, hlex⟩ := exists_lex?_text ⟨false, t, hspelled⟩
  have hname : isName ⟨false, t, hspelled⟩ = false := by simp [isName, h]
  have hread : lex? t = some [⟨.ident ⟨false, t, hspelled⟩, span⟩] := hlex
  simp only [ofText?, hread, hname, Bool.false_eq_true, if_false]

/-- **What becomes of a word.** It is turned back into a name unless it has no raw form, and the name
is raw exactly if the word is a keyword. -/
theorem revive?_of_isWord {t : Text} (hword : Text.isWord t = true) :
    (t ∈ neverRaw ∧ revive? t = none) ∨
      t ∉ neverRaw ∧ ∃ i, revive? t = some i ∧ i.name = t ∧ i.isName = true ∧
        (i.raw = true ↔ t ∈ keywords) := by
  by_cases hraw : t ∈ neverRaw
  · exact .inl ⟨hraw, (revive?_of_mem_neverRaw hraw).2⟩
  · refine .inr ⟨hraw, ?_⟩
    by_cases hkeyword : t ∈ keywords
    · have hspelled : isSpelling true t = true := by simp [isSpelling, hword, hraw]
      have hname : isName ⟨true, t, hspelled⟩ = true := rfl
      refine ⟨⟨true, t, hspelled⟩, ?_, rfl, hname, iff_of_true rfl hkeyword⟩
      rw [revive?, ofText?_keyword hword hkeyword]
      exact ofText?_text hname
    · have hspelled : isSpelling false t = true := by simp [isSpelling, hword]
      have hname : isName ⟨false, t, hspelled⟩ = true := by simp [isName, hkeyword]
      exact ⟨⟨false, t, hspelled⟩, revive?_text hname, rfl, hname,
        iff_of_false (by simp) hkeyword⟩

/-! ## The name of the module -/

/-- The words that no enum can lend to its module: without the raw mark they mean other modules, and
with it they do not exist. -/
def pathWords : List Text := ["self", "super", "crate"]

/-- Of the words without a raw form, the snake case of a name can be those three. -/
theorem snakeCase_mem_neverRaw_iff {i : Ident} (h : i.isName = true) :
    Text.snakeCase i.name ∈ neverRaw ↔ Text.snakeCase i.name ∈ pathWords := by
  have hword := i.isWord_name
  have hself : Text.snakeCase i.name ≠ "Self".toList := by
    intro hsnake
    refine Text.capital_not_mem_snakeCase hword (d := 'S') (by decide) ?_
    rw [hsnake]
    decide
  have hunderscore : Text.snakeCase i.name ≠ "_".toList := by
    change Text.snakeCase i.name ≠ ['_']
    rw [ne_eq, Text.snakeCase_eq_underscore_iff hword]
    obtain ⟨raw, name, spelled⟩ := i
    rintro rfl
    cases raw with
    | true => cases spelled
    | false => cases h
  simp only [neverRaw, pathWords, List.mem_cons, List.not_mem_nil, hself, hunderscore, or_false,
    false_or]
  exact or_left_comm

/-- The snake case of a name either has no raw form, and is told in a rejection, or it names the
module, as it is or with a raw mark. -/
theorem moduleName_cases (i : Ident) :
    (Text.snakeCase i.name ∈ neverRaw ∧
      i.moduleName = .error (.synthesisFailed (Text.snakeCase i.name))) ∨
    Text.snakeCase i.name ∉ neverRaw ∧ ∃ m, i.moduleName = .ok m ∧
      m.name = Text.snakeCase i.name ∧ (m.raw = true ↔ Text.snakeCase i.name ∈ keywords) := by
  rcases revive?_of_isWord (Text.isWord_snakeCase i.isWord_name) with
    ⟨hraw, hnone⟩ | ⟨hraw, m, hsome, hname, -, hmark⟩
  · exact .inl ⟨hraw, by simp only [moduleName, hnone]⟩
  · exact .inr ⟨hraw, m, by simp only [moduleName, hsome], hname, hmark⟩

theorem name_of_moduleName {i m : Ident} (h : i.moduleName = .ok m) :
    m.name = Text.snakeCase i.name := by
  rcases i.moduleName_cases with ⟨-, herror⟩ | ⟨-, m', hok, hname, -⟩
  · rw [herror] at h
    cases h
  · rw [hok] at h
    obtain rfl := Except.ok.inj h
    exact hname

/-- **The name of the module** is the snake case of the name of the enum, with a raw mark exactly if
that is a keyword. There is none exactly if that is one of the three words which have no raw form,
and then it is what the rejection tells. -/
theorem moduleName_exact {i : Ident} (h : i.isName = true) :
    ((∃ m, i.moduleName = .ok m) ↔ Text.snakeCase i.name ∉ pathWords) ∧
    (∀ m, i.moduleName = .ok m → m.text =
      if Text.snakeCase i.name ∈ keywords then 'r' :: '#' :: Text.snakeCase i.name
      else Text.snakeCase i.name) ∧
    ∀ r, i.moduleName = .error r → r = .synthesisFailed (Text.snakeCase i.name) := by
  rw [← snakeCase_mem_neverRaw_iff h]
  rcases i.moduleName_cases with ⟨hraw, herror⟩ | ⟨hraw, m, hok, hname, hmark⟩
  · rw [herror]
    refine ⟨iff_of_false ?_ (not_not.mpr hraw), ?_, ?_⟩
    · rintro ⟨m, hm⟩
      cases hm
    · intro m hm
      cases hm
    · intro r hr
      exact (Except.error.inj hr).symm
  · rw [hok]
    refine ⟨iff_of_true ⟨m, rfl⟩ hraw, ?_, ?_⟩
    · intro m' hm
      obtain rfl := Except.ok.inj hm
      simp only [text, hname, hmark]
    · intro r hr
      cases hr

/-- The module of `Type` is `r#type`, and `r#Crate` has none. -/
theorem moduleName_type_and_crate :
    (plain "Type").isName = true ∧
    (∃ m, (plain "Type").moduleName = .ok m ∧ m.text = "r#type".toList) ∧
    ∃ i : Ident, i.text = "r#Crate".toList ∧ i.isName = true ∧ ¬ ∃ m, i.moduleName = .ok m := by
  obtain ⟨hnamed, htext, -⟩ := moduleName_exact (i := plain "Type") (by decide)
  obtain ⟨m, hm⟩ := hnamed.mpr (by decide)
  obtain ⟨hnone, -⟩ := moduleName_exact (i := ⟨true, "Crate".toList, by decide⟩) rfl
  refine ⟨by decide, ⟨m, hm, (htext m hm).trans (by decide)⟩, ⟨true, "Crate".toList, by decide⟩,
    rfl, rfl, ?_⟩
  rw [hnone]
  decide

end Ident

end EnumTags

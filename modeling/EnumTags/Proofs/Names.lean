import EnumTags.Grammar.Keyword
import EnumTags.Payload
import Mathlib.Data.List.Basic

/-!
# Names through text

Names leave the tokens as text and are turned back into identifiers when source is generated. Since
an identifier carries the proof of its own spelling, nothing is lost on the way: reading the text of
an identifier gives that identifier, in front of anything that does not go on with the word. The
raw mark is part of the text, and a name without it is never taken for a keyword.

## Main results

* `Lexer.step_ident`: the lexer reads an identifier off the text that it wrote.
* `Ident.revive?_text`: a name finds its way back.
-/

namespace EnumTags

/-! ## Characters of a word -/

namespace Text

theorem isWordChar_of_isWordStart {c : Char} (h : isWordStart c = true) : isWordChar c = true := by
  rw [isWordStart] at h
  rw [isWordChar]
  split at h
  · rename_i hascii
    rw [if_pos hascii]
    simp only [Char.isAlphanum, Bool.or_eq_true] at h ⊢
    exact h.imp_left .inl
  · rename_i hascii
    rw [if_neg hascii, h, Bool.true_or]

theorem isWordChar_of_mem_isWord {s : Text} (h : isWord s = true) {c : Char} (hc : c ∈ s) :
    isWordChar c = true := by
  cases s with
  | nil => cases h
  | cons d s =>
      obtain ⟨hd, hs⟩ := Bool.and_eq_true_iff.mp h
      rcases List.mem_cons.mp hc with rfl | hc
      · exact isWordChar_of_isWordStart hd
      · exact List.all_eq_true.mp hs c hc

/-- A character that begins a word is none that does not. -/
theorem ne_of_isWordStart {c d : Char} (h : isWordStart c = true)
    (hd : isWordStart d = false := by decide) : c ≠ d := by
  rintro rfl
  rw [h] at hd
  cases hd

/-- A character inside a word is none that stands in no word. -/
theorem ne_of_isWordChar {c d : Char} (h : isWordChar c = true)
    (hd : isWordChar d = false := by decide) : c ≠ d := by
  rintro rfl
  rw [h] at hd
  cases hd

theorem isWordChar_of_isDigit {c : Char} (h : c.isDigit = true) : isWordChar c = true := by
  have hcodes : 48 ≤ c.toNat ∧ c.toNat ≤ 57 := by
    simpa [Char.isDigit, UInt32.le_iff_toNat_le] using h
  rw [isWordChar, if_pos (by omega), Char.isAlphanum, h]
  simp

theorem not_isDigit_of_isWordStart {c : Char} (h : isWordStart c = true) :
    c.isDigit = false := by
  by_contra hdigit
  rw [Bool.not_eq_false] at hdigit
  have hcodes : 48 ≤ c.toNat ∧ c.toNat ≤ 57 := by
    simpa [Char.isDigit, UInt32.le_iff_toNat_le] using hdigit
  have hall : ∀ n ∈ List.range' 48 10, isWordStart (Char.ofNat n) = false := by decide
  have hc := hall c.toNat (by simp; omega)
  rw [Char.ofNat_toNat, h] at hc
  cases hc

/-- Where the separators outside ASCII lie, each block by the numbers of its first and its last
character. -/
def separatorBlocks : List (Nat × Nat) :=
  [(0x85, 0x85), (0xa0, 0xa0), (0x1680, 0x1680), (0x2000, 0x200a), (0x200e, 0x200f),
   (0x2028, 0x2029), (0x202f, 0x202f), (0x205f, 0x205f), (0x3000, 0x3000)]

theorem separator_cases {c : Char} (h : Trivia.isSeparator c = true) :
    c.toNat ∈ [9, 10, 11, 12, 13, 32] ∨
      ∃ b ∈ separatorBlocks, b.1 ≤ c.toNat ∧ c.toNat ≤ b.2 := by
  simp only [Trivia.isSeparator, isBlank, Bool.or_eq_true, Bool.and_eq_true, decide_eq_true_eq,
    beq_iff_eq] at h
  simp only [separatorBlocks, List.exists_mem_cons_iff]
  simp only [List.mem_cons, List.not_mem_nil, false_and, exists_false, or_false]
  omega

/-- A table whose runs all end below `lo` or begin above `hi` has nothing from `lo` to `hi`. -/
theorem Run.anyHas_of_apart {runs : List Run} {lo hi : Nat}
    (h : runs.all (fun r => r.last.blt lo || hi.blt r.first) = true) {c : Char}
    (hlo : lo ≤ c.toNat) (hhi : c.toNat ≤ hi) : anyHas runs c = false := by
  refine List.any_eq_false.mpr fun r hr => ?_
  have hapart := List.all_eq_true.mp h r hr
  simp only [Bool.or_eq_true, Nat.blt_eq] at hapart
  simp only [has, Bool.and_eq_true, decide_eq_true_eq]
  omega

/-- No word holds a separator. -/
theorem not_isWordChar_of_isSeparator {c : Char} (h : Trivia.isSeparator c = true) :
    isWordChar c = false := by
  rcases separator_cases h with hcode | ⟨b, hb, hlo, hhi⟩
  · have hall : ∀ n ∈ [9, 10, 11, 12, 13, 32], isWordChar (Char.ofNat n) = false := by decide
    rw [← Char.ofNat_toNat c]
    exact hall _ hcode
  · -- The tables are gone through once for a block, not once for each of its characters.
    have hapart : ∀ b ∈ separatorBlocks, 128 ≤ b.1 ∧ (wordStartRuns ++ wordOnlyInsideRuns).all
        (fun r => r.last.blt b.1 || b.2.blt r.first) = true := by decide +kernel
    obtain ⟨hascii, htables⟩ := hapart b hb
    have hnone := Run.anyHas_of_apart htables hlo hhi
    rw [Run.anyHas, List.any_append] at hnone
    rw [isWordChar, if_neg (by omega)]
    exact hnone

theorem not_isBlank_of_isWordChar {c : Char} (h : isWordChar c = true) : isBlank c = false := by
  by_contra hc
  rw [Bool.not_eq_false] at hc
  rw [not_isWordChar_of_isSeparator (by simp [Trivia.isSeparator, hc])] at h
  cases h

/-- A text without blanks is not changed by trimming. -/
theorem trim_eq_self {s : Text} (h : ∀ c ∈ s, isBlank c = false) : trim s = s := by
  have hdrop : ∀ r : Text, (∀ c ∈ r, isBlank c = false) → r.dropWhile isBlank = r := by
    intro r hr
    cases r with
    | nil => rfl
    | cons c r => simp [hr c List.mem_cons_self]
  rw [trim, hdrop s h, hdrop s.reverse (by simpa using h), List.reverse_reverse]

end Text

/-! ## Reading an identifier -/

namespace Lexer

/-- Whether a text goes on with neither a quote nor a number sign; behind a letter such as `r` or
`b` these would begin a quotation. -/
def unquoted (s : Text) : Bool := !s.head?.any fun c => c == '"' || c == '\'' || c == '#'

/-- Whether a word that stands before the text ends there. -/
def endsWord (s : Text) : Bool := unquoted s && !s.head?.any Text.isWordChar

theorem unquoted_cons_of_isWordChar {c : Char} (h : Text.isWordChar c = true) (s : Text) :
    unquoted (c :: s) = true := by
  have hquote : c ≠ '"' := Text.ne_of_isWordChar h
  have hsingle : c ≠ '\'' := Text.ne_of_isWordChar h
  have hhash : c ≠ '#' := Text.ne_of_isWordChar h
  simp [unquoted, hquote, hsingle, hhash]

/-- Neither the characters of a word nor what stands behind it go on with a quote. -/
theorem unquoted_append {w rest : Text} (hw : w.all Text.isWordChar = true)
    (hrest : endsWord rest = true) : unquoted (w ++ rest) = true := by
  cases w with
  | nil => simp_all [endsWord]
  | cons c w =>
      rw [List.all_cons, Bool.and_eq_true] at hw
      exact unquoted_cons_of_isWordChar hw.1 _

theorem takeWhile_append_of_endsWord {w rest : Text} (hw : w.all Text.isWordChar = true)
    (hrest : endsWord rest = true) : (w ++ rest).takeWhile Text.isWordChar = w := by
  rw [List.takeWhile_append_of_pos (by simpa using hw)]
  cases rest with
  | nil => simp
  | cons c rest =>
      have hc : Text.isWordChar c = false := by simpa [endsWord] using (Bool.and_eq_true_iff.mp hrest).2
      simp [hc]

theorem dropWhile_append_of_endsWord {w rest : Text} (hw : w.all Text.isWordChar = true)
    (hrest : endsWord rest = true) : (w ++ rest).dropWhile Text.isWordChar = rest := by
  rw [List.dropWhile_append_of_pos (by simpa using hw)]
  cases rest with
  | nil => rfl
  | cons c rest =>
      have hc : Text.isWordChar c = false := by simpa [endsWord] using (Bool.and_eq_true_iff.mp hrest).2
      simp [hc]

/-! ### No literal begins with a word -/

theorem rawQuoteRest_of_unquoted (k : Literal.QuoteKind) {s : Text} (h : unquoted s = true) :
    Literal.rawQuoteRest k s = none := by
  cases s with
  | nil => rfl
  | cons c s =>
      have hc : (c ≠ '"' ∧ c ≠ '\'') ∧ c ≠ '#' := by simpa [unquoted] using h
      simp only [Literal.rawQuoteRest, List.dropWhile_cons, beq_eq_false_iff_ne.mpr hc.2]
      split
      · rename_i hs
        simp_all
      · rfl

/-- Past one of its characters, a word still does not go on with a quote. -/
theorem unquoted_of_append_eq_cons {d : Char} {w rest s : Text} (h : w ++ rest = d :: s)
    (hd : Text.isWordChar d = true) (hw : w.all Text.isWordChar = true)
    (hrest : endsWord rest = true) : unquoted s = true := by
  cases w with
  | nil =>
      rw [List.nil_append] at h
      simp [h, endsWord, hd] at hrest
  | cons c w =>
      rw [List.cons_append, List.cons.injEq] at h
      rw [← h.2]
      exact unquoted_append (Bool.and_eq_true_iff.mp hw).2 hrest

theorem quotationRest_of_word {c : Char} {w rest : Text} (hc : Text.isWordStart c = true)
    (hw : w.all Text.isWordChar = true) (hrest : endsWord rest = true) :
    Literal.quotationRest (c :: (w ++ rest)) = none := by
  have htail := unquoted_append hw hrest
  rw [Literal.quotationRest.eq_def]
  split
  all_goals rename_i heq
  case h_9 => rfl
  all_goals rw [List.cons.injEq] at heq
  case h_1 => exact absurd heq.1 (Text.ne_of_isWordStart hc)
  case h_2 => exact rawQuoteRest_of_unquoted _ (heq.2 ▸ htail)
  case h_4 => exact rawQuoteRest_of_unquoted _ (unquoted_of_append_eq_cons heq.2 (by decide) hw hrest)
  case h_6 => exact rawQuoteRest_of_unquoted _ (unquoted_of_append_eq_cons heq.2 (by decide) hw hrest)
  case h_8 => exact absurd heq.1 (Text.ne_of_isWordStart hc)
  all_goals
    rw [heq.2] at htail
    simp [unquoted] at htail

/-- The value of a letter is ten or more. -/
theorem isDigit_of_hexValue {c : Char} {v : Nat} (hv : Literal.hexValue c = some v) (h : v < 10) :
    c.isDigit = true := by
  rw [Literal.hexValue] at hv
  split at hv
  · rename_i hrange
    simpa [Char.isDigit, Char.le_def] using hrange
  · split at hv
    · rename_i hrange
      simp only [Bool.and_eq_true, decide_eq_true_eq, Char.le_def, UInt32.le_iff_toNat_le] at hrange
      have hle : 97 ≤ c.toNat := hrange.1
      have hvalue : 10 + c.toNat - 97 = v := Option.some.inj hv
      omega
    · split at hv
      · rename_i hrange
        simp only [Bool.and_eq_true, decide_eq_true_eq, Char.le_def, UInt32.le_iff_toNat_le] at hrange
        have hle : 65 ≤ c.toNat := hrange.1
        have hvalue : 10 + c.toNat - 65 = v := Option.some.inj hv
        omega
      · cases hv

/-- A number begins with a digit. -/
theorem numberRest_of_not_isDigit {c : Char} (h : c.isDigit = false) (s : Text) :
    Literal.numberRest (c :: s) = none := by
  have hzero : c ≠ '0' := fun hc => absurd (hc ▸ h) (by decide)
  have hwhole : Literal.wholeRest (c :: s) = Literal.digitsRest 10 true (c :: s) := by
    rw [Literal.wholeRest.eq_def]
    split <;> simp_all
  have hdigits : Literal.digitsRest 10 true (c :: s) = none := by
    rw [Literal.digitsRest]
    cases hv : Literal.hexValue c with
    | none => simp
    | some v =>
        have hlarge : ¬ v < 10 := by
          intro hsmall
          rw [isDigit_of_hexValue hv hsmall] at h
          cases h
        simp [hlarge]
  simp [Literal.numberRest, Literal.fractionRest, h, hwhole, hdigits]

/-! ### An identifier is read back -/

theorem bracket?_of_isWordStart {c : Char} (h : Text.isWordStart c = true) : bracket? c = none := by
  rw [bracket?.eq_def]
  split <;> first | rfl | exact absurd rfl (Text.ne_of_isWordStart h)

theorem comment?_of_not_startsComment {s : Text} (h : Trivia.startsComment s = false) :
    Trivia.comment? s = none := by
  rw [Trivia.comment?.eq_def]
  split <;> simp_all [Trivia.startsComment]

theorem punct?_of_isWordStart {c : Char} (h : Text.isWordStart c = true) (s : Text) :
    punct? (c :: s) = none := by
  have hpunct : isPunct c = false := by
    simp only [isPunct, Bool.or_eq_false_iff, beq_eq_false_iff_ne]
    and_intros <;> exact Text.ne_of_isWordStart h
  simp [punct?, startsPunct, hpunct]

/-- Where neither a separator nor a bracket nor a comment stands, a leaf is read. -/
theorem step_of_leaf {c : Char} {s : Text} (hseparator : Trivia.isSeparator c = false)
    (hbracket : bracket? c = none) (hcomment : Trivia.startsComment (c :: s) = false) :
    step (c :: s) = (leaf? (c :: s)).map fun (t, rest) => ([t], rest) := by
  have hmark : errorMark.isPrefixOf (c :: s) = false := by
    have hparen : '(' ≠ c := by
      rintro rfl
      cases hbracket
    have herror : errorMark = '(' :: errorMark.tail := by decide
    rw [herror, List.isPrefixOf, beq_eq_false_iff_ne.mpr hparen, Bool.false_and]
  simp only [step, hseparator, comment?_of_not_startsComment hcomment, hmark, hbracket,
    Bool.false_eq_true, if_false]

theorem not_isSeparator_of_isWordChar {c : Char} (h : Text.isWordChar c = true) :
    Trivia.isSeparator c = false := by
  by_contra hc
  rw [Text.not_isWordChar_of_isSeparator ((Bool.not_eq_false _).mp hc)] at h
  cases h

/-- Where a word begins, a literal or an identifier is read. -/
theorem step_of_isWordStart {c : Char} (h : Text.isWordStart c = true) (s : Text) :
    step (c :: s) = (leaf? (c :: s)).map fun (t, rest) => ([t], rest) := by
  have hslash : c ≠ '/' := Text.ne_of_isWordStart h
  refine step_of_leaf (not_isSeparator_of_isWordChar (Text.isWordChar_of_isWordStart h))
    (bracket?_of_isWordStart h) ?_
  rw [Trivia.startsComment.eq_def]
  split <;> simp_all

theorem wordIdent?_append {raw : Bool} {name : Text} (h : isSpelling raw name = true)
    {rest : Text} (hrest : endsWord rest = true) :
    wordIdent? raw (name ++ rest) = some (⟨raw, name, h⟩, rest) := by
  have hword : Text.isWord name = true := (Bool.and_eq_true_iff.mp h).1
  cases name with
  | nil => cases hword
  | cons c w =>
      have hw : w.all Text.isWordChar = true := (Bool.and_eq_true_iff.mp hword).2
      simp only [List.cons_append, wordIdent?, takeWhile_append_of_endsWord hw hrest,
        dropWhile_append_of_endsWord hw hrest, h, dite_true]

theorem anyIdent?_of_word {name : Text} (h : isSpelling false name = true) {rest : Text}
    (hrest : endsWord rest = true) :
    anyIdent? (name ++ rest) = some (⟨false, name, h⟩, rest) := by
  have hword : Text.isWord name = true := (Bool.and_eq_true_iff.mp h).1
  have hident := wordIdent?_append h hrest
  cases name with
  | nil => cases hword
  | cons c w =>
      have htail := unquoted_append (Bool.and_eq_true_iff.mp hword).2 hrest
      rw [List.cons_append] at hident ⊢
      rw [anyIdent?.eq_def]
      split
      · rename_i heq
        rw [List.cons.injEq] at heq
        rw [heq.2] at htail
        simp [unquoted] at htail
      · exact hident

/-- A plain word is read as an identifier. -/
theorem leaf?_of_word {name : Text} (h : isSpelling false name = true) {rest : Text}
    (hrest : endsWord rest = true) :
    leaf? (name ++ rest) = some (.ident ⟨false, name, h⟩, rest) := by
  have hword : Text.isWord name = true := (Bool.and_eq_true_iff.mp h).1
  have hident := anyIdent?_of_word h hrest
  cases name with
  | nil => cases hword
  | cons c w =>
      obtain ⟨hc, hw⟩ := Bool.and_eq_true_iff.mp hword
      have htail := unquoted_append hw hrest
      have hquoted : looksQuoted (c :: (w ++ rest)) = false := by
        rw [looksQuoted.eq_def]
        split
        all_goals try rfl
        all_goals
          rename_i heq
          rw [List.cons.injEq] at heq
          try (rw [heq.2] at htail; simp [unquoted] at htail)
        all_goals
          have htail' := unquoted_of_append_eq_cons heq.2 (by decide) hw hrest
          simp [unquoted] at htail'
      rw [List.cons_append] at hident ⊢
      simp only [leaf?, Literal.rest?, quotationRest_of_word hc hw hrest,
        numberRest_of_not_isDigit (Text.not_isDigit_of_isWordStart hc), punct?_of_isWordStart hc,
        ident?, hquoted, hident, Bool.false_eq_true, if_false, Option.map_some]

/-- A word behind the raw mark is read as a raw identifier. -/
theorem leaf?_of_rawWord {name : Text} (h : isSpelling true name = true) {rest : Text}
    (hrest : endsWord rest = true) :
    leaf? ('r' :: '#' :: (name ++ rest)) = some (.ident ⟨true, name, h⟩, rest) := by
  have hword : Text.isWord name = true := (Bool.and_eq_true_iff.mp h).1
  have hident := wordIdent?_append h hrest
  cases name with
  | nil => cases hword
  | cons c w =>
      have hc : Text.isWordStart c = true := (Bool.and_eq_true_iff.mp hword).1
      have hhash : c ≠ '#' := Text.ne_of_isWordStart hc
      have hquote : c ≠ '"' := Text.ne_of_isWordStart hc
      have hraw : Literal.rawQuoteRest .string ('#' :: c :: (w ++ rest)) = none := by
        simp [Literal.rawQuoteRest, hhash, hquote]
      have hr : Text.isWordStart 'r' = true := by decide
      have hquoted : looksQuoted ('r' :: '#' :: c :: (w ++ rest)) = false := by
        rw [looksQuoted.eq_def]
        split <;> simp_all
      rw [List.cons_append] at hident ⊢
      simp only [leaf?, Literal.rest?, Literal.quotationRest, hraw,
        numberRest_of_not_isDigit (Text.not_isDigit_of_isWordStart hr),
        punct?_of_isWordStart hr, ident?, hquoted, anyIdent?, hident, Bool.false_eq_true, if_false,
        Option.map_some]

/-- **An identifier is read off the text that it is written as.** -/
theorem step_ident (i : Ident) {rest : Text} (hrest : endsWord rest = true) :
    step (i.text ++ rest) = some ([.ident i], rest) := by
  obtain ⟨raw, name, spelled⟩ := i
  cases raw with
  | true =>
      have hr : Text.isWordStart 'r' = true := by decide
      simp only [Ident.text, if_true, List.cons_append, step_of_isWordStart hr,
        leaf?_of_rawWord spelled hrest, Option.map_some]
  | false =>
      have hleaf := leaf?_of_word spelled hrest
      have hword : Text.isWord name = true := (Bool.and_eq_true_iff.mp spelled).1
      cases name with
      | nil => cases hword
      | cons c w =>
          have hc : Text.isWordStart c = true := (Bool.and_eq_true_iff.mp hword).1
          rw [List.cons_append] at hleaf
          simp only [Ident.text, Bool.false_eq_true, if_false, List.cons_append,
            step_of_isWordStart hc, hleaf, Option.map_some]

/-- Where a word begins, there is no byte order mark. -/
theorem passMark_of_isWordStart {c : Char} (h : Text.isWordStart c = true) (s : Text) :
    passMark (c :: s) = (.start, c :: s) := by
  have hmark : (c.toNat == 0xfeff) = false := by
    have hbom : Text.isWordStart (Char.ofNat 0xfeff) = false := by decide +kernel
    rw [beq_eq_false_iff_ne]
    intro hcode
    rw [← hcode, Char.ofNat_toNat, h] at hbom
    cases hbom
  simp only [passMark, hmark, Bool.false_eq_true, if_false]

end Lexer

/-! ## Names find their way back -/

namespace Ident

/-- One plain identifier is this word. -/
theorem eq_of_isPlain {i j : Ident} {w : Text} (hi : i.isPlain w = true)
    (hj : j.isPlain w = true) : i = j := by
  simp only [isPlain, Bool.and_eq_true, Bool.not_eq_true', beq_iff_eq] at hi hj
  obtain ⟨raw, name, spelled⟩ := i
  obtain ⟨raw', name', spelled'⟩ := j
  simp_all

theorem isWord_name (i : Ident) : Text.isWord i.name = true := (Bool.and_eq_true_iff.mp i.spelled).1

/-- The text of an identifier begins with a letter. -/
theorem exists_text_eq_cons (i : Ident) :
    ∃ c s, i.text = c :: s ∧ Text.isWordStart c = true := by
  obtain ⟨raw, name, spelled⟩ := i
  have hword : Text.isWord name = true := (Bool.and_eq_true_iff.mp spelled).1
  cases raw with
  | true => exact ⟨'r', '#' :: name, rfl, by decide⟩
  | false =>
      cases name with
      | nil => cases hword
      | cons c w => exact ⟨c, w, rfl, (Bool.and_eq_true_iff.mp hword).1⟩

theorem passMark_text (i : Ident) : Lexer.passMark i.text = (.start, i.text) := by
  obtain ⟨c, s, htext, hc⟩ := i.exists_text_eq_cons
  rw [htext, Lexer.passMark_of_isWordStart hc]

/-- The text of an identifier is read as this identifier alone. -/
theorem exists_lex?_text (i : Ident) : ∃ span, lex? i.text = some [⟨.ident i, span⟩] := by
  obtain ⟨c, s, htext, -⟩ := i.exists_text_eq_cons
  have hstep : Lexer.step (i.text ++ []) = some ([.ident i], []) := Lexer.step_ident i rfl
  rw [List.append_nil] at hstep
  refine ⟨⟨.start, Position.start.after i.text⟩, ?_⟩
  have hscan : Lexer.scan i.text.length .start i.text =
      some [⟨.ident i, ⟨.start, Position.start.after i.text⟩⟩] := by
    rw [htext] at hstep ⊢
    simp only [List.length_cons, Lexer.scan, hstep, List.length_nil, Nat.sub_zero, Option.map_some,
      List.map_cons, List.map_nil, List.append_nil]
    rw [← List.length_cons, List.take_length]
  simp only [lex?, passMark_text, hscan, Lexeme.tokens, List.map_cons, List.map_nil,
    Lexer.balanced, List.isEmpty_nil, if_true]

theorem ofText?_text {i : Ident} (h : i.isName = true) : ofText? i.text = some i := by
  obtain ⟨span, hlex⟩ := i.exists_lex?_text
  simp only [ofText?, hlex, h, if_true]

/-- **A name finds its way back** from its text, with or without the raw mark. -/
theorem revive?_text {i : Ident} (h : i.isName = true) : revive? i.text = some i := by
  rw [revive?, ofText?_text h]

end Ident

namespace Alias

/-- The identifier of the alias with number `k`. -/
def ident (k : Nat) : Ident where
  raw := false
  name := nameOf k
  spelled := by
    have hdigits : (Text.ofNat k).all Text.isWordChar = true := by
      rw [List.all_eq_true]
      intro c hc
      exact Text.isWordChar_of_isDigit (Nat.isDigit_of_mem_toDigits (by decide) (by decide) hc)
    have hmark : ("nonymousFunc_".toList).all Text.isWordChar = true := by decide
    have hname : nameOf k = 'A' :: ("nonymousFunc_".toList ++ Text.ofNat k) := rfl
    have hA : Text.isWordStart 'A' = true := by decide
    rw [isSpelling, hname, Text.isWord, List.all_append, hmark, hdigits, hA]
    rfl

/-- No keyword begins like an alias. -/
theorem isName_ident (k : Nat) : (ident k).isName = true := by
  have hheads : ∀ w ∈ keywords, w.head? ≠ some 'A' := by decide
  have hfresh : nameOf k ∉ keywords := fun hmem => hheads _ hmem rfl
  simpa [Ident.isName, ident] using hfresh

theorem revive?_nameOf (k : Nat) : Ident.revive? (nameOf k) = some (ident k) :=
  Ident.revive?_text (isName_ident k)

end Alias

end EnumTags

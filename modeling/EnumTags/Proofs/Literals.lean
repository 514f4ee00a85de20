import EnumTags.Proofs.Names
import Mathlib.Tactic.Tauto

/-!
# Literals in front of other text

A literal is kept verbatim, so it should be read again off its own text. It is, in front of anything
that does not go on with it: the recognisers of `Literal` look at most one character past its end,
and that character neither belongs to a word nor is one of the few that a number could go on with.

## Main results

* `Literal.rest?_append`: a recogniser leaves what was put behind the literal.
* `Lexer.step_literal`: the lexer reads a literal off the text that it wrote.
-/

namespace EnumTags

/-- Whether a literal or a word that stands before the text ends there. -/
def Lexer.endsLiteral (s : Text) : Bool :=
  endsWord s && !s.head?.any fun c => c == '.' || c == '+' || c == '-'

namespace Literal

/-! ## The first character behind a literal -/

theorem isWordChar_of_hexValue {c : Char} {v : Nat} (h : hexValue c = some v) :
    Text.isWordChar c = true := by
  have hall : ∀ n ∈ List.range' 48 10 ++ List.range' 97 6 ++ List.range' 65 6,
      Text.isWordChar (Char.ofNat n) = true := by decide
  rw [← Char.ofNat_toNat c]
  refine hall c.toNat ?_
  simp only [hexValue, Bool.and_eq_true, decide_eq_true_eq, Char.le_def,
    UInt32.le_iff_toNat_le] at h
  simp only [List.mem_append, List.mem_range'_1]
  split at h
  · rename_i hrange
    have hcodes : 48 ≤ c.toNat ∧ c.toNat ≤ 57 := hrange
    omega
  · split at h
    · rename_i hrange
      have hcodes : 97 ≤ c.toNat ∧ c.toNat ≤ 102 := hrange
      omega
    · split at h
      · rename_i hrange
        have hcodes : 65 ≤ c.toNat ∧ c.toNat ≤ 70 := hrange
        omega
      · cases h

/-- What is known of a character behind a literal. -/
structure Behind (c : Char) : Prop where
  char : Text.isWordChar c = false
  start : Text.isWordStart c = false
  digit : c.isDigit = false
  hex : hexValue c = none
  line : (c == '_') = false
  lowerMark : (c == 'e') = false
  upperMark : (c == 'E') = false
  point : (c == '.') = false
  plus : (c == '+') = false
  minus : (c == '-') = false

theorem behind {c : Char} {t : Text} (h : Lexer.endsLiteral (c :: t) = true) : Behind c := by
  simp only [Lexer.endsLiteral, Lexer.endsWord, List.head?_cons, Option.any_some,
    Bool.and_eq_true, Bool.not_eq_true', Bool.or_eq_false_iff] at h
  obtain ⟨⟨-, hchar⟩, ⟨hpoint, hplus⟩, hminus⟩ := h
  have hnot : ∀ {p : Bool}, (p = true → Text.isWordChar c = true) → p = false := by
    intro p hp
    by_contra hc
    rw [hp ((Bool.not_eq_false p).mp hc)] at hchar
    cases hchar
  have hne : ∀ d, Text.isWordChar d = true → (c == d) = false := fun d hd =>
    hnot fun heq => (beq_iff_eq.mp heq) ▸ hd
  refine ⟨hchar, hnot Text.isWordChar_of_isWordStart, hnot Text.isWordChar_of_isDigit, ?_,
    hne _ (by decide), hne _ (by decide), hne _ (by decide), hpoint, hplus, hminus⟩
  cases hv : hexValue c with
  | none => rfl
  | some v =>
      rw [isWordChar_of_hexValue hv] at hchar
      cases hchar

/-! ## Suffixes -/

theorem head?_append_any_of_endsLiteral {p : Char → Bool} {s t : Text}
    (h : ∀ c, Behind c → p c = false) (ht : Lexer.endsLiteral t = true) :
    (s ++ t).head?.any p = s.head?.any p := by
  cases s with
  | cons c s => rfl
  | nil =>
      cases t with
      | nil => rfl
      | cons c t => simp [h c (behind ht)]

theorem dropWhile_append_of_endsLiteral {s t : Text} (ht : Lexer.endsLiteral t = true) :
    (s ++ t).dropWhile Text.isWordChar = s.dropWhile Text.isWordChar ++ t := by
  induction s with
  | nil =>
      cases t with
      | nil => rfl
      | cons c t => simp [(behind ht).char]
  | cons c s ih =>
      rw [List.cons_append, List.dropWhile_cons, List.dropWhile_cons, ih]
      split <;> rfl

theorem passSuffix_append (s : Text) {t : Text} (ht : Lexer.endsLiteral t = true) :
    passSuffix (s ++ t) = passSuffix s ++ t := by
  cases s with
  | nil =>
      cases t with
      | nil => rfl
      | cons c t => simp [passSuffix, wordRest, (behind ht).start]
  | cons c s =>
      cases hc : Text.isWordStart c <;>
        simp [passSuffix, wordRest, hc, dropWhile_append_of_endsLiteral ht]

/-! ## Numbers -/

/-- The same end of the digits in front of more text. -/
def Mantissa.append (t : Text) : Mantissa → Mantissa
  | refused => refused
  | plain point rest => plain point (rest ++ t)
  | exponent point mark rest => exponent point (mark ++ t) (rest ++ t)

theorem mantissa_append (point : Bool) (s : Text) {t : Text} (ht : Lexer.endsLiteral t = true) :
    mantissa point (s ++ t) = (mantissa point s).append t := by
  induction s generalizing point with
  | nil =>
      cases t with
      | nil => rfl
      | cons c t =>
          have hc := behind ht
          simp [mantissa, Mantissa.append, hc.digit, hc.line, hc.point, hc.lowerMark, hc.upperMark]
  | cons c s ih =>
      have hnext : ((s ++ t).head?.any fun d => d == '.' || Text.isWordStart d) =
          s.head?.any fun d => d == '.' || Text.isWordStart d :=
        head?_append_any_of_endsLiteral (fun d hd => by simp [hd.point, hd.start]) ht
      rw [List.cons_append, mantissa, mantissa, hnext, ih, ih]
      split
      · rfl
      · split
        · split
          · rfl
          · split <;> rfl
        · split <;> rfl

theorem exponentRest_append (sign digits : Bool) (s : Text) {t : Text}
    (ht : Lexer.endsLiteral t = true) :
    exponentRest sign digits (s ++ t) = (exponentRest sign digits s).map (· ++ t) := by
  induction s generalizing sign digits with
  | nil =>
      cases t with
      | nil => cases digits <;> simp [exponentRest]
      | cons c t =>
          have hc := behind ht
          cases digits <;> simp [exponentRest, hc.plus, hc.minus, hc.digit, hc.line]
  | cons c s ih =>
      rw [List.cons_append, exponentRest, exponentRest, ih, ih, ih]
      split
      · split
        · rfl
        · split <;> rfl
      · split
        · rfl
        · split
          · rfl
          · split <;> rfl

theorem fractionRest_append (s : Text) {t : Text} (ht : Lexer.endsLiteral t = true) :
    fractionRest (s ++ t) = (fractionRest s).map (· ++ t) := by
  cases s with
  | nil =>
      cases t with
      | nil => rfl
      | cons c t => simp [fractionRest, (behind ht).digit]
  | cons c s =>
      rw [List.cons_append, fractionRest, fractionRest, mantissa_append false s ht]
      split
      · rfl
      · cases mantissa false s with
        | refused => rfl
        | plain point rest => cases point <;> rfl
        | exponent point mark rest =>
            simp only [Mantissa.append, exponentRest_append false false rest ht]
            cases exponentRest false false rest <;> cases point <;> rfl

theorem digitsRest_append (base : Nat) (empty : Bool) (s : Text) {t : Text}
    (ht : Lexer.endsLiteral t = true) :
    digitsRest base empty (s ++ t) = (digitsRest base empty s).map (· ++ t) := by
  induction s generalizing empty with
  | nil =>
      cases t with
      | nil => cases empty <;> simp [digitsRest]
      | cons c t =>
          have hc := behind ht
          cases empty <;> simp [digitsRest, hc.hex, hc.line]
  | cons c s ih =>
      rw [List.cons_append, digitsRest, digitsRest, ih, ih]
      cases hexValue c with
      | some v =>
          simp only
          split
          · rfl
          · split <;> rfl
      | none =>
          simp only
          split
          · split <;> rfl
          · split <;> rfl

theorem wholeRest_append (s : Text) {t : Text} (ht : Lexer.endsLiteral t = true) :
    wholeRest (s ++ t) = (wholeRest s).map (· ++ t) := by
  have hlone : ∀ c : Char, wholeRest (c :: t) = digitsRest 10 true (c :: t) := by
    intro c
    cases t with
    | nil => rw [wholeRest.eq_def]; split <;> simp_all
    | cons d t =>
        have hd : ∀ e, Text.isWordChar e = true → d ≠ e := fun e he hde =>
          absurd (hde ▸ (behind ht).char) (by rw [he]; decide)
        have hx := hd 'x' (by decide)
        have ho := hd 'o' (by decide)
        have hb := hd 'b' (by decide)
        rw [wholeRest.eq_def]
        split <;> simp_all
  rcases s with _ | ⟨c, _ | ⟨d, s⟩⟩
  · cases t with
    | nil => rfl
    | cons c t =>
        have hzero : c ≠ '0' := fun hc => absurd (hc ▸ (behind ht).digit) (by decide)
        have hplain : wholeRest (c :: t) = digitsRest 10 true (c :: t) := by
          rw [wholeRest.eq_def]
          split <;> simp_all
        exact hplain.trans (digitsRest_append 10 true [] ht)
  · have hplain : wholeRest [c] = digitsRest 10 true [c] := by
      rw [wholeRest.eq_def]
      split <;> simp_all
    rw [List.singleton_append, hlone c, hplain, ← digitsRest_append 10 true [c] ht]
    rfl
  · simp only [List.cons_append]
    rw [wholeRest.eq_def, wholeRest.eq_def (c :: d :: s)]
    split
    · rename_i heq
      simp only [List.cons.injEq] at heq
      obtain ⟨rfl, rfl, rfl⟩ := heq
      exact digitsRest_append 16 true s ht
    · rename_i heq
      simp only [List.cons.injEq] at heq
      obtain ⟨rfl, rfl, rfl⟩ := heq
      exact digitsRest_append 8 true s ht
    · rename_i heq
      simp only [List.cons.injEq] at heq
      obtain ⟨rfl, rfl, rfl⟩ := heq
      exact digitsRest_append 2 true s ht
    · rename_i hx ho hb
      have hdigits := digitsRest_append 10 true (c :: d :: s) ht
      split
      · simp_all
      · simp_all
      · simp_all
      · exact hdigits

theorem finishNumber_append (s : Text) {t : Text} (ht : Lexer.endsLiteral t = true) :
    finishNumber (s ++ t) = (finishNumber s).map (· ++ t) := by
  simp only [finishNumber, passSuffix_append s ht]
  rw [head?_append_any_of_endsLiteral (fun c hc => hc.char) ht]
  split <;> rfl

theorem numberRest_append (s : Text) {t : Text} (ht : Lexer.endsLiteral t = true) :
    numberRest (s ++ t) = (numberRest s).map (· ++ t) := by
  have hbind : ∀ r : Option Text, (r.map (· ++ t)).bind finishNumber =
      (r.bind finishNumber).map (· ++ t) := by
    intro r
    cases r with
    | none => rfl
    | some r => exact finishNumber_append r ht
  simp only [numberRest, fractionRest_append s ht, wholeRest_append s ht, hbind]
  cases (fractionRest s).bind finishNumber <;> rfl

/-! ## Quotations -/

theorem quoteRest_append {k : QuoteKind} {q : QuoteState} {s r : Text} (t : Text)
    (h : quoteRest k q s = some r) : quoteRest k q (s ++ t) = some (r ++ t) := by
  induction s generalizing q with
  | nil => cases h
  | cons c s ih =>
      rw [quoteRest] at h
      rw [List.cons_append, quoteRest]
      cases hstep : quoteStep k q c with
      | next q' =>
          simp only [hstep] at h
          exact ih h
      | done =>
          simp only [hstep, Option.some.injEq] at h
          simp [h]
      | refused => simp [hstep] at h

theorem escapeRest_append {k : QuoteKind} {q : QuoteState} {s r : Text} (t : Text)
    (h : escapeRest k q s = some r) : escapeRest k q (s ++ t) = some (r ++ t) := by
  induction s generalizing q with
  | nil => cases h
  | cons c s ih =>
      rw [escapeRest] at h
      rw [List.cons_append, escapeRest]
      split at h
      · rw [Option.some.injEq] at h
        simp [h]
      · exact ih h
      · cases h

theorem singleRest_append {k : QuoteKind} {s r t : Text} (ht : Lexer.endsLiteral t = true)
    (h : singleRest k s = some r) : singleRest k (s ++ t) = some (r ++ t) := by
  cases s with
  | nil => cases h
  | cons c s =>
      rw [singleRest] at h
      split at h
      · rename_i rest hinside
        rw [Option.some.injEq] at h
        have hmore : (if c == '\\' then escapeRest k .escape (s ++ t)
            else if k.isBytes && 128 ≤ c.toNat then none else some (s ++ t)) =
              some ('\'' :: (rest ++ t)) := by
          split at hinside
          · rename_i hc
            rw [if_pos hc, escapeRest_append t hinside]
            rfl
          · rename_i hc
            split at hinside
            · cases hinside
            · rename_i hbytes
              rw [if_neg hc, if_neg hbytes, Option.some.inj hinside]
              rfl
        rw [List.cons_append, singleRest]
        simp only [hmore]
        rw [passSuffix_append rest ht, h]
      · cases h

/-- A raw quotation that was closed holds its closing quotes. -/
theorem quote_mem_of_rawRest {k : QuoteKind} {hashes : Nat} {s r : Text}
    (h : rawRest k hashes s = some r) : '"' ∈ s := by
  fun_induction rawRest k hashes s with
  | case1 => cases h
  | case2 => exact List.mem_cons_self
  | case3 => exact List.mem_cons_self
  | case4 rest ih => simp [ih h]
  | case5 => cases h
  | case6 c rest _ _ _ ih => exact List.mem_cons_of_mem _ (ih h)

theorem rawRest_append {k : QuoteKind} {hashes : Nat} {s r : Text} (t : Text)
    (h : rawRest k hashes s = some r) : rawRest k hashes (s ++ t) = some (r ++ t) := by
  fun_induction rawRest k hashes s with
  | case1 => cases h
  | case2 rest hclosed =>
      have hfront := List.isPrefixOf_iff_prefix.mp hclosed
      have hlength : hashes ≤ rest.length := by simpa using hfront.length_le
      have hmore : (List.replicate hashes '#').isPrefixOf (rest ++ t) = true :=
        List.isPrefixOf_iff_prefix.mpr (hfront.trans (List.prefix_append rest t))
      rw [Option.some.injEq] at h
      rw [List.cons_append, rawRest, if_pos hmore, List.drop_append_of_le_length hlength, h]
  | case3 rest hopen ih =>
      have hmore : ¬ (List.replicate hashes '#').isPrefixOf (rest ++ t) = true := by
        -- more text could close the quotation only if nothing but number signs were left
        intro hclosed
        have hfront := List.isPrefixOf_iff_prefix.mp hclosed
        rcases List.prefix_or_prefix_of_prefix hfront (List.prefix_append rest t) with hle | hle
        · exact hopen (List.isPrefixOf_iff_prefix.mpr hle)
        · have hquote := List.eq_of_mem_replicate (hle.subset (quote_mem_of_rawRest h))
          cases hquote
      rw [List.cons_append, rawRest, if_neg hmore, ih h]
  | case4 rest ih =>
      rw [List.cons_append, List.cons_append, rawRest, ih h]
  | case5 => cases h
  | case6 c rest hquote hcarriage hplain ih =>
      have hother : rawRest k hashes (c :: (rest ++ t)) = rawRest k hashes (rest ++ t) := by
        rw [rawRest.eq_def]
        split <;> simp_all
      rw [List.cons_append, hother, ih h]

theorem rawQuoteRest_append {k : QuoteKind} {s r t : Text} (ht : Lexer.endsLiteral t = true)
    (h : rawQuoteRest k s = some r) : rawQuoteRest k (s ++ t) = some (r ++ t) := by
  have hsplit := List.takeWhile_append_dropWhile (p := (· == '#')) (l := s)
  rw [rawQuoteRest] at h
  split at h
  · rename_i rest hrest
    have hall : ∀ c ∈ s.takeWhile (· == '#'), (c == '#') = true :=
      List.all_eq_true.mp List.all_takeWhile
    rw [hrest] at hsplit
    have htake : (s ++ t).takeWhile (· == '#') = s.takeWhile (· == '#') := by
      rw [← hsplit, List.append_assoc, List.takeWhile_append_of_pos hall,
        List.takeWhile_append_of_pos hall]
      simp
    have hdrop : (s ++ t).dropWhile (· == '#') = '"' :: (rest ++ t) := by
      rw [← hsplit, List.append_assoc, List.dropWhile_append_of_pos hall]
      simp
    simp only [rawQuoteRest, htake, hdrop]
    split at h
    · rename_i hcount
      obtain ⟨body, hbody, rfl⟩ := Option.map_eq_some_iff.mp h
      rw [if_pos hcount, rawRest_append t hbody, Option.map_some, passSuffix_append body ht]
    · cases h
  · cases h

theorem quotationRest_append {s r t : Text} (ht : Lexer.endsLiteral t = true)
    (h : quotationRest s = some r) : quotationRest (s ++ t) = some (r ++ t) := by
  have hquote : ∀ {k : QuoteKind} {rest : Text},
      (quoteRest k .plain rest).map passSuffix = some r →
        (quoteRest k .plain (rest ++ t)).map passSuffix = some (r ++ t) := by
    intro k rest hrest
    obtain ⟨body, hbody, rfl⟩ := Option.map_eq_some_iff.mp hrest
    rw [quoteRest_append t hbody, Option.map_some, passSuffix_append body ht]
  rw [quotationRest.eq_def] at h
  split at h
  case h_1 => exact hquote h
  case h_2 => exact rawQuoteRest_append ht h
  case h_3 => exact hquote h
  case h_4 => exact rawQuoteRest_append ht h
  case h_5 => exact hquote h
  case h_6 => exact rawQuoteRest_append ht h
  case h_7 => exact singleRest_append ht h
  case h_8 => exact singleRest_append ht h
  case h_9 => cases h

/-- Where a number begins, no quotation does. -/
theorem quotationRest_of_isDigit {c : Char} (h : c.isDigit = true) (s : Text) :
    quotationRest (c :: s) = none := by
  have hne : ∀ d : Char, d.isDigit = false → c ≠ d := fun d hd hc => by
    rw [hc, hd] at h
    cases h
  have hquote := hne '"' (by decide)
  have hraw := hne 'r' (by decide)
  have hbyte := hne 'b' (by decide)
  have hnull := hne 'c' (by decide)
  have hsingle := hne '\'' (by decide)
  rw [quotationRest.eq_def]
  split <;> simp_all

/-- **A literal is read off the text in front of anything that does not go on with it.** -/
theorem rest?_append {s r t : Text} (ht : Lexer.endsLiteral t = true) (h : rest? s = some r) :
    rest? (s ++ t) = some (r ++ t) := by
  rw [rest?] at h
  split at h
  · rename_i rest hquotation
    rw [rest?, quotationRest_append ht hquotation, Option.some.inj h]
  · cases s with
    | nil => cases h
    | cons c s =>
        have hdigit : c.isDigit = true := by
          by_contra hc
          rw [Lexer.numberRest_of_not_isDigit ((Bool.not_eq_true _).mp hc)] at h
          cases h
        have hnumber := numberRest_append (c :: s) ht
        rw [h] at hnumber
        rw [rest?, List.cons_append, quotationRest_of_isDigit hdigit]
        exact hnumber

/-- Whether a literal can begin with this character. -/
def begins (c : Char) : Bool :=
  c.isDigit || c == '"' || c == 'r' || c == 'b' || c == 'c' || c == '\''

theorem begins_of_rest? {c : Char} {s r : Text} (h : rest? (c :: s) = some r) :
    begins c = true := by
  by_cases hc : c.isDigit = true
  · simp [begins, hc]
  · rw [rest?, Lexer.numberRest_of_not_isDigit ((Bool.not_eq_true _).mp hc),
      quotationRest.eq_def] at h
    split at h
    · rename_i hquotation
      split at hquotation <;> simp_all [begins]
    · cases h

/-! ## The last character of a literal -/

theorem eq_quote_of_plainStep {k : QuoteKind} {c : Char} (h : plainStep k c = .done) :
    c = '"' := by
  by_contra hquote
  simp only [plainStep, beq_eq_false_iff_ne.mpr hquote, Bool.false_eq_true, if_false] at h
  split_ifs at h

/-- Only its quotes close a quotation. -/
theorem eq_quote_of_quoteStep {k : QuoteKind} {q : QuoteState} {c : Char}
    (h : quoteStep k q c = .done) : c = '"' := by
  cases q with
  | plain => exact eq_quote_of_plainStep h
  | margin carriage =>
      cases carriage with
      | true => simp only [quoteStep] at h; split_ifs at h
      | false =>
          simp only [quoteStep] at h
          split_ifs at h
          exact eq_quote_of_plainStep h
  | escape => simp only [quoteStep, escapeStep] at h; split_ifs at h
  | code digits value =>
      simp only [quoteStep, codeStep] at h
      split at h <;> split_ifs at h
  | carriage | hexHigh | hexLow zero | codeOpen => simp only [quoteStep] at h; split_ifs at h

theorem exists_of_quoteRest {k : QuoteKind} {q : QuoteState} {s r : Text}
    (h : quoteRest k q s = some r) : ∃ u, s = u ++ '"' :: r := by
  induction s generalizing q with
  | nil => cases h
  | cons c s ih =>
      rw [quoteRest] at h
      split at h
      · obtain ⟨u, rfl⟩ := ih h
        exact ⟨c :: u, rfl⟩
      · rename_i hdone
        exact ⟨[], by rw [eq_quote_of_quoteStep hdone, Option.some.inj h]; rfl⟩
      · cases h

theorem exists_of_escapeRest {k : QuoteKind} {q : QuoteState} {s r : Text}
    (h : escapeRest k q s = some r) : ∃ u, s = u ++ r := by
  induction s generalizing q with
  | nil => cases h
  | cons c s ih =>
      rw [escapeRest] at h
      split at h
      · exact ⟨[c], by rw [Option.some.inj h]; rfl⟩
      · obtain ⟨u, rfl⟩ := ih h
        exact ⟨c :: u, rfl⟩
      · cases h

theorem exists_of_rawRest {k : QuoteKind} {hashes : Nat} {s r : Text}
    (h : rawRest k hashes s = some r) : ∃ u, s = u ++ '"' :: (List.replicate hashes '#' ++ r) := by
  fun_induction rawRest k hashes s with
  | case1 => cases h
  | case2 rest hclosed =>
      obtain ⟨r', rfl⟩ := List.isPrefixOf_iff_prefix.mp hclosed
      rw [List.drop_left' List.length_replicate, Option.some.injEq] at h
      exact ⟨[], by rw [h]; rfl⟩
  | case3 rest _ ih =>
      obtain ⟨u, rfl⟩ := ih h
      exact ⟨'"' :: u, rfl⟩
  | case4 rest ih =>
      obtain ⟨u, rfl⟩ := ih h
      exact ⟨'\r' :: '\n' :: u, rfl⟩
  | case5 => cases h
  | case6 c rest _ _ _ ih =>
      obtain ⟨u, rfl⟩ := ih h
      exact ⟨c :: u, rfl⟩

/-- A quotation is closed by a character that ends no literal before it, and then a suffix may
follow. -/
def Closed (s r : Text) : Prop :=
  ∃ u d rest, s = u ++ d :: rest ∧ Lexer.endsLiteral [d] = false ∧ r = passSuffix rest

theorem Closed.cons {s r : Text} (h : Closed s r) (c : Char) : Closed (c :: s) r := by
  obtain ⟨u, d, rest, rfl, hd, hr⟩ := h
  exact ⟨c :: u, d, rest, rfl, hd, hr⟩

theorem closed_of_quoteRest {k : QuoteKind} {q : QuoteState} {s r : Text}
    (h : (quoteRest k q s).map passSuffix = some r) : Closed s r := by
  obtain ⟨rest, hrest, rfl⟩ := Option.map_eq_some_iff.mp h
  obtain ⟨u, rfl⟩ := exists_of_quoteRest hrest
  exact ⟨u, '"', rest, rfl, by decide, rfl⟩

theorem closed_of_singleRest {k : QuoteKind} {s r : Text} (h : singleRest k s = some r) :
    Closed s r := by
  cases s with
  | nil => cases h
  | cons c s =>
      rw [singleRest] at h
      split at h
      · rename_i rest hinside
        refine Closed.cons ?_ c
        have hsuffix : ∃ u, s = u ++ '\'' :: rest := by
          split_ifs at hinside
          · exact exists_of_escapeRest hinside
          · exact ⟨[], Option.some.inj hinside⟩
        obtain ⟨u, rfl⟩ := hsuffix
        exact ⟨u, '\'', rest, rfl, by decide, (Option.some.inj h).symm⟩
      · cases h

theorem closed_of_rawQuoteRest {k : QuoteKind} {s r : Text} (h : rawQuoteRest k s = some r) :
    Closed s r := by
  have hsplit := List.takeWhile_append_dropWhile (p := (· == '#')) (l := s)
  rw [rawQuoteRest] at h
  split at h
  · rename_i body hbody
    split at h
    · obtain ⟨rest, hrest, rfl⟩ := Option.map_eq_some_iff.mp h
      obtain ⟨u, hu⟩ := exists_of_rawRest hrest
      rw [hbody, hu] at hsplit
      generalize (s.takeWhile (· == '#')).length = hashes at hsplit
      generalize s.takeWhile (· == '#') = start at hsplit
      subst hsplit
      -- the last of the number signs closes the quotation, or the quotes if there are none
      cases hashes with
      | zero => exact ⟨start ++ '"' :: u, '"', rest, by simp, by decide, rfl⟩
      | succ hashes =>
          refine ⟨start ++ '"' :: u ++ '"' :: List.replicate hashes '#', '#', rest, ?_,
            by decide, rfl⟩
          rw [List.replicate_succ']
          simp
    · cases h
  · cases h

theorem closed_of_quotationRest {s r : Text} (h : quotationRest s = some r) : Closed s r := by
  rw [quotationRest.eq_def] at h
  split at h
  case h_1 => exact (closed_of_quoteRest h).cons _
  case h_2 => exact (closed_of_rawQuoteRest h).cons _
  case h_3 => exact ((closed_of_quoteRest h).cons _).cons _
  case h_4 => exact ((closed_of_rawQuoteRest h).cons _).cons _
  case h_5 => exact ((closed_of_quoteRest h).cons _).cons _
  case h_6 => exact ((closed_of_rawQuoteRest h).cons _).cons _
  case h_7 => exact ((closed_of_singleRest h).cons _).cons _
  case h_8 => exact (closed_of_singleRest h).cons _
  case h_9 => cases h

/-- **The last character of a literal is one that goes on with it.** -/
theorem not_endsLiteral_of_rest? {s : Text} {c : Char} (h : rest? (s ++ [c]) = some []) :
    Lexer.endsLiteral [c] = false := by
  by_contra hc
  rw [Bool.not_eq_false] at hc
  rw [rest?] at h
  split at h
  · rename_i r hquotation
    rw [Option.some.inj h] at hquotation
    obtain ⟨u, d, rest, hs, hd, hrest⟩ := closed_of_quotationRest hquotation
    rcases List.eq_nil_or_concat rest with rfl | ⟨rest, e, rfl⟩
    · have hcd : c = d := (List.cons.inj (List.append_inj_right' hs rfl)).1
      rw [hcd, hd] at hc
      cases hc
    · have hce : c = e := by
        rw [List.concat_eq_append, ← List.cons_append, ← List.append_assoc] at hs
        exact (List.cons.inj (List.append_inj_right' hs rfl)).1
      rw [List.concat_eq_append, ← hce, passSuffix_append rest hc] at hrest
      simp at hrest
  · rw [numberRest_append s hc, Option.map_eq_some_iff] at h
    obtain ⟨r, -, hr⟩ := h
    simp at hr

end Literal

/-! ## Reading a literal back -/

namespace Lexer

/-- The punctuation characters as a list, so that facts about them can be computed. -/
def punctChars : List Char :=
  ['~', '!', '@', '#', '$', '%', '^', '&', '*', '-', '=', '+', '|', ';', ':', ',', '<', '.', '>',
   '/', '?', '\'']

theorem mem_punctChars {c : Char} (h : isPunct c = true) : c ∈ punctChars := by
  simp only [isPunct, Bool.or_eq_true, beq_iff_eq, or_assoc] at h
  simpa only [punctChars, List.mem_cons, List.not_mem_nil, or_false] using h

/-- What holds of every character in the list holds of punctuation. -/
theorem of_all_punctChars (p : Char → Bool) (h : punctChars.all p = true) {c : Char}
    (hc : isPunct c = true) : p c = true :=
  List.all_eq_true.mp h c (mem_punctChars hc)

/-- No literal begins with punctuation, apart from the single quote. -/
theorem rest?_of_isPunct {c : Char} (hc : isPunct c = true) (hquote : c ≠ '\'') (s : Text) :
    Literal.rest? (c :: s) = none := by
  have hall := of_all_punctChars (fun d => d == '\'' || !Literal.begins d) (by decide) hc
  cases hs : Literal.rest? (c :: s) with
  | none => rfl
  | some r =>
      have hbegins := Literal.begins_of_rest? hs
      simp [hquote, hbegins] at hall

/-- **A literal is read back off its own text.** -/
theorem step_literal {s t : Text} (h : Literal.rest? s = some []) (ht : endsLiteral t = true) :
    step (s ++ t) = some ([.literal s], t) := by
  have hleaf : leaf? (s ++ t) = some (.literal s, t) := by
    simp [leaf?, Literal.rest?_append ht h]
  cases s with
  | nil => cases h
  | cons c s =>
      have hbegins := Literal.begins_of_rest? h
      have hne : ∀ d, Literal.begins d = false → c ≠ d := by
        rintro d hd rfl
        rw [hd] at hbegins
        cases hbegins
      have hseparator : Trivia.isSeparator c = false := by
        simp only [Literal.begins, Bool.or_eq_true, beq_iff_eq] at hbegins
        rcases hbegins with ((((hdigit | rfl) | rfl) | rfl) | rfl) | rfl
        · exact not_isSeparator_of_isWordChar (Text.isWordChar_of_isDigit hdigit)
        all_goals decide
      have hbracket : bracket? c = none := by
        rw [bracket?.eq_def]
        split <;> first | rfl | exact absurd rfl (hne _ (by decide))
      have hcomment : Trivia.startsComment (c :: (s ++ t)) = false := by
        have hslash : c ≠ '/' := hne '/' (by decide)
        rw [Trivia.startsComment.eq_def]
        split <;> simp_all
      rw [List.cons_append] at hleaf ⊢
      rw [step_of_leaf hseparator hbracket hcomment, hleaf]
      rfl

end Lexer

end EnumTags

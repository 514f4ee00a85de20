import EnumTags.Proofs.Literals
import Mathlib.Data.List.TakeWhile

/-!
# Literals on their own

A recogniser is given the whole text behind the place where a literal begins, and answers with what
the literal leaves. The literal that was read is then what is missing from that answer. It should be
a literal on its own: what stood behind it may have ended it, but must not have made it one. So each
recogniser takes the same from a text of which the end is cut off, as long as only what it leaves is
cut (`Cuts`). The same is shown of text that was put in quotes.

## Main results

* `Literal.exists_of_rest?`: the literal that is read off a text is one on its own.
* `Literal.rest?_quote`: quoted text is a literal.
-/

namespace EnumTags.Literal

/-- Whether the recogniser takes the same from the text when `r` is cut off and only `q` is left. -/
def Cut (f : Text → Option Text) (s q r : Text) : Prop :=
  ∃ p, s = p ++ (q ++ r) ∧ f (p ++ q) = some q

/-- Whether anything that the recogniser leaves may be cut off. -/
def Cuts (f : Text → Option Text) : Prop := ∀ s q r, f s = some (q ++ r) → Cut f s q r

namespace Cut

variable {f g : Text → Option Text} {c : Char} {s q r : Text}

/-- A recogniser that has come to the end. -/
theorem nil (hnil : f [] = some []) (h : [] = q ++ r) : Cut f [] q r := by
  obtain ⟨rfl, rfl⟩ := List.append_eq_nil_iff.mp h.symm
  exact ⟨[], rfl, hnil⟩

/-- A recogniser that passes over a character and goes on. -/
theorem cons (hf : ∀ t, f (c :: t) = g t) (h : Cut g s q r) : Cut f (c :: s) q r := by
  obtain ⟨p, rfl, hp⟩ := h
  exact ⟨c :: p, rfl, by rw [List.cons_append, hf, hp]⟩

/-- A recogniser that stops before a character, whatever stands behind that. -/
theorem stop (hnil : f [] = some []) (hf : ∀ t, f (c :: t) = some (c :: t))
    (h : c :: s = q ++ r) : Cut f (c :: s) q r := by
  refine ⟨[], h, ?_⟩
  cases q with
  | nil => exact hnil
  | cons d q =>
      obtain ⟨rfl, -⟩ := List.cons.inj h
      exact hf q

end Cut

/-! ## Suffixes -/

theorem exists_of_passSuffix (s : Text) : ∃ p, s = p ++ passSuffix s := by
  cases s with
  | nil => exact ⟨[], rfl⟩
  | cons c s =>
      rw [passSuffix, wordRest]
      split
      · exact ⟨c :: s.takeWhile Text.isWordChar, by simp⟩
      · exact ⟨[], rfl⟩

theorem forall_of_dropWhile_append {p : Char → Bool} {q r : Text}
    (h : (q ++ r).dropWhile p = r) : ∀ c ∈ q, p c = true := by
  induction q with
  | nil => exact fun c hc => nomatch hc
  | cons d q ih =>
      rw [List.cons_append, List.dropWhile_cons] at h
      split at h
      · rename_i hd
        intro c hc
        rcases List.mem_cons.mp hc with rfl | hc
        · exact hd
        · exact ih h c hc
      · have hlength := congrArg List.length h
        simp only [List.length_cons, List.length_append] at hlength
        omega

/-- What was passed over as a suffix is one on its own. -/
theorem passSuffix_of_append {q r : Text} (h : passSuffix (q ++ r) = r) : passSuffix q = [] := by
  cases q with
  | nil => rfl
  | cons c q =>
      rw [List.cons_append, passSuffix, wordRest] at h
      split at h
      · rename_i hstart
        rw [passSuffix, wordRest, if_pos hstart, Option.getD_some, List.dropWhile_eq_nil_iff]
        exact forall_of_dropWhile_append h
      · have hlength := congrArg List.length h
        simp only [Option.getD_none, List.length_cons, List.length_append] at hlength
        omega

theorem isWordChar_of_passSuffix {s : Text} (h : passSuffix s = []) :
    ∀ c ∈ s, Text.isWordChar c = true := by
  cases s with
  | nil => exact fun c hc => nomatch hc
  | cons c s =>
      rw [passSuffix, wordRest] at h
      split at h
      · rename_i hstart
        intro d hd
        rcases List.mem_cons.mp hd with rfl | hd
        · exact Text.isWordChar_of_isWordStart hstart
        · exact List.dropWhile_eq_nil_iff.mp h d hd
      · cases h

/-- A recogniser that cuts still does when it also takes a suffix. -/
theorem Cuts.exists_of_map {f : Text → Option Text} (hf : Cuts f) {s r : Text}
    (h : (f s).map passSuffix = some r) : ∃ u, s = u ++ r ∧ (f u).map passSuffix = some [] := by
  obtain ⟨z, hz, hsuffix⟩ := Option.map_eq_some_iff.mp h
  obtain ⟨q, hq⟩ := exists_of_passSuffix z
  rw [hsuffix] at hq
  subst hq
  obtain ⟨p, rfl, hp⟩ := hf s q r hz
  refine ⟨p ++ q, (List.append_assoc p q r).symm, ?_⟩
  rw [hp, Option.map_some, passSuffix_of_append hsuffix]

/-! ## Numbers -/

theorem passSuffix_of_finishNumber {s r : Text} (h : finishNumber s = some r) :
    passSuffix s = r := by
  rw [finishNumber] at h
  split at h
  · cases h
  · exact Option.some.inj h

theorem finishNumber_of_passSuffix {s : Text} (h : passSuffix s = []) :
    finishNumber s = some [] := by
  rw [finishNumber, h]
  rfl

/-- A number that is all word characters leaves nothing. -/
theorem eq_nil_of_finishNumber {s r : Text} (hs : ∀ c ∈ s, Text.isWordChar c = true)
    (h : finishNumber s = some r) : r = [] := by
  obtain ⟨p, hp⟩ := exists_of_passSuffix s
  rw [passSuffix_of_finishNumber h] at hp
  rw [finishNumber, passSuffix_of_finishNumber h] at h
  cases r with
  | nil => rfl
  | cons c r =>
      have hc : Text.isWordChar c = true := hs c (by simp [hp])
      simp [hc] at h

theorem Cuts.exists_of_bind {f : Text → Option Text} (hf : Cuts f) {s r : Text}
    (h : (f s).bind finishNumber = some r) :
    ∃ u q, s = u ++ r ∧ f u = some q ∧ passSuffix q = [] := by
  obtain ⟨z, hz, hfinish⟩ := Option.bind_eq_some_iff.mp h
  have hsuffix := passSuffix_of_finishNumber hfinish
  obtain ⟨q, hq⟩ := exists_of_passSuffix z
  rw [hsuffix] at hq
  subst hq
  obtain ⟨p, rfl, hp⟩ := hf s q r hz
  exact ⟨p ++ q, q, (List.append_assoc p q r).symm, hp, passSuffix_of_append hsuffix⟩

theorem cuts_exponentRest (sign digits : Bool) : Cuts (exponentRest sign digits) := by
  intro s q r h
  fun_induction exponentRest sign digits s with
  | case1 sign => exact .nil rfl (Option.some.inj h)
  | case2 | case4 | case9 => cases h
  | case3 sign c rest hsign =>
      exact .stop rfl (fun t => by simp [exponentRest, hsign]) (Option.some.inj h)
  | case5 sign digits c rest hsign hdigits hfirst ih =>
      exact .cons (fun t => by simp [exponentRest, hsign, hdigits, hfirst]) (ih h)
  | case6 sign digits c rest hsign hdigit ih =>
      exact .cons (fun t => by simp [exponentRest, hsign, hdigit]) (ih h)
  | case7 sign digits c rest hsign hdigit hline ih =>
      exact .cons (fun t => by simp [exponentRest, hsign, hdigit, hline]) (ih h)
  | case8 sign c rest hsign hdigit hline =>
      exact .stop rfl (fun t => by simp [exponentRest, hsign, hdigit, hline]) (Option.some.inj h)

theorem exponentRest_true_isSome (sign : Bool) (s : Text) :
    (exponentRest sign true s).isSome = true := by
  induction s generalizing sign with
  | nil => rfl
  | cons c s ih =>
      rw [exponentRest]
      split
      · rfl
      · split
        · exact ih sign
        · split
          · exact ih sign
          · rfl

/-- Where no exponent is read, none is read from less text. -/
theorem exponentRest_of_append {sign digits : Bool} {q r : Text}
    (h : exponentRest sign digits (q ++ r) = none) : exponentRest sign digits q = none := by
  have hdigits : digits = false := by
    by_contra hc
    have hsome := exponentRest_true_isSome sign (q ++ r)
    rw [(Bool.not_eq_false _).mp hc] at h
    rw [h] at hsome
    cases hsome
  subst hdigits
  induction q generalizing sign with
  | nil => rfl
  | cons c q ih =>
      rw [List.cons_append, exponentRest] at h
      rw [exponentRest]
      split_ifs at h ⊢ with hsign hfirst hdigit hline
      · rfl
      · exact ih h
      · have hsome := exponentRest_true_isSome sign (q ++ r)
        rw [h] at hsome
        cases hsome
      · exact ih h
      · rfl

theorem cuts_digitsRest (base : Nat) (empty : Bool) : Cuts (digitsRest base empty) := by
  intro s q r h
  fun_induction digitsRest base empty s with
  | case2 empty hempty => exact .nil (by simp [digitsRest, hempty]) (Option.some.inj h)
  | case3 empty c rest v hv hlt ih =>
      exact .cons (fun t => by simp [digitsRest, hv, hlt]) (ih h)
  | case5 empty c rest v hv hlt hletter =>
      have hempty : empty = false := by simp_all
      exact .stop (by simp [digitsRest, hempty])
        (fun t => by simp only [digitsRest, hv, if_neg hlt, if_neg hletter]) (Option.some.inj h)
  | case7 empty c rest hv hline hbase ih =>
      exact .cons (fun t => by simp_all [digitsRest]) (ih h)
  | case9 empty c rest hv hline hempty =>
      exact .stop (by simp [digitsRest, hempty])
        (fun t => by simp_all [digitsRest]) (Option.some.inj h)
  | case1 | case4 | case6 | case8 => cases h

/-- The digits of a whole number are word characters. -/
theorem isWordChar_of_digitsRest {base : Nat} {empty : Bool} {s z : Text}
    (h : digitsRest base empty s = some z) (hz : ∀ c ∈ z, Text.isWordChar c = true) :
    ∀ c ∈ s, Text.isWordChar c = true := by
  fun_induction digitsRest base empty s with
  | case2 => exact fun c hc => nomatch hc
  | case3 empty c rest v hv hlt ih =>
      exact List.forall_mem_cons.mpr ⟨isWordChar_of_hexValue hv, ih h⟩
  | case5 => exact Option.some.inj h ▸ hz
  | case7 empty c rest hv hline hbase ih =>
      have hc : Text.isWordChar c = true := by
        rw [beq_iff_eq.mp hline]
        decide
      exact List.forall_mem_cons.mpr ⟨hc, ih h⟩
  | case9 => exact Option.some.inj h ▸ hz
  | case1 | case4 | case6 | case8 => cases h

theorem cuts_wholeRest : Cuts wholeRest := by
  intro s q r h
  rw [wholeRest.eq_def] at h
  split at h
  · exact .cons (fun _ => rfl) (.cons (fun _ => rfl) (cuts_digitsRest 16 true _ q r h))
  · exact .cons (fun _ => rfl) (.cons (fun _ => rfl) (cuts_digitsRest 8 true _ q r h))
  · exact .cons (fun _ => rfl) (.cons (fun _ => rfl) (cuts_digitsRest 2 true _ q r h))
  · rename_i hx ho hb
    obtain ⟨p, hp, hdigits⟩ := cuts_digitsRest 10 true s q r h
    refine ⟨p, hp, ?_⟩
    -- a mark of another base would also stand in the longer text
    have hmark : ∀ c rest, p ++ q = '0' :: c :: rest → s = '0' :: c :: (rest ++ r) := by
      intro c rest heq
      rw [hp, ← List.append_assoc, heq, List.cons_append, List.cons_append]
    rw [wholeRest.eq_def]
    split
    · rename_i heq
      exact absurd (hmark _ _ heq) (hx _)
    · rename_i heq
      exact absurd (hmark _ _ heq) (ho _)
    · rename_i heq
      exact absurd (hmark _ _ heq) (hb _)
    · exact hdigits

theorem isWordChar_of_wholeRest {s z : Text} (h : wholeRest s = some z)
    (hz : ∀ c ∈ z, Text.isWordChar c = true) : ∀ c ∈ s, Text.isWordChar c = true := by
  have hmark : ∀ {c : Char} {rest : Text}, Text.isWordChar c = true →
      (∀ d ∈ rest, Text.isWordChar d = true) →
        ∀ d ∈ '0' :: c :: rest, Text.isWordChar d = true := fun hc hrest =>
    List.forall_mem_cons.mpr ⟨by decide, List.forall_mem_cons.mpr ⟨hc, hrest⟩⟩
  rw [wholeRest.eq_def] at h
  split at h
  · exact hmark (by decide) (isWordChar_of_digitsRest h hz)
  · exact hmark (by decide) (isWordChar_of_digitsRest h hz)
  · exact hmark (by decide) (isWordChar_of_digitsRest h hz)
  · exact isWordChar_of_digitsRest h hz

theorem head?_any_of_append {p : Char → Bool} {s t : Text} (h : ¬(s ++ t).head?.any p = true) :
    s.head?.any p = false := by
  cases s with
  | nil => rfl
  | cons c s => exact (Bool.not_eq_true _).mp h

theorem mantissa_of_stop {point : Bool} {c : Char} {s q r : Text}
    (hstop : ∀ t, mantissa point (c :: t) = .plain point (c :: t)) (h : c :: s = q ++ r) :
    mantissa point q = .plain point q := by
  cases q with
  | nil => rfl
  | cons d q =>
      obtain ⟨rfl, -⟩ := List.cons.inj h
      exact hstop q

/-- Digits and a point are read in front of less text as they are in front of more. -/
theorem mantissa_plain_of_append {point point' : Bool} {s q r : Text}
    (h : mantissa point s = .plain point' (q ++ r)) :
    ∃ p, s = p ++ (q ++ r) ∧ mantissa point (p ++ q) = .plain point' q := by
  fun_induction mantissa point s with
  | case1 point =>
      obtain ⟨rfl, hnil⟩ := Mantissa.plain.inj h
      obtain ⟨rfl, rfl⟩ := List.append_eq_nil_iff.mp hnil.symm
      exact ⟨[], rfl, rfl⟩
  | case2 point c rest hdigit ih =>
      obtain ⟨p, rfl, hp⟩ := ih h
      exact ⟨c :: p, rfl, by simp [mantissa, hdigit, hp]⟩
  | case3 c rest hdigit hpoint =>
      obtain ⟨rfl, heq⟩ := Mantissa.plain.inj h
      exact ⟨[], heq, mantissa_of_stop (fun t => by simp [mantissa, hdigit, hpoint]) heq⟩
  | case5 point c rest hdigit hpoint hfirst hnext ih =>
      obtain ⟨p, rfl, hp⟩ := ih h
      rw [← List.append_assoc] at hnext
      refine ⟨c :: p, rfl, ?_⟩
      rw [List.cons_append, mantissa, if_neg hdigit, if_pos hpoint, if_neg hfirst,
        head?_any_of_append hnext, hp]
      rfl
  | case7 point c rest hdigit hpoint hmark =>
      obtain ⟨rfl, heq⟩ := Mantissa.plain.inj h
      exact ⟨[], heq, mantissa_of_stop (fun t => by simp [mantissa, hdigit, hpoint, hmark]) heq⟩
  | case4 | case6 => cases h

/-- What stands behind the mark of an exponent does not matter for the digits before it. Without the
mark the number ends there. -/
theorem exists_of_mantissa_exponent {point point' : Bool} {s mark rest : Text}
    (h : mantissa point s = .exponent point' mark rest) :
    ∃ p c, mark = c :: rest ∧ s = p ++ c :: rest ∧ mantissa point p = .plain point' [] ∧
      ∀ t, mantissa point (p ++ c :: t) = .exponent point' (c :: t) t := by
  fun_induction mantissa point s with
  | case2 point c rest' hdigit ih =>
      obtain ⟨p, d, rfl, rfl, hplain, hp⟩ := ih h
      exact ⟨c :: p, d, rfl, rfl, by simp [mantissa, hdigit, hplain],
        fun t => by simp [mantissa, hdigit, hp]⟩
  | case5 point c rest' hdigit hpoint hfirst hnext ih =>
      obtain ⟨p, d, rfl, rfl, hplain, hp⟩ := ih h
      have hmore : ∀ t, ¬((p ++ d :: t).head?.any fun e => e == '.' || Text.isWordStart e) =
          true := by
        intro t
        cases p <;> exact hnext
      refine ⟨c :: p, d, rfl, rfl, ?_, fun t => ?_⟩
      · rw [mantissa, if_neg hdigit, if_pos hpoint, if_neg hfirst, head?_any_of_append hnext,
          hplain]
        rfl
      · rw [List.cons_append, mantissa, if_neg hdigit, if_pos hpoint, if_neg hfirst,
          if_neg (hmore t), hp]
  | case6 point c rest' hdigit hpoint hmark =>
      obtain ⟨rfl, rfl, rfl⟩ := Mantissa.exponent.inj h
      exact ⟨[], c, rfl, rfl, rfl, fun t => by simp [mantissa, hdigit, hpoint, hmark]⟩
  | case1 | case3 | case4 | case7 => cases h

theorem cuts_fractionRest : Cuts fractionRest := by
  intro s q r h
  cases s with
  | nil => cases h
  | cons c s =>
      rw [fractionRest] at h
      split at h
      · cases h
      · rename_i hdigit
        split at h
        · cases h
        · rename_i point rest hmantissa
          split at h
          · rename_i hpoint
            rw [Option.some.inj h] at hmantissa
            obtain ⟨p, rfl, hp⟩ := mantissa_plain_of_append hmantissa
            exact ⟨c :: p, rfl, by simp [fractionRest, hdigit, hp, hpoint]⟩
          · cases h
        · rename_i point mark rest hmantissa
          obtain ⟨p, d, rfl, rfl, hplain, hp⟩ := exists_of_mantissa_exponent hmantissa
          split at h
          · rename_i rest' hexponent
            rw [Option.some.inj h] at hexponent
            obtain ⟨p', rfl, hp'⟩ := cuts_exponentRest false false rest q r hexponent
            exact ⟨c :: (p ++ d :: p'), by simp, by simp [fractionRest, hdigit, hp, hp']⟩
          · rename_i hexponent
            split at h
            · rename_i hpoint
              -- no exponent follows the mark, so the number ends before it
              refine ⟨c :: p, by rw [← Option.some.inj h]; rfl, ?_⟩
              cases q with
              | nil => simp [fractionRest, hdigit, hplain, hpoint]
              | cons e q =>
                  obtain ⟨rfl, rfl⟩ := List.cons.inj (Option.some.inj h)
                  simp [fractionRest, hdigit, hp, exponentRest_of_append hexponent, hpoint]
            · cases h

/-- The number that is read off a text is one on its own. -/
theorem exists_of_numberRest {s r : Text} (h : numberRest s = some r) :
    ∃ u, s = u ++ r ∧ numberRest u = some [] := by
  rw [numberRest] at h
  split at h
  · rename_i rest hfraction
    rw [Option.some.inj h] at hfraction
    obtain ⟨u, q, hs, hu, hq⟩ := cuts_fractionRest.exists_of_bind hfraction
    exact ⟨u, hs, by rw [numberRest, hu, Option.bind_some, finishNumber_of_passSuffix hq]⟩
  · obtain ⟨u, q, hs, hu, hq⟩ := cuts_wholeRest.exists_of_bind h
    refine ⟨u, hs, ?_⟩
    rw [numberRest, hu, Option.bind_some, finishNumber_of_passSuffix hq]
    split
    · -- a whole number may also have an exponent, but then it is read to its end as well
      rename_i rest hfraction
      obtain ⟨z, hz, hfinish⟩ := Option.bind_eq_some_iff.mp hfraction
      have hword := isWordChar_of_wholeRest hu (isWordChar_of_passSuffix hq)
      obtain ⟨p, rfl, -⟩ := cuts_fractionRest u z [] (by rw [hz, List.append_nil])
      rw [eq_nil_of_finishNumber (fun c hc => hword c (by simp [hc])) hfinish]
    · rfl

/-! ## Quotations -/

theorem cuts_quoteRest (k : QuoteKind) (state : QuoteState) : Cuts (quoteRest k state) := by
  intro s q r h
  induction s generalizing state with
  | nil => cases h
  | cons c s ih =>
      rw [quoteRest] at h
      split at h
      · rename_i next hstep
        exact .cons (fun t => by rw [quoteRest, hstep]) (ih next h)
      · rename_i hstep
        exact ⟨[c], by rw [Option.some.inj h]; rfl, by simp [quoteRest, hstep]⟩
      · cases h

theorem cuts_escapeRest (k : QuoteKind) (state : QuoteState) : Cuts (escapeRest k state) := by
  intro s q r h
  induction s generalizing state with
  | nil => cases h
  | cons c s ih =>
      rw [escapeRest] at h
      split at h
      · rename_i hstep
        exact ⟨[c], by rw [Option.some.inj h]; rfl, by simp [escapeRest, hstep]⟩
      · rename_i next hplain hstep
        refine .cons (fun t => ?_) (ih next h)
        rw [escapeRest, hstep]
        cases next <;> first | rfl | exact absurd rfl hplain
      · cases h

theorem exists_of_singleRest {k : QuoteKind} {s r : Text} (h : singleRest k s = some r) :
    ∃ u, s = u ++ r ∧ singleRest k u = some [] := by
  cases s with
  | nil => cases h
  | cons c s =>
      rw [singleRest] at h
      split at h
      · rename_i rest hinside
        have hsuffix := Option.some.inj h
        obtain ⟨q, hq⟩ := exists_of_passSuffix rest
        rw [hsuffix] at hq
        subst hq
        have hcut : Cut (fun t => if c == '\\' then escapeRest k .escape t
            else if k.isBytes && 128 ≤ c.toNat then none else some t) s ('\'' :: q) r := by
          split_ifs at hinside with hescape hbytes
          · simpa [hescape] using cuts_escapeRest k .escape s ('\'' :: q) r hinside
          · exact ⟨[], Option.some.inj hinside, by simp [hescape, hbytes]⟩
        obtain ⟨p, rfl, hp⟩ := hcut
        refine ⟨c :: (p ++ '\'' :: q), by simp, ?_⟩
        simp only [singleRest, hp, passSuffix_of_append hsuffix]
      · cases h

theorem cuts_rawRest (k : QuoteKind) (hashes : Nat) : Cuts (rawRest k hashes) := by
  intro s q r h
  fun_induction rawRest k hashes s with
  | case1 | case5 => cases h
  | case2 rest hclosed =>
      obtain ⟨z, rfl⟩ := List.isPrefixOf_iff_prefix.mp hclosed
      rw [List.drop_left' List.length_replicate, Option.some.injEq] at h
      subst h
      refine ⟨'"' :: List.replicate hashes '#', by simp, ?_⟩
      have hless : (List.replicate hashes '#').isPrefixOf (List.replicate hashes '#' ++ q) = true :=
        List.isPrefixOf_iff_prefix.mpr (List.prefix_append _ q)
      rw [List.cons_append, rawRest, if_pos hless, List.drop_left' List.length_replicate]
  | case3 rest hopen ih =>
      obtain ⟨p, rfl, hp⟩ := ih h
      refine ⟨'"' :: p, rfl, ?_⟩
      have hless : ¬(List.replicate hashes '#').isPrefixOf (p ++ q) = true := by
        intro hclosed
        have hfront := (List.isPrefixOf_iff_prefix.mp hclosed).trans (List.prefix_append (p ++ q) r)
        rw [List.append_assoc] at hfront
        exact hopen (List.isPrefixOf_iff_prefix.mpr hfront)
      rw [List.cons_append, rawRest, if_neg hless, hp]
  | case4 rest ih =>
      obtain ⟨p, rfl, hp⟩ := ih h
      exact ⟨'\r' :: '\n' :: p, rfl, hp⟩
  | case6 c rest hquote hcarriage hplain ih =>
      refine .cons (fun t => ?_) (ih h)
      rw [rawRest.eq_def]
      split
      · simp_all
      · simp_all
      · simp_all
      · rename_i heq
        obtain ⟨rfl, rfl⟩ := List.cons.inj heq
        exact if_neg hplain

theorem exists_of_rawQuoteRest {k : QuoteKind} {s r : Text} (h : rawQuoteRest k s = some r) :
    ∃ u, s = u ++ r ∧ rawQuoteRest k u = some [] := by
  have hsplit := List.takeWhile_append_dropWhile (p := (· == '#')) (l := s)
  have hall : ∀ c ∈ s.takeWhile (· == '#'), (c == '#') = true :=
    List.all_eq_true.mp List.all_takeWhile
  rw [rawQuoteRest] at h
  split at h
  · rename_i rest hrest
    split at h
    · rename_i hcount
      obtain ⟨u, rfl, hu⟩ := (cuts_rawRest k _).exists_of_map h
      rw [hrest] at hsplit
      refine ⟨s.takeWhile (· == '#') ++ '"' :: u, by simpa using hsplit.symm, ?_⟩
      have htake : (s.takeWhile (· == '#') ++ '"' :: u).takeWhile (· == '#') =
          s.takeWhile (· == '#') := by
        rw [List.takeWhile_append_of_pos hall]
        simp
      have hdrop : (s.takeWhile (· == '#') ++ '"' :: u).dropWhile (· == '#') = '"' :: u := by
        rw [List.dropWhile_append_of_pos hall]
        simp
      simp only [rawQuoteRest, htake, hdrop, if_pos hcount, hu]
    · cases h
  · cases h

/-- The quotation that is read off a text is one on its own. -/
theorem exists_of_quotationRest {s r : Text} (h : quotationRest s = some r) :
    ∃ u, s = u ++ r ∧ quotationRest u = some [] := by
  have hquote : ∀ {k : QuoteKind} {rest : Text}, (quoteRest k .plain rest).map passSuffix = some r →
      ∃ u, rest = u ++ r ∧ (quoteRest k .plain u).map passSuffix = some [] := fun hrest =>
    (cuts_quoteRest _ .plain).exists_of_map hrest
  rw [quotationRest.eq_def] at h
  split at h
  case h_1 =>
    obtain ⟨u, rfl, hu⟩ := hquote h
    exact ⟨'"' :: u, rfl, hu⟩
  case h_2 =>
    obtain ⟨u, rfl, hu⟩ := exists_of_rawQuoteRest h
    exact ⟨'r' :: u, rfl, hu⟩
  case h_3 =>
    obtain ⟨u, rfl, hu⟩ := hquote h
    exact ⟨'b' :: '"' :: u, rfl, hu⟩
  case h_4 =>
    obtain ⟨u, rfl, hu⟩ := exists_of_rawQuoteRest h
    exact ⟨'b' :: 'r' :: u, rfl, hu⟩
  case h_5 =>
    obtain ⟨u, rfl, hu⟩ := hquote h
    exact ⟨'c' :: '"' :: u, rfl, hu⟩
  case h_6 =>
    obtain ⟨u, rfl, hu⟩ := exists_of_rawQuoteRest h
    exact ⟨'c' :: 'r' :: u, rfl, hu⟩
  case h_7 =>
    obtain ⟨u, rfl, hu⟩ := exists_of_singleRest h
    exact ⟨'b' :: '\'' :: u, rfl, hu⟩
  case h_8 =>
    obtain ⟨u, rfl, hu⟩ := exists_of_singleRest h
    exact ⟨'\'' :: u, rfl, hu⟩
  case h_9 => cases h

/-- **The literal that is read off a text is one on its own.** -/
theorem exists_of_rest? {s r : Text} (h : rest? s = some r) :
    ∃ u, s = u ++ r ∧ rest? u = some [] := by
  rw [rest?] at h
  split at h
  · rename_i rest hquotation
    rw [Option.some.inj h] at hquotation
    obtain ⟨u, hs, hu⟩ := exists_of_quotationRest hquotation
    exact ⟨u, hs, by rw [rest?, hu]⟩
  · obtain ⟨u, hs, hu⟩ := exists_of_numberRest h
    refine ⟨u, hs, ?_⟩
    cases u with
    | nil => cases hu
    | cons c u =>
        have hdigit : c.isDigit = true := by
          by_contra hc
          rw [Lexer.numberRest_of_not_isDigit ((Bool.not_eq_true _).mp hc)] at hu
          cases hu
        rw [rest?, quotationRest_of_isDigit hdigit]
        exact hu

/-! ## Text in quotes -/

theorem hexValue_digitChar {n : Nat} (h : n < 16) : hexValue n.digitChar = some n := by
  have hall : ∀ m ∈ List.range 16, hexValue m.digitChar = some m := by decide
  exact hall n (List.mem_range.mpr h)

/-- The digits of a code point are read to its value. -/
theorem quoteRest_toDigits (k : QuoteKind) (n : Nat) (t : Text)
    (h : (Nat.toDigits 16 n).length ≤ 6) :
    quoteRest k (.code 0 0) (Nat.toDigits 16 n ++ t) =
      quoteRest k (.code (Nat.toDigits 16 n).length n) t := by
  induction n using Nat.strongRecOn generalizing t with
  | ind n ih =>
      by_cases hlt : n < 16
      · rw [Nat.toDigits_of_lt_base hlt]
        simp [quoteRest, quoteStep, codeStep, hexValue_digitChar hlt]
      · have hdigits := Nat.toDigits_of_base_le (b := 16) (by decide) (Nat.le_of_not_lt hlt)
        rw [hdigits, List.length_append, List.length_singleton] at h ⊢
        have hdigit := hexValue_digitChar (Nat.mod_lt n (by decide : 0 < 16))
        have hlength : ((Nat.toDigits 16 (n / 16)).length == 6) = false := by
          rw [beq_eq_false_iff_ne]
          omega
        have hvalue : n / 16 * 16 + n % 16 = n := by omega
        rw [List.append_assoc, ih (n / 16) (by omega) _ (by omega), List.singleton_append,
          quoteRest, quoteStep, codeStep, hdigit]
        simp only [hlength, Bool.false_eq_true, if_false, hvalue]

theorem quoteRest_codePointEscape (c : Char) (t : Text) :
    quoteRest .string .plain (Text.codePointEscape c ++ t) = quoteRest .string .plain t := by
  have hvalid : c.toNat.isValidChar := c.valid
  have hlt : c.toNat < 16 ^ 6 := by
    rcases hvalid with h | ⟨-, h⟩ <;> omega
  have hlength : (Nat.toDigits 16 c.toNat).length ≤ 6 :=
    (Nat.length_toDigits_le_iff (by decide) (by decide)).mpr hlt
  have hpos : ((Nat.toDigits 16 c.toNat).length == 0) = false :=
    beq_eq_false_iff_ne.mpr (Nat.ne_of_gt Nat.length_toDigits_pos)
  have hopen : ∀ s, quoteRest .string .plain ('\\' :: 'u' :: '\x7b' :: s) =
      quoteRest .string (.code 0 0) s := fun s => rfl
  have hclose : hexValue '\x7d' = none := by decide
  simp only [Text.codePointEscape, List.cons_append, List.nil_append, List.append_assoc]
  rw [hopen, quoteRest_toDigits _ _ _ hlength, quoteRest, quoteStep, codeStep, hclose]
  simp [hpos, hvalid]

/-- The characters of a text are read one by one from inside its quotes. -/
theorem quoteRest_quoteChar (c : Char) (rest t : Text) :
    quoteRest .string .plain (Text.quoteChar c rest ++ t) = quoteRest .string .plain t := by
  unfold Text.quoteChar
  split_ifs with hnull hquote hslash hfeed hcarriage htab hvisible
  · split
    · split_ifs <;> rfl
    · rfl
  · rfl
  · rfl
  · rfl
  · rfl
  · rfl
  · have hstep : quoteStep .string .plain c = .next .plain := by
      simp [quoteStep, plainStep, hquote, hslash, hcarriage, QuoteKind.isBytes]
    simp [quoteRest, hstep]
  · exact quoteRest_codePointEscape c t

/-- **Quoted text is a literal.** -/
theorem rest?_quote (s : Text) : rest? (Text.quote s) = some [] := by
  have hbody : quoteRest .string .plain (Text.quoteBody s ++ ['"']) = some [] := by
    induction s with
    | nil => rfl
    | cons c s ih => rw [Text.quoteBody, List.append_assoc, quoteRest_quoteChar, ih]
  rw [rest?, Text.quote, quotationRest, hbody]
  rfl

end EnumTags.Literal

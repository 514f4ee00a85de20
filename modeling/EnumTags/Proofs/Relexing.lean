import EnumTags.Proofs.Squeezing

/-!
# Reading written tokens back

Tokens that are written with gaps between them are read back one by one, as long as each of them
ends where the next one begins. What is not read back as it was is only whether a punctuation
character is joint: it is now joint wherever the gap behind it is closed and another one follows.

## Main results

* `Lexer.scans_written`: separated tokens are read back.
* `Tokens.exists_lex?_compact`: compact text is read back to the tokens it was made from.
-/

namespace EnumTags

/-- The text is source for these tokens. -/
def IsSource (s : Text) (ts : Tokens) : Prop := ∃ ls, lex? s = some ls ∧ Lexeme.tokens ls = ts

namespace Lexer

/-! ## One token -/

theorem step_blank (s : Text) : step (' ' :: s) = some ([], s) := by
  have hblank : Trivia.isSeparator ' ' = true := by decide
  simp only [step, hblank, if_true]

theorem step_of_isPunct {c : Char} (hc : isPunct c = true) {s : Text}
    (hcomment : Trivia.startsComment (c :: s) = false) :
    step (c :: s) = (leaf? (c :: s)).map fun (t, rest) => ([t], rest) := by
  have hseparator := of_all_punctChars (!Trivia.isSeparator ·) (by decide) hc
  have hbracket := of_all_punctChars (fun d => (bracket? d).isNone) (by decide) hc
  exact step_of_leaf (by simpa using hseparator) (Option.isNone_iff_eq_none.mp hbracket) hcomment

theorem step_punct {c : Char} (hc : isPunct c = true) (hquote : c ≠ '\'') {s : Text}
    (hcomment : Trivia.startsComment (c :: s) = false) :
    step (c :: s) = some ([.punct c (startsPunct s)], s) := by
  have hstarts : startsPunct (c :: s) = true := by simp [startsPunct, hc, hcomment]
  rw [step_of_isPunct hc hcomment, leaf?, rest?_of_isPunct hc hquote]
  simp [punct?, hstarts, hquote]

theorem anyIdent?_append (i : Ident) {s : Text} (hs : endsWord s = true) :
    anyIdent? (i.text ++ s) = some (i, s) := by
  obtain ⟨raw, name, spelled⟩ := i
  cases raw with
  | true => exact wordIdent?_append spelled hs
  | false => exact anyIdent?_of_word spelled hs

/-! ### Lifetimes -/

theorem anyIdent?_of_not_isWordStart {c : Char} (h : Text.isWordStart c = false) (s : Text) :
    anyIdent? (c :: s) = none := by
  have hraw : c ≠ 'r' := by
    rintro rfl
    cases h
  rw [anyIdent?.eq_def]
  split
  · simp_all
  · simp [wordIdent?, isSpelling, Text.isWord, h]

/-- What begins like a lifetime name is no character in quotes. -/
theorem singleRest_of_startsLifetime {s : Text} (h : startsLifetime s = true) :
    Literal.singleRest .char s = none := by
  cases s with
  | nil => rfl
  | cons c s =>
      have hstart : Text.isWordStart c = true := by
        by_contra hc
        rw [startsLifetime, anyIdent?_of_not_isWordStart ((Bool.not_eq_true _).mp hc)] at h
        cases h
      have hslash : c ≠ '\\' := Text.ne_of_isWordStart hstart
      simp only [Literal.singleRest, beq_eq_false_iff_ne.mpr hslash, Literal.QuoteKind.isBytes,
        Bool.false_and, Bool.false_eq_true, if_false]
      split
      · -- a quote directly behind a letter ends the name, and then it is no lifetime
        rename_i rest heq
        have hquote : Text.isWordChar '\'' = false := by decide
        have hspelling : isSpelling false [c] = true := by simp [isSpelling, Text.isWord, hstart]
        have hident : anyIdent? (c :: '\'' :: rest) =
            some (⟨false, [c], hspelling⟩, '\'' :: rest) := by
          rw [anyIdent?.eq_def]
          split
          · simp_all
          · simp [wordIdent?, hquote, hspelling]
        rw [Option.some.inj heq, startsLifetime, hident] at h
        cases h
      · rfl

theorem step_quote {s : Text} (hs : startsLifetime s = true) :
    step ('\'' :: s) = some ([.punct '\'' true], s) := by
  have hstarts : startsPunct ('\'' :: s) = true := rfl
  have hrest : Literal.rest? ('\'' :: s) = none := by
    rw [Literal.rest?, Literal.quotationRest, singleRest_of_startsLifetime hs]
    exact numberRest_of_not_isDigit (by decide) _
  rw [step_of_isPunct (by decide) rfl, leaf?, hrest]
  simp [punct?, hstarts, hs]

theorem startsLifetime_text (i : Ident) {s : Text} (hs : endsWord s = true) :
    startsLifetime (i.text ++ s) = true := by
  rw [startsLifetime, anyIdent?_append i hs]
  cases s with
  | nil => rfl
  | cons c s =>
      have hc : (c ≠ '"' ∧ c ≠ '\'') ∧ c ≠ '#' := by
        simpa [unquoted] using (Bool.and_eq_true_iff.mp hs).1
      split <;> simp_all

/-- A raw quotation begins with its quotes, or with a number sign and one or the other. -/
theorem exists_of_rawQuoteRest {k : Literal.QuoteKind} {s r : Text}
    (h : Literal.rawQuoteRest k s = some r) :
    ∃ x, s = '"' :: x ∨ s = '#' :: '#' :: x ∨ s = '#' :: '"' :: x := by
  rw [Literal.rawQuoteRest] at h
  split at h
  · rename_i rest hquote
    rcases s with _ | ⟨c, s⟩
    · cases hquote
    · by_cases hc : c = '#'
      · subst hc
        rcases s with _ | ⟨d, s⟩
        · cases hquote
        · by_cases hd : d = '#'
          · exact ⟨s, .inr (.inl (by rw [hd]))⟩
          · simp only [List.dropWhile_cons, beq_self_eq_true, beq_eq_false_iff_ne.mpr hd, if_true,
              Bool.false_eq_true, if_false, List.cons.injEq] at hquote
            exact ⟨s, .inr (.inr (by rw [hquote.1]))⟩
      · simp only [List.dropWhile_cons, beq_eq_false_iff_ne.mpr hc, Bool.false_eq_true, if_false,
          List.cons.injEq] at hquote
        exact ⟨s, .inl (by rw [hquote.1])⟩
  · cases h

/-- Where a digit stands, no lifetime name begins. -/
theorem startsLifetime_of_isDigit {c : Char} (h : c.isDigit = true) (s : Text) :
    startsLifetime (c :: s) = false := by
  have hstart : Text.isWordStart c = false := by
    by_contra hc
    rw [Text.not_isDigit_of_isWordStart ((Bool.not_eq_false _).mp hc)] at h
    cases h
  rw [startsLifetime, anyIdent?_of_not_isWordStart hstart]

/-- Whether a lifetime name seems to begin with a literal is seen from the literal. -/
theorem startsLifetime_append {s : Text} (h : Literal.rest? s = some []) (t : Text) :
    startsLifetime (s ++ t) = startsLifetime s := by
  rw [Literal.rest?] at h
  split at h
  · rename_i r hquotation
    rw [Literal.quotationRest.eq_def] at hquotation
    split at hquotation
    case h_1 => rfl
    case h_2 => obtain ⟨x, rfl | rfl | rfl⟩ := exists_of_rawQuoteRest hquotation <;> rfl
    case h_3 => rfl
    case h_4 => obtain ⟨x, rfl | rfl | rfl⟩ := exists_of_rawQuoteRest hquotation <;> rfl
    case h_5 => rfl
    case h_6 => obtain ⟨x, rfl | rfl | rfl⟩ := exists_of_rawQuoteRest hquotation <;> rfl
    case h_7 => rfl
    case h_8 => rfl
    case h_9 => cases hquotation
  · cases s with
    | nil => cases h
    | cons c s =>
        have hdigit : c.isDigit = true := by
          by_contra hc
          rw [numberRest_of_not_isDigit ((Bool.not_eq_true _).mp hc)] at h
          cases h
        rw [List.cons_append, startsLifetime_of_isDigit hdigit, startsLifetime_of_isDigit hdigit]

/-! ### Brackets and marks -/

theorem step_opening (d : Delimiter) {s : Text} (hs : Trivia.startsComment s = false) :
    step (d.opener :: s) = some ([.opening d], s) := by
  have hmark : errorMark.isPrefixOf (d.opener :: s) = false := by
    by_contra hc
    obtain ⟨r, hr⟩ := List.isPrefixOf_iff_prefix.mp ((Bool.not_eq_false _).mp hc)
    have herror : errorMark = '(' :: '/' :: '*' :: errorMark.drop 3 := by decide
    rw [herror, List.cons_append, List.cons.injEq] at hr
    rw [← hr.2] at hs
    cases hs
  have hcomment : Trivia.comment? (d.opener :: s) = none := by cases d <;> rfl
  have hseparator : Trivia.isSeparator d.opener = false := by cases d <;> decide
  have hbracket : bracket? d.opener = some (.opening d) := by cases d <;> rfl
  simp only [step, hseparator, hcomment, hmark, hbracket, Bool.false_eq_true, if_false]

theorem step_closing (d : Delimiter) (s : Text) :
    step (d.closer :: s) = some ([.closing d], s) := by
  have hmark : errorMark.isPrefixOf (d.closer :: s) = false := by
    have herror : errorMark = '(' :: errorMark.tail := by decide
    rw [herror]
    cases d <;> rfl
  have hcomment : Trivia.comment? (d.closer :: s) = none := by cases d <;> rfl
  have hseparator : Trivia.isSeparator d.closer = false := by cases d <;> decide
  have hbracket : bracket? d.closer = some (.closing d) := by cases d <;> rfl
  simp only [step, hseparator, hcomment, hmark, hbracket, Bool.false_eq_true, if_false]

theorem step_errorMark (s : Text) : step (errorMark ++ s) = some ([.literal errorMark], s) := by
  have hmark : errorMark.isPrefixOf (errorMark ++ s) = true :=
    List.isPrefixOf_iff_prefix.mpr (List.prefix_append errorMark s)
  have hdrop : (errorMark ++ s).drop errorMark.length = s := List.drop_left
  have herror : errorMark ++ s = '(' :: (errorMark.tail ++ s) := rfl
  have hseparator : Trivia.isSeparator '(' = false := by decide
  have hcomment : Trivia.comment? ('(' :: (errorMark.tail ++ s)) = none := rfl
  rw [herror] at hmark hdrop ⊢
  simp only [step, hseparator, hcomment, hmark, hdrop, Bool.false_eq_true, if_false, if_true]

/-! ## Whole texts -/

/-- The text is read to these tokens, from wherever it stands. -/
def Scans (s : Text) (ts : Tokens) : Prop :=
  ∀ fuel at_, s.length ≤ fuel → ∃ ls, scan fuel at_ s = some ls ∧ Lexeme.tokens ls = ts

theorem scans_nil : Scans [] [] := fun fuel at_ _ => ⟨[], by cases fuel <;> rfl, rfl⟩

/-- One step of the lexer in front of a text that is read. -/
theorem Scans.of_step {s rest : Text} {ts us : Tokens} (hstep : step s = some (ts, rest))
    (hlt : rest.length < s.length) (hrest : Scans rest us) : Scans s (ts ++ us) := by
  intro fuel at_ hfuel
  cases fuel with
  | zero => omega
  | succ fuel =>
      have hscan : scan (fuel + 1) at_ s =
          let stop := at_.after (s.take (s.length - rest.length))
          (scan fuel stop rest).map fun ls => ts.map (fun t => ⟨t, ⟨at_, stop⟩⟩) ++ ls := by
        cases s with
        | nil => cases hlt
        | cons c s => simp only [scan, hstep]
      obtain ⟨ls, hls, rfl⟩ := hrest fuel (at_.after (s.take (s.length - rest.length))) (by omega)
      simp only [hls, Option.map_some] at hscan
      exact ⟨_, hscan, by simp [Lexeme.tokens, Function.comp_def]⟩

theorem Scans.append {w rest : Text} {ts us : Tokens} (hw : w ≠ [])
    (hstep : step (w ++ rest) = some (ts, rest)) (hrest : Scans rest us) :
    Scans (w ++ rest) (ts ++ us) := by
  have hpos := List.length_pos_iff.mpr hw
  refine .of_step hstep ?_ hrest
  rw [List.length_append]
  omega

theorem leaf?_eq_none {c : Char} (hbegins : Literal.begins c = false)
    (hpunct : isPunct c = false) (hstart : Text.isWordStart c = false) (s : Text) :
    leaf? (c :: s) = none := by
  have hrest : Literal.rest? (c :: s) = none := by
    cases hs : Literal.rest? (c :: s) with
    | none => rfl
    | some r =>
        rw [Literal.begins_of_rest? hs] at hbegins
        cases hbegins
  have hident : ident? (c :: s) = none := by
    rw [ident?, anyIdent?_of_not_isWordStart hstart]
    split <;> rfl
  rw [leaf?, hrest, hident]
  simp [punct?, startsPunct, hpunct]

/-- No token begins with a byte order mark. -/
theorem step_mark {c : Char} (hc : c.toNat = 0xfeff) (s : Text) : step (c :: s) = none := by
  have hmark : c = Char.ofNat 0xfeff := by rw [← hc, Char.ofNat_toNat]
  have hbegins : Literal.begins c = false := by rw [hmark]; decide
  have hpunct : isPunct c = false := by rw [hmark]; decide
  have hstart : Text.isWordStart c = false := by rw [hmark]; decide +kernel
  have hcomment : Trivia.startsComment (c :: s) = false := by rw [hmark]; rfl
  have hbracket : bracket? c = none := by rw [hmark]; rfl
  have hseparator : Trivia.isSeparator c = false := by rw [hmark]; decide
  rw [step_of_leaf hseparator hbracket hcomment, leaf?_eq_none hbegins hpunct hstart]
  rfl

theorem Scans.passMark {s : Text} {ts : Tokens} (h : Scans s ts) :
    Lexer.passMark s = (.start, s) := by
  cases s with
  | nil => rfl
  | cons c s =>
      have hmark : (c.toNat == 0xfeff) = false := by
        rw [beq_eq_false_iff_ne]
        intro hc
        obtain ⟨ls, hls, -⟩ := h (s.length + 1) .start (Nat.le_refl _)
        simp only [scan, step_mark hc] at hls
        cases hls
      simp only [Lexer.passMark, hmark, Bool.false_eq_true, if_false]

/-- A text that is read to balanced tokens is source. -/
theorem Scans.exists_lex? {s : Text} {ts : Tokens} (h : Scans s ts)
    (hbalanced : balanced [] ts = true) : ∃ ls, lex? s = some ls ∧ Lexeme.tokens ls = ts := by
  obtain ⟨ls, hls, rfl⟩ := h s.length .start (Nat.le_refl _)
  exact ⟨ls, by simp only [lex?, h.passMark, hls, hbalanced, if_true], rfl⟩

theorem Scans.blank {s : Text} {ts : Tokens} (h : Scans s ts) : Scans (' ' :: s) ts :=
  .of_step (step_blank s) (Nat.lt_succ_self s.length) h

theorem Scans.behind {s : Text} {ts : Tokens} (h : Scans s ts) (gap : Bool) :
    Scans (Spaced.behind gap s) ts := by
  cases gap with
  | true => exact h.blank
  | false => exact h

end Lexer

namespace Spaced

/-- The tokens as the lexer reads them from the written text: punctuation is joint where more of it
follows without a gap. -/
def rejoined : List Spaced → Tokens
  | [] => []
  | ⟨.punct c _, gap⟩ :: ps =>
    .punct c (c == '\'' || Lexer.startsPunct (behind gap (written ps))) :: rejoined ps
  | p :: ps => p.token :: rejoined ps

/-- Whether the token ends where the following ones begin. A single quote has to stand directly
before what begins like a lifetime name. -/
def ends : Spaced → List Spaced → Bool
  | ⟨.ident _, gap⟩, ps => Lexer.endsWord (behind gap (written ps))
  | ⟨.literal s, gap⟩, ps =>
    s == Lexer.errorMark || Lexer.endsLiteral (behind gap (written ps))
  | ⟨.punct c _, gap⟩, ps =>
    c != '\'' || (!gap && Lexer.startsLifetime (written ps))
  | ⟨.opening _, _⟩, _ => true
  | ⟨.closing _, _⟩, _ => true

/-- Whether the tokens are told apart again: each of them ends where the next one begins, and none
begins a comment. -/
def separated : List Spaced → Bool
  | [] => true
  | p :: ps =>
    p.token.isLexable && !Trivia.startsComment (written (p :: ps)) && ends p ps && separated ps

theorem not_startsComment_behind {ps : List Spaced} (h : separated ps = true) (gap : Bool) :
    Trivia.startsComment (behind gap (written ps)) = false := by
  cases gap with
  | true => rfl
  | false =>
      cases ps with
      | nil => rfl
      | cons p ps =>
          simp only [separated, Bool.and_eq_true, Bool.not_eq_true'] at h
          exact h.1.1.2

/-- **Tokens that are told apart are read back**, up to which punctuation is joint. -/
theorem scans_written {ps : List Spaced} (h : separated ps = true) :
    Lexer.Scans (written ps) (rejoined ps) := by
  induction ps with
  | nil => exact Lexer.scans_nil
  | cons p ps ih =>
      have hcomment := not_startsComment_behind h false
      simp only [separated, Bool.and_eq_true] at h
      obtain ⟨⟨⟨hlexable, -⟩, hends⟩, hps⟩ := h
      have hne : p.token.text ≠ [] := by
        obtain ⟨c, s, hs, -⟩ := Token.exists_text_eq_cons hlexable
        rw [hs]
        exact List.cons_ne_nil c s
      have hrest := (ih hps).behind p.gap
      obtain ⟨t, gap⟩ := p
      cases t with
      | ident i => exact .append hne (Lexer.step_ident i hends) hrest
      | punct c joint =>
          by_cases hquote : c = '\''
          · subst hquote
            simp only [ends, bne_self_eq_false, Bool.false_or, Bool.and_eq_true,
              Bool.not_eq_true'] at hends
            obtain ⟨rfl, hlifetime⟩ := hends
            exact .append hne (Lexer.step_quote hlifetime) hrest
          · have hjoint : (c == '\'') = false := beq_eq_false_iff_ne.mpr hquote
            rw [rejoined, hjoint, Bool.false_or]
            exact .append hne (Lexer.step_punct hlexable hquote hcomment) hrest
      | literal s =>
          simp only [Token.isLexable, ends, Bool.or_eq_true, beq_iff_eq] at hlexable hends
          rcases hlexable with rfl | hs
          · exact .append hne (Lexer.step_errorMark _) hrest
          · rcases hends with rfl | hend
            · exact .append hne (Lexer.step_errorMark _) hrest
            · exact .append hne (Lexer.step_literal hs hend) hrest
      | opening d =>
          exact .append hne (Lexer.step_opening d (not_startsComment_behind hps gap)) hrest
      | closing d => exact .append hne (Lexer.step_closing d _) hrest

/-! ## What squeezing leaves apart -/

/-- Whether a literal or word ends here for good: at a gap, at a character that closes gaps, or at
the end. -/
def breaks (s : Text) : Bool := s.head?.all fun c => c == ' ' || Text.closesBefore c

theorem endsLiteral_of_breaks {s : Text} (h : breaks s = true) : Lexer.endsLiteral s = true := by
  cases s with
  | nil => rfl
  | cons c s =>
      simp only [breaks, List.head?_cons, Option.all_some, Text.closesBefore, Bool.or_eq_true,
        beq_iff_eq] at h
      rcases h with rfl | (((((((rfl | rfl) | rfl) | rfl) | rfl) | rfl) | rfl) | rfl) <;> rfl

end Spaced

/-- Whether the token can stand behind the single quote of a lifetime. A quotation whose mark is a
letter looks like a name there. -/
def Token.followsQuote : Token → Bool
  | ident _ => true
  | literal s => Lexer.startsLifetime s
  | _ => false

/-- Whether the token can stand behind the character `c` that is joint with it: punctuation with
which it does not begin a comment, or a literal in single quotes. -/
def Token.followsJoint (c : Char) : Token → Bool
  | punct d _ => !(c == '/' && (d == '/' || d == '*'))
  | literal s => s.head? == some '\''
  | _ => false

/-- Whether what follows the token fits: a single quote is joint with what looks like a name, and
another joint character with punctuation or a single quote. -/
def Token.linked : Token → Option Token → Bool
  | punct c joint, next =>
    if c == '\'' then joint && next.any followsQuote else !joint || next.any (followsJoint c)
  | _, _ => true

theorem Token.apart_of_followsJoint {c : Char} {t : Token} (h : t.followsJoint c = true) :
    (punct c true).apart t = false := by
  cases t with
  | punct d joint => rfl
  | literal s => rfl
  | ident i => cases h
  | opening d => cases h
  | closing d => cases h

theorem Token.ne_of_followsJoint_slash {t : Token} (h : t.followsJoint '/' = true) {d : Char}
    (hd : t.text.head? = some d) : d ≠ '/' ∧ d ≠ '*' := by
  cases t with
  | punct e joint =>
      obtain rfl : e = d := Option.some.inj hd
      constructor <;> rintro rfl <;> cases h
  | literal s =>
      have hquote : some d = some '\'' := hd ▸ beq_iff_eq.mp h
      rw [Option.some.inj hquote]
      decide
  | ident i => cases h
  | opening d => cases h
  | closing d => cases h

/-- No blank stands before a closing round or square bracket, behind an opening one, and behind a
joint punctuation character. -/
theorem Token.apart_eq_false {t u : Token} (h : t.apart u = false) :
    (u = closing .paren ∨ u = closing .bracket) ∨ (∃ d, t = opening d) ∨ ∃ c, t = punct c true := by
  rw [apart.eq_def] at h
  split at h
  · cases h
  · cases h
  · exact .inr (.inl ⟨_, rfl⟩)
  · rename_i d hbrace _ _
    cases d with
    | paren => exact .inl (.inl rfl)
    | bracket => exact .inl (.inr rfl)
    | brace => exact absurd rfl hbrace
  · rw [Bool.not_eq_false'] at h
    exact .inr (.inr ⟨_, by rw [h]⟩)
  · cases h

/-- Whether the tokens are whole and linked. The lexer only makes such tokens, apart from literals
that hold a blank. -/
def Tokens.sound : Tokens → Bool
  | [] => true
  | t :: ts => t.isUnbroken && t.linked ts.head? && sound ts

theorem Tokens.sound_append {ts us : Tokens} (hts : ts.sound = true) (hus : us.sound = true) :
    sound (ts ++ us) = true := by
  induction ts with
  | nil => exact hus
  | cons t ts ih =>
      simp only [Tokens.sound, List.cons_append, Bool.and_eq_true] at hts ⊢
      refine ⟨⟨hts.1.1, ?_⟩, ih hts.2⟩
      cases ts with
      | cons u ts => exact hts.1.2
      | nil =>
          -- the last token is not joint, so anything may follow it
          have hlinked := hts.1.2
          cases t with
          | punct c joint =>
              simp only [Token.linked, List.head?_nil, Option.any_none] at hlinked ⊢
              split at hlinked
              · simp at hlinked
              · rename_i hquote
                rw [if_neg hquote]
                simp_all
          | ident i => rfl
          | literal s => rfl
          | opening d => rfl
          | closing d => rfl

namespace Spaced

theorem sound_unbroken {ts : Tokens} (h : ts.sound = true) : ∀ t ∈ ts, t.isUnbroken = true := by
  induction ts with
  | nil => exact fun t ht => nomatch ht
  | cons u ts ih =>
      simp only [Tokens.sound, Bool.and_eq_true] at h
      intro t ht
      rcases List.mem_cons.mp ht with rfl | ht
      · exact h.1.1
      · exact ih h.2 t ht

/-- What is known of the gap behind a token after squeezing: it is missing where none was, and where
it was closed for one of the characters next to it. -/
structure GapBehind (t : Token) (ts : Tokens) (gap : Bool) : Prop where
  missing : ∀ u, ts.head? = some u → t.apart u = false → gap = false
  closed : ∀ u, ts.head? = some u → gap = false → t.apart u = false ∨
    t.text.getLast?.any Text.closesAfter = true ∨ u.text.head?.any Text.closesBefore = true

theorem exists_of_tightens_spaced {t : Token} {ts : Tokens} {qs : List Spaced}
    (h : Tightens (Tokens.spaced (t :: ts)) qs) :
    ∃ gap rest, qs = ⟨t, gap⟩ :: rest ∧ Tightens ts.spaced rest ∧ GapBehind t ts gap := by
  cases ts with
  | nil =>
      cases h with
      | keep h => exact ⟨false, _, rfl, h, (fun _ hu => nomatch hu), (fun _ hu => nomatch hu)⟩
  | cons u ts =>
      have hhead : ∀ v, (u :: ts).head? = some v → v = u := fun v hv => (Option.some.inj hv).symm
      rw [Tokens.spaced] at h
      cases hapart : t.apart u with
      | false =>
          rw [hapart] at h
          cases h with
          | keep h =>
              exact ⟨false, _, rfl, h, fun _ _ _ => rfl, fun v hv _ => .inl (hhead v hv ▸ hapart)⟩
      | true =>
          rw [hapart] at h
          cases h with
          | keep h =>
              refine ⟨true, _, rfl, h, fun v hv hc => ?_, fun _ _ hc => nomatch hc⟩
              rw [hhead v hv, hapart] at hc
              cases hc
          | close hclosable h =>
              have hnext : ∃ gap rest, Tokens.spaced (u :: ts) = ⟨u, gap⟩ :: rest := by
                cases ts <;> exact ⟨_, _, rfl⟩
              obtain ⟨gap, rest, hspaced⟩ := hnext
              rw [closable, hspaced, Bool.or_eq_true] at hclosable
              exact ⟨false, _, rfl, h, fun _ _ _ => rfl,
                fun v hv _ => .inr (hhead v hv ▸ hclosable)⟩

theorem head?_behind {ts : Tokens} (hts : ts.sound = true) {qs : List Spaced}
    (h : Tightens ts.spaced qs) :
    (behind false (written qs)).head? = ts.head?.bind fun u => u.text.head? := by
  have hunbroken := h.unbroken (Tokens.unbroken_spaced (sound_unbroken hts))
  have htokens := h.tokens_eq
  rw [Tokens.map_token_spaced] at htokens
  rw [behind, if_neg (by decide), head?_written hunbroken, ← htokens, List.head?_map]
  cases qs.head? <;> rfl

/-- A token that stands apart from all but closing brackets, and after which no gap is closed, is
followed by a break. -/
theorem breaks_behind {t : Token} {ts : Tokens} (hts : ts.sound = true) {gap : Bool}
    {rest : List Spaced} (hrest : Tightens ts.spaced rest)
    (hgap : GapBehind t ts gap) (hlast : t.text.getLast?.any Text.closesAfter = false)
    (hopening : ∀ d, t ≠ .opening d) (hjoint : ∀ c, t ≠ .punct c true) :
    breaks (behind gap (written rest)) = true := by
  cases gap with
  | true => rfl
  | false =>
      rw [breaks, head?_behind hts hrest]
      cases hu : ts.head? with
      | none => rfl
      | some u =>
          have hclosing : u.text.head?.any Text.closesBefore = true := by
            rcases hgap.closed u hu rfl with hnext | hclosed | hbefore
            · rcases Token.apart_eq_false hnext with (rfl | rfl) | ⟨d, hd⟩ | ⟨c, hc⟩
              · rfl
              · rfl
              · exact absurd hd (hopening d)
              · exact absurd hc (hjoint c)
            · rw [hlast] at hclosed
              cases hclosed
            · exact hbefore
          cases hc : u.text.head? with
          | none => simp [hc]
          | some c => simp_all

theorem endsLiteral_of_closesAfter {c : Char} (h : Text.closesAfter c = true) :
    Lexer.endsLiteral [c] = true := by
  simp only [Text.closesAfter, Bool.or_eq_true, beq_iff_eq] at h
  rcases h with (((rfl | rfl) | rfl) | rfl) | rfl <;> rfl

theorem not_closesAfter_ident (i : Ident) :
    (Token.ident i).text.getLast?.any Text.closesAfter = false := by
  obtain ⟨raw, name, spelled⟩ := i
  have hword : Text.isWord name = true := (Bool.and_eq_true_iff.mp spelled).1
  have hne : name ≠ [] := by
    rintro rfl
    cases hword
  have hlast : (Token.ident ⟨raw, name, spelled⟩).text.getLast? = name.getLast? := by
    cases raw with
    | false => rfl
    | true =>
        obtain ⟨c, w, rfl⟩ := List.exists_cons_of_ne_nil hne
        rfl
  rw [hlast, List.getLast?_eq_some_getLast hne, Option.any_some]
  by_contra hc
  rw [Bool.not_eq_false] at hc
  have hchar := Text.isWordChar_of_mem_isWord hword (List.getLast_mem hne)
  have hends := endsLiteral_of_closesAfter hc
  rw [(Literal.behind hends).char] at hchar
  cases hchar

theorem not_closesAfter_literal {s : Text} (h : Literal.rest? s = some []) :
    (Token.literal s).text.getLast?.any Text.closesAfter = false := by
  rcases List.eq_nil_or_concat s with rfl | ⟨s, c, rfl⟩
  · rfl
  · rw [List.concat_eq_append] at h ⊢
    simp only [Token.text, List.getLast?_append, List.getLast?_singleton, Option.some_or,
      Option.any_some]
    by_contra hc
    have hends := endsLiteral_of_closesAfter ((Bool.not_eq_false _).mp hc)
    rw [Literal.not_endsLiteral_of_rest? h] at hends
    cases hends

theorem not_startsComment_slash {s : Text} (h : ∀ d, s.head? = some d → d ≠ '/' ∧ d ≠ '*') :
    Trivia.startsComment ('/' :: s) = false := by
  rw [Trivia.startsComment.eq_def]
  split
  · rename_i heq
    exact absurd rfl (h '/' (by rw [(List.cons.inj heq).2]; rfl)).1
  · rename_i heq
    exact absurd rfl (h '*' (by rw [(List.cons.inj heq).2]; rfl)).2
  · rfl

theorem not_startsComment_of_sound {t : Token} {ts : Tokens}
    (hts : Tokens.sound (t :: ts) = true) {qs : List Spaced}
    (h : Tightens (Tokens.spaced (t :: ts)) qs) : Trivia.startsComment (written qs) = false := by
  obtain ⟨gap, rest, rfl, hrest, hgap⟩ := exists_of_tightens_spaced h
  simp only [Tokens.sound, Bool.and_eq_true] at hts
  obtain ⟨⟨hunbroken, hlinked⟩, hsound⟩ := hts
  obtain ⟨c, s, hs, hpunct⟩ :=
    Token.exists_text_eq_cons (Bool.and_eq_true_iff.mp hunbroken).1
  by_cases hslash : c = '/'
  · -- only a slash begins with one, and neither a slash nor a star stands directly behind it
    subst hslash
    obtain ⟨joint, rfl⟩ := hpunct (by decide) (by decide)
    have hwritten : written (⟨.punct '/' joint, gap⟩ :: rest) = '/' :: behind gap (written rest) :=
      rfl
    rw [hwritten]
    cases joint with
    | false =>
        have hbreaks := breaks_behind hsound hrest hgap rfl (by simp) (by simp)
        refine not_startsComment_slash fun d hd => ?_
        rw [breaks, hd] at hbreaks
        constructor <;> rintro rfl <;> cases hbreaks
    | true =>
        cases ts with
        | nil => cases hlinked
        | cons u ts =>
            have hfollows : u.followsJoint '/' = true := hlinked
            have hgapless : gap = false := hgap.missing u rfl (Token.apart_of_followsJoint hfollows)
            subst hgapless
            refine not_startsComment_slash fun e he => ?_
            rw [head?_behind hsound hrest] at he
            exact Token.ne_of_followsJoint_slash hfollows he
  · have hfirst : written (⟨t, gap⟩ :: rest) = c :: (s ++ behind gap (written rest)) := by
      rw [written, hs, List.cons_append]
    rw [hfirst, Trivia.startsComment.eq_def]
    split <;> simp_all

/-- What can stand behind the single quote of a lifetime is written so that it is read as one. -/
theorem startsLifetime_written {u : Token} {gap : Bool} {rest : List Spaced}
    (hu : u.followsQuote = true) (h : separated (⟨u, gap⟩ :: rest) = true) :
    Lexer.startsLifetime (written (⟨u, gap⟩ :: rest)) = true := by
  simp only [separated, Bool.and_eq_true] at h
  obtain ⟨⟨⟨hlexable, -⟩, hends⟩, -⟩ := h
  cases u with
  | ident i => exact Lexer.startsLifetime_text i hends
  | literal s =>
      simp only [Token.isLexable, Bool.or_eq_true, beq_iff_eq] at hlexable
      rcases hlexable with rfl | hs
      · cases hu
      · exact (Lexer.startsLifetime_append hs _).trans hu
  | punct c joint => cases hu
  | opening d => cases hu
  | closing d => cases hu

theorem ends_punct {c : Char} {joint gap : Bool} {ts : Tokens} {rest : List Spaced}
    (hlinked : (Token.punct c joint).linked ts.head? = true) (hrest : Tightens ts.spaced rest)
    (hgap : GapBehind (.punct c joint) ts gap) (hseparated : separated rest = true) :
    ends ⟨.punct c joint, gap⟩ rest = true := by
  by_cases hquote : c = '\''
  · subst hquote
    simp only [Token.linked, beq_self_eq_true, if_true, Bool.and_eq_true] at hlinked
    obtain ⟨rfl, hnext⟩ := hlinked
    have htokens := hrest.tokens_eq
    rw [Tokens.map_token_spaced] at htokens
    subst htokens
    cases rest with
    | nil => cases hnext
    | cons q rest =>
        obtain ⟨u, gap'⟩ := q
        have hfollows : u.followsQuote = true := hnext
        have hapart : (Token.punct '\'' true).apart u = false := by
          cases u <;> first | rfl | cases hfollows
        have hgapless : gap = false := hgap.missing u rfl hapart
        subst hgapless
        exact startsLifetime_written hfollows hseparated
  · simp [ends, hquote]

/-- **Squeezing tells all tokens apart.** -/
theorem separated_of_tightens {ts : Tokens} (hts : ts.sound = true) {qs : List Spaced}
    (h : Tightens ts.spaced qs) : separated qs = true := by
  induction ts generalizing qs with
  | nil =>
      cases h
      rfl
  | cons t ts ih =>
      have hcomment := not_startsComment_of_sound hts h
      obtain ⟨gap, rest, rfl, hrest, hgap⟩ := exists_of_tightens_spaced h
      simp only [Tokens.sound, Bool.and_eq_true] at hts
      obtain ⟨⟨hunbroken, hlinked⟩, hsound⟩ := hts
      have hlexable := (Bool.and_eq_true_iff.mp hunbroken).1
      have hends : ends ⟨t, gap⟩ rest = true := by
        cases t with
        | ident i =>
            have hbreaks := breaks_behind hsound hrest hgap (not_closesAfter_ident i)
              (by simp) (by simp)
            exact (Bool.and_eq_true_iff.mp (endsLiteral_of_breaks hbreaks)).1
        | literal s =>
            simp only [ends, Bool.or_eq_true, beq_iff_eq]
            simp only [Token.isLexable, Bool.or_eq_true, beq_iff_eq] at hlexable
            rcases hlexable with rfl | hs
            · exact .inl rfl
            · exact .inr (endsLiteral_of_breaks (breaks_behind hsound hrest hgap
                (not_closesAfter_literal hs) (by simp) (by simp)))
        | punct c joint => exact ends_punct hlinked hrest hgap (ih hsound hrest)
        | opening d => rfl
        | closing d => rfl
      simp only [separated, hlexable, hcomment, hends, ih hsound hrest, Bool.not_false,
        Bool.and_self]

end Spaced

/-! ## Compact text -/

/-- Whether the two colons of a path stand here, with something behind them. -/
def Tokens.startsPath : Tokens → Bool
  | .punct ':' true :: .punct ':' false :: u :: _ => (Token.punct ':' false).apart u
  | _ => false

/-- The same token, or a punctuation character that has become joint. -/
def Token.glues : Token → Token → Bool
  | punct c joint, punct d joint' => c == d && (!joint || joint')
  | t, u => t == u

/-- The same tokens, of which some have become joint. A colon before the two colons of a path has
become joint in any case. -/
inductive Glued : Tokens → Tokens → Prop
  | nil : Glued [] []
  | cons {t u : Token} {ts us : Tokens} : t.glues u = true →
      (t = .punct ':' false → ts.startsPath = true → u = .punct ':' true) →
      Glued ts us → Glued (t :: ts) (u :: us)

theorem Tokens.exists_spaced_cons (t : Token) (ts : Tokens) :
    ∃ gap, spaced (t :: ts) = ⟨t, gap⟩ :: ts.spaced := by
  cases ts <;> exact ⟨_, rfl⟩

theorem Tokens.exists_of_startsPath {ts : Tokens} (h : ts.startsPath = true) :
    ∃ rest, ts = Tokens.op "::" ++ rest := by
  rw [startsPath.eq_def] at h
  split at h
  · exact ⟨_, rfl⟩
  · cases h

namespace Spaced

theorem startsRoot_spaced {ts : Tokens} (h : ts.startsPath = true) :
    startsRoot ts.spaced = true := by
  rw [Tokens.startsPath.eq_def] at h
  split at h
  · rw [Tokens.spaced, Tokens.spaced, h]
    rfl
  · cases h

/-- What is written next and begins with a punctuation character is seen by the lexer. -/
theorem startsPunct_written {u : Token} {ts : Tokens} {qs : List Spaced} {d : Char}
    (hts : Tokens.sound (u :: ts) = true) (h : Tightens (Tokens.spaced (u :: ts)) qs)
    (hd : u.text.head? = some d) (hpunct : Lexer.isPunct d = true) :
    Lexer.startsPunct (written qs) = true := by
  have hcomment := not_startsComment_of_sound hts h
  have hhead := (head?_behind hts h).trans hd
  rw [Lexer.startsPunct, hcomment, show (written qs).head? = some d from hhead]
  simp [hpunct]

/-- A joint character is still joint after squeezing. -/
theorem startsPunct_of_linked {c : Char} {ts : Tokens} {gap : Bool} {rest : List Spaced}
    (hquote : c ≠ '\'') (hlinked : (Token.punct c true).linked ts.head? = true)
    (hsound : ts.sound = true) (hrest : Tightens ts.spaced rest)
    (hgap : GapBehind (.punct c true) ts gap) :
    Lexer.startsPunct (behind gap (written rest)) = true := by
  simp only [Token.linked, beq_eq_false_iff_ne.mpr hquote, Bool.false_eq_true, if_false,
    Bool.not_true, Bool.false_or] at hlinked
  cases ts with
  | nil => cases hlinked
  | cons u ts =>
      have hfollows : u.followsJoint c = true := hlinked
      have hgapless : gap = false := hgap.missing u rfl (Token.apart_of_followsJoint hfollows)
      subst hgapless
      have hunbroken := sound_unbroken hsound u List.mem_cons_self
      cases u with
      | punct d joint =>
          exact startsPunct_written hsound hrest rfl (Bool.and_eq_true_iff.mp hunbroken).1
      | literal s => exact startsPunct_written hsound hrest (beq_iff_eq.mp hfollows) (by decide)
      | ident i => cases hfollows
      | opening d => cases hfollows
      | closing d => cases hfollows

theorem glued_rejoined {ts : Tokens} (hts : ts.sound = true) {qs : List Spaced}
    (h : Tightens ts.spaced qs) (hroots : ClosesRoots ts.spaced qs) : Glued ts (rejoined qs) := by
  induction ts generalizing qs with
  | nil =>
      cases h
      exact .nil
  | cons t ts ih =>
      obtain ⟨gap, rest, rfl, hrest, hgap⟩ := exists_of_tightens_spaced h
      have hsound := hts
      simp only [Tokens.sound, Bool.and_eq_true] at hsound
      obtain ⟨⟨-, hlinked⟩, hsound⟩ := hsound
      obtain ⟨gap', hspaced⟩ := Tokens.exists_spaced_cons t ts
      rw [hspaced] at hroots
      obtain ⟨hroot, hroots⟩ := hroots
      have htail := ih hsound hrest hroots
      cases t with
      | punct c joint =>
          refine .cons ?_ ?_ htail
          · by_cases hquote : c = '\''
            · simp [Token.glues, hquote]
            · cases joint with
              | false => simp [Token.glues]
              | true =>
                  simp [Token.glues, startsPunct_of_linked hquote hlinked hsound hrest hgap]
          · intro hcolon hpath
            have hgapless := hroot (startsRoot_spaced hpath)
            subst hgapless
            obtain ⟨rfl, rfl⟩ := Token.punct.inj hcolon
            obtain ⟨us, rfl⟩ := Tokens.exists_of_startsPath hpath
            have hstarts := startsPunct_written hsound hrest rfl (by decide)
            simp [behind, hstarts]
      | ident i => exact .cons (by simp [Token.glues]) (by simp) htail
      | literal s => exact .cons (by simp [Token.glues]) (by simp) htail
      | opening d => exact .cons (by simp [Token.glues]) (by simp) htail
      | closing d => exact .cons (by simp [Token.glues]) (by simp) htail

end Spaced

theorem Glued.balanced_eq {ts us : Tokens} (h : Glued ts us) (opened : List Delimiter) :
    Lexer.balanced opened us = Lexer.balanced opened ts := by
  induction h generalizing opened with
  | nil => rfl
  | @cons t u ts us hglues _ _ ih =>
      cases t with
      | punct c joint =>
          cases u with
          | punct d joint' =>
              cases opened <;> exact ih _
          | ident i => cases hglues
          | literal s => cases hglues
          | opening d => cases hglues
          | closing d => cases hglues
      | ident i | literal s =>
          obtain rfl := beq_iff_eq.mp hglues
          cases opened <;> exact ih _
      | opening d =>
          obtain rfl := beq_iff_eq.mp hglues
          exact ih _
      | closing d =>
          obtain rfl := beq_iff_eq.mp hglues
          cases opened with
          | nil => rfl
          | cons d' opened => simp only [Lexer.balanced, ih]

namespace Tokens

/-- **Compact text is read back to the tokens it was made from**, of which some have become
joint. -/
theorem exists_lex?_compact {ts : Tokens} (hsound : ts.sound = true)
    (hbalanced : Lexer.balanced [] ts = true) :
    ∃ ls, lex? ts.compact = some ls ∧ Glued ts (Lexeme.tokens ls) := by
  obtain ⟨qs, hqs, htight, hroots⟩ := exists_tightens_compact (Spaced.sound_unbroken hsound)
  have hglued := Spaced.glued_rejoined hsound htight hroots
  have hscans := Spaced.scans_written (Spaced.separated_of_tightens hsound htight)
  rw [hqs]
  obtain ⟨ls, hls, htokens⟩ := hscans.exists_lex? (by rw [hglued.balanced_eq, hbalanced])
  exact ⟨ls, hls, htokens ▸ hglued⟩

end Tokens

end EnumTags

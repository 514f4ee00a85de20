import EnumTags.Proofs.Literals
import EnumTags.Token.Compact

/-!
# Squeezing out blanks

Compact text is made by replacing pieces of text, without a look at the tokens. Each replacement
only drops blanks: those behind a few characters (`closesAfter`) and those before a few others
(`closesBefore`). So as long as no token holds a blank itself, compact text is the same tokens with
fewer blanks between them, and every gap that was closed has one of these characters next to it.

## Main results

* `Text.thins_replace`: a replacement drops such blanks throughout a text and nothing else.
* `Tokens.exists_tightens_compact`: what squeezing does to tokens that hold no blanks.
-/

namespace EnumTags

namespace Text

/-! ## Dropping blanks -/

/-- The characters behind which a blank may be dropped. -/
def closesAfter (c : Char) : Bool :=
  c == ':' || c == '<' || c == '(' || c == '[' || c == '&'

/-- The characters before which a blank may be dropped. -/
def closesBefore (c : Char) : Bool :=
  c == ':' || c == '<' || c == '>' || c == ',' || c == ')' || c == ']' || c == ';' || c == '('

/-- Whether the second text is the first one without some of the blanks that may be dropped, where
`last` is the character before it. -/
def thins : (last : Char) → Text → Text → Bool
  | _, [], s' => s'.isEmpty
  | last, c :: s, s' =>
    (s'.head? == some c && thins c s s'.tail) ||
      (c == ' ' && (closesAfter last || s.head?.any closesBefore) && thins last s s')

theorem thins_cons {last c : Char} {s s' : Text} :
    thins last (c :: s) s' = true ↔
      (∃ r, s' = c :: r ∧ thins c s r = true) ∨
        (c = ' ' ∧ (closesAfter last || s.head?.any closesBefore) = true ∧
          thins last s s' = true) := by
  rw [thins, Bool.or_eq_true, Bool.and_eq_true, Bool.and_eq_true, Bool.and_eq_true, beq_iff_eq,
    beq_iff_eq, and_assoc]
  refine or_congr ?_ Iff.rfl
  cases s' with
  | nil => simp
  | cons d r =>
      constructor
      · rintro ⟨hd, hr⟩
        exact ⟨r, by rw [Option.some.inj hd], hr⟩
      · rintro ⟨r', heq, hr⟩
        rw [List.cons.injEq] at heq
        exact ⟨by rw [heq.1]; rfl, by rw [← heq.2] at hr; exact hr⟩

/-- What may be dropped without a look at what stands before may be dropped anywhere. -/
theorem thins_of_thins_blank {s s' : Text} (h : thins ' ' s s' = true) (last : Char) :
    thins last s s' = true := by
  induction s with
  | nil => exact h
  | cons c s ih =>
      rw [thins_cons] at h ⊢
      rcases h with hkept | ⟨hc, hnear, hrest⟩
      · exact .inl hkept
      · have hblank : closesAfter ' ' = false := by decide
        rw [hblank, Bool.false_or] at hnear
        exact .inr ⟨hc, by simp [hnear], ih hrest⟩

theorem thins_append {last : Char} {old new s s' : Text} (h : thins last old new = true)
    (hs : ∀ c, thins c s s' = true) : thins last (old ++ s) (new ++ s') = true := by
  induction old generalizing last new with
  | nil =>
      rw [thins, List.isEmpty_iff] at h
      rw [h]
      exact hs last
  | cons c old ih =>
      rw [List.cons_append, thins_cons]
      rcases thins_cons.mp h with ⟨r, rfl, hr⟩ | ⟨hc, hnear, hrest⟩
      · exact .inl ⟨r ++ s', rfl, ih hr⟩
      · refine .inr ⟨hc, ?_, ih hrest⟩
        cases old with
        | nil =>
            rw [List.head?_nil, Option.any_none, Bool.or_false] at hnear
            simp [hnear]
        | cons d old => exact hnear

/-- Dropping blanks leaves a text without blanks as it is. -/
theorem thins_append_iff_of_not_mem {last : Char} {w s s' : Text} (hw : ' ' ∉ w) :
    thins last (w ++ s) s' = true ↔
      ∃ r, s' = w ++ r ∧ thins (w.getLast?.getD last) s r = true := by
  induction w generalizing last s' with
  | nil => simp
  | cons c w ih =>
      have hc : c ≠ ' ' := fun h => hw (h ▸ List.mem_cons_self)
      have htail : ' ' ∉ w := fun h => hw (List.mem_cons_of_mem c h)
      have hlast : (c :: w).getLast?.getD last = w.getLast?.getD c := by
        rw [List.getLast?_cons]
        rfl
      rw [List.cons_append, thins_cons, hlast]
      constructor
      · rintro (⟨r, rfl, hr⟩ | ⟨hblank, -⟩)
        · obtain ⟨r', rfl, hr'⟩ := (ih htail).mp hr
          exact ⟨r', rfl, hr'⟩
        · exact absurd hblank hc
      · rintro ⟨r, rfl, hr⟩
        exact .inl ⟨w ++ r, rfl, (ih htail).mpr ⟨r, rfl, hr⟩⟩

/-! ## Replacing -/

theorem replaceAfter_eq_replace_drop (old new : Text) (skip : Nat) (s : Text) :
    replaceAfter old new skip s = replace old new (s.drop skip) := by
  induction skip generalizing s with
  | zero => rfl
  | succ skip ih =>
      cases s with
      | nil => rfl
      | cons c s => exact ih s

theorem replace_append (old new s : Text) (h : old ≠ []) :
    replace old new (old ++ s) = new ++ replace old new s := by
  cases old with
  | nil => exact absurd rfl h
  | cons c old =>
      have hfront : (c :: old).isPrefixOf (c :: (old ++ s)) = true :=
        List.isPrefixOf_iff_prefix.mpr (List.prefix_append (c :: old) s)
      rw [List.cons_append, replace, replaceAfter, if_pos hfront, replaceAfter_eq_replace_drop]
      simp

theorem replace_cons_of_not_isPrefixOf {old new : Text} {c : Char} {s : Text}
    (h : old.isPrefixOf (c :: s) = false) :
    replace old new (c :: s) = c :: replace old new s := by
  rw [replace, replaceAfter, h]
  rfl

/-- Nothing is replaced in a text without the character that the replaced text begins with. -/
theorem replace_append_of_not_mem {c : Char} {old new w : Text} (hw : c ∉ w) (s : Text) :
    replace (c :: old) new (w ++ s) = w ++ replace (c :: old) new s := by
  induction w with
  | nil => rfl
  | cons d w ih =>
      have hd : c ≠ d := fun h => hw (h ▸ List.mem_cons_self)
      have hfront : (c :: old).isPrefixOf (d :: (w ++ s)) = false := by
        rw [List.isPrefixOf, beq_eq_false_iff_ne.mpr hd, Bool.false_and]
      rw [List.cons_append, replace_cons_of_not_isPrefixOf hfront,
        ih fun h => hw (List.mem_cons_of_mem d h), List.cons_append]

/-- A replacement that drops blanks drops blanks throughout a text. -/
theorem thins_replace {old new : Text} (hne : old ≠ []) (h : thins ' ' old new = true)
    (last : Char) (s : Text) : thins last s (replace old new s) = true := by
  induction hn : s.length using Nat.strongRecOn generalizing last s with
  | ind n ih =>
      cases s with
      | nil => rfl
      | cons c s =>
          by_cases hfront : old.isPrefixOf (c :: s) = true
          · obtain ⟨r, hr⟩ := List.isPrefixOf_iff_prefix.mp hfront
            have hlt : r.length < n := by
              have hlength := congrArg List.length hr
              rw [List.length_append, hn] at hlength
              have hpos := List.length_pos_iff.mpr hne
              omega
            rw [← hr, replace_append old new r hne]
            exact thins_append (thins_of_thins_blank h last) fun d => ih r.length hlt d r rfl
          · have hlt : s.length < n := by
              rw [← hn]
              exact Nat.lt_succ_self s.length
            rw [replace_cons_of_not_isPrefixOf ((Bool.not_eq_true _).mp hfront), thins_cons]
            exact .inl ⟨_, rfl, ih s.length hlt c s rfl⟩

/-- Every replacement drops blanks and does nothing else. -/
theorem squeezes_thin : ∀ p ∈ squeezes, p.1.toList ≠ [] ∧
    thins ' ' p.1.toList p.2.toList = true := by
  decide

/-- The first replacement is that of the two colons of a path. -/
theorem squeeze_eq (s : Text) :
    squeeze s = squeezes.tail.foldl (fun s (old, new) => replace old.toList new.toList s)
      (replace [' ', ':', ':', ' '] [':', ':'] s) := by
  have hold : [' ', ':', ':', ' '] = " :: ".toList := by decide
  have hnew : [':', ':'] = "::".toList := by decide
  have hfirst : squeezes = (" :: ", "::") :: squeezes.tail := rfl
  rw [hold, hnew, squeeze]
  conv_lhs => rw [hfirst, List.foldl_cons]

end Text

/-! ## Tokens and the gaps between them -/

/-- A token and whether a blank stands behind it. -/
structure Spaced where
  token : Token
  gap : Bool
deriving DecidableEq, Repr

namespace Spaced

/-- A text behind a token. -/
def behind (gap : Bool) (s : Text) : Text := if gap then ' ' :: s else s

/-- The tokens written out with their gaps. -/
def written : List Spaced → Text
  | [] => []
  | p :: ps => p.token.text ++ behind p.gap (written ps)

/-- Whether the gap behind the token may be closed, before what follows. -/
def closable (t : Token) (ps : List Spaced) : Bool :=
  t.text.getLast?.any Text.closesAfter ||
    ps.head?.any fun p => p.token.text.head?.any Text.closesBefore

/-- The second list is the first one with some of the gaps closed that may be. -/
inductive Tightens : List Spaced → List Spaced → Prop
  | nil : Tightens [] []
  | keep {p : Spaced} {ps qs : List Spaced} : Tightens ps qs → Tightens (p :: ps) (p :: qs)
  | close {t : Token} {ps qs : List Spaced} : closable t ps = true → Tightens ps qs →
      Tightens (⟨t, true⟩ :: ps) (⟨t, false⟩ :: qs)

namespace Tightens

theorem refl (ps : List Spaced) : Tightens ps ps := by
  induction ps with
  | nil => exact nil
  | cons p ps ih => exact keep ih

theorem tokens_eq {ps qs : List Spaced} (h : Tightens ps qs) :
    qs.map Spaced.token = ps.map Spaced.token := by
  induction h with
  | nil => rfl
  | keep _ ih => simp [ih]
  | close _ _ ih => simp [ih]

/-- Closing gaps goes from token to token. -/
theorem exists_of_cons {p : Spaced} {ps qs : List Spaced} (h : Tightens (p :: ps) qs) :
    ∃ gap rest, qs = ⟨p.token, gap⟩ :: rest ∧ (gap = true → p.gap = true) ∧ Tightens ps rest := by
  cases h with
  | keep h => exact ⟨p.gap, _, rfl, id, h⟩
  | close _ h => exact ⟨false, _, rfl, fun hgap => absurd hgap (by decide), h⟩

theorem closable_eq {ps qs : List Spaced} (h : Tightens ps qs) (t : Token) :
    closable t qs = closable t ps := by
  cases h <;> rfl

theorem trans {ps qs rs : List Spaced} (h : Tightens ps qs) (h' : Tightens qs rs) :
    Tightens ps rs := by
  induction h generalizing rs with
  | nil => exact h'
  | keep h ih =>
      cases h' with
      | keep h' => exact keep (ih h')
      | close hclosable h' => exact close (h.closable_eq _ ▸ hclosable) (ih h')
  | close hclosable h ih =>
      cases h' with
      | keep h' => exact close hclosable (ih h')

end Tightens

end Spaced

/-! ## Tokens that hold no blank -/

namespace Token

/-- Whether the token could have been read by the lexer on its own. -/
def isLexable : Token → Bool
  | punct c _ => Lexer.isPunct c
  | literal s => s == Lexer.errorMark || Literal.rest? s == some []
  | ident _ | opening _ | closing _ => true

/-- Whether squeezing leaves the token whole: it can be read, and holds no blank. -/
def isUnbroken (t : Token) : Bool := t.isLexable && !t.text.contains ' '

theorem not_mem_text_of_isUnbroken {t : Token} (h : t.isUnbroken = true) : ' ' ∉ t.text := by
  simp only [isUnbroken, Bool.and_eq_true, Bool.not_eq_true', List.contains_eq_mem,
    decide_eq_false_iff_not] at h
  exact h.2

theorem isUnbroken_ident (i : Ident) : (ident i).isUnbroken = true := by
  obtain ⟨raw, name, spelled⟩ := i
  have hword : Text.isWord name = true := (Bool.and_eq_true_iff.mp spelled).1
  have hblank : ' ' ∉ name := fun hmem =>
    absurd (Text.isWordChar_of_mem_isWord hword hmem) (by decide)
  cases raw <;> simp [isUnbroken, isLexable, text, Ident.text, hblank]

/-- A token is written with at least one character, and only punctuation begins with a punctuation
character; a single quote may also begin a literal. -/
theorem exists_text_eq_cons {t : Token} (h : t.isLexable = true) :
    ∃ c s, t.text = c :: s ∧
      (Lexer.isPunct c = true → c ≠ '\'' → ∃ joint, t = punct c joint) := by
  cases t with
  | ident i =>
      obtain ⟨c, s, hs, hc⟩ := i.exists_text_eq_cons
      refine ⟨c, s, hs, fun hpunct _ => ?_⟩
      have hword := Lexer.of_all_punctChars (!Text.isWordStart ·) (by decide) hpunct
      simp [hc] at hword
  | punct c joint => exact ⟨c, [], rfl, fun _ _ => ⟨joint, rfl⟩⟩
  | literal s =>
      simp only [isLexable, Bool.or_eq_true, beq_iff_eq] at h
      rcases h with rfl | hs
      · have herror : Lexer.errorMark = '(' :: Lexer.errorMark.tail := by decide
        exact ⟨'(', _, herror, fun hpunct => absurd hpunct (by decide)⟩
      · cases s with
        | nil => cases hs
        | cons c s =>
            refine ⟨c, s, rfl, fun hpunct hquote => ?_⟩
            rw [Lexer.rest?_of_isPunct hpunct hquote] at hs
            cases hs
  | opening d => exact ⟨d.opener, [], rfl, by cases d <;> decide⟩
  | closing d => exact ⟨d.closer, [], rfl, by cases d <;> decide⟩

end Token

namespace Spaced

/-- Whether every token is whole after squeezing. -/
def Unbroken (ps : List Spaced) : Prop := ∀ p ∈ ps, p.token.isUnbroken = true

theorem Unbroken.tail {p : Spaced} {ps : List Spaced} (h : Unbroken (p :: ps)) : Unbroken ps :=
  fun q hq => h q (List.mem_cons_of_mem p hq)

theorem Unbroken.text_eq {p : Spaced} {ps : List Spaced} (h : Unbroken (p :: ps)) :
    ∃ c s, p.token.text = c :: s ∧ c ≠ ' ' ∧
      (Lexer.isPunct c = true → c ≠ '\'' → ∃ joint, p.token = .punct c joint) := by
  have hp := h p List.mem_cons_self
  obtain ⟨c, s, hs, hpunct⟩ := Token.exists_text_eq_cons (Bool.and_eq_true_iff.mp hp).1
  refine ⟨c, s, hs, ?_, hpunct⟩
  rintro rfl
  exact Token.not_mem_text_of_isUnbroken hp (hs ▸ List.mem_cons_self)

theorem Tightens.unbroken {ps qs : List Spaced} (h : Tightens ps qs) (hps : Unbroken ps) :
    Unbroken qs := by
  intro q hq
  have htoken : q.token ∈ ps.map Spaced.token := h.tokens_eq ▸ List.mem_map_of_mem hq
  obtain ⟨p, hp, heq⟩ := List.mem_map.mp htoken
  exact heq ▸ hps p hp

theorem head?_written {ps : List Spaced} (h : Unbroken ps) :
    (written ps).head? = ps.head?.bind fun p => p.token.text.head? := by
  cases ps with
  | nil => rfl
  | cons p ps =>
      obtain ⟨c, s, hs, -⟩ := h.text_eq
      simp [written, hs]

/-- A written text does not begin with a gap. -/
theorem written_ne_blank_cons {ps : List Spaced} (hps : Unbroken ps) (s : Text) :
    written ps ≠ ' ' :: s := by
  intro heq
  cases ps with
  | nil => cases heq
  | cons p ps =>
      obtain ⟨c, w, hw, hblank, -⟩ := hps.text_eq
      rw [written, hw, List.cons_append, List.cons.injEq] at heq
      exact hblank heq.1

/-- Dropping blanks from a written text closes gaps. -/
theorem exists_tightens_of_thins {ps : List Spaced} (hps : Unbroken ps) {last : Char} {s : Text}
    (h : Text.thins last (written ps) s = true) : ∃ qs, s = written qs ∧ Tightens ps qs := by
  induction ps generalizing last s with
  | nil => exact ⟨[], List.isEmpty_iff.mp h, .nil⟩
  | cons p ps ih =>
      obtain ⟨t, gap⟩ := p
      have hblank := Token.not_mem_text_of_isUnbroken (hps ⟨t, gap⟩ List.mem_cons_self)
      obtain ⟨r, rfl, hr⟩ := (Text.thins_append_iff_of_not_mem hblank).mp h
      cases gap with
      | false =>
          obtain ⟨qs, rfl, hqs⟩ := ih hps.tail hr
          exact ⟨⟨t, false⟩ :: qs, rfl, .keep hqs⟩
      | true =>
          rcases Text.thins_cons.mp hr with ⟨r', rfl, hr'⟩ | ⟨-, hnear, hr'⟩
          · obtain ⟨qs, rfl, hqs⟩ := ih hps.tail hr'
            exact ⟨⟨t, true⟩ :: qs, rfl, .keep hqs⟩
          · obtain ⟨qs, rfl, hqs⟩ := ih hps.tail hr'
            refine ⟨⟨t, false⟩ :: qs, rfl, .close ?_ hqs⟩
            obtain ⟨c, w, hw, -⟩ := hps.text_eq
            rw [closable]
            rw [head?_written hps.tail] at hnear
            simp only at hw
            rw [hw, List.getLast?_cons] at hnear ⊢
            simp only [Option.getD_some, Option.any_some] at hnear ⊢
            cases ps <;> exact hnear

theorem exists_tightens_replace {old new : Text} (hne : old ≠ [])
    (hthin : Text.thins ' ' old new = true) {ps : List Spaced} (hps : Unbroken ps) :
    ∃ qs, Text.replace old new (written ps) = written qs ∧ Tightens ps qs :=
  exists_tightens_of_thins hps (Text.thins_replace hne hthin ' ' (written ps))

/-- A list of replacements that drop blanks closes gaps. -/
theorem exists_tightens_foldl (old : List (String × String))
    (hold : ∀ p ∈ old, p.1.toList ≠ [] ∧ Text.thins ' ' p.1.toList p.2.toList = true)
    {ps : List Spaced} (hps : Unbroken ps) :
    ∃ qs, old.foldl (fun s (old, new) => Text.replace old.toList new.toList s) (written ps) =
      written qs ∧ Tightens ps qs := by
  induction old generalizing ps with
  | nil => exact ⟨ps, rfl, .refl ps⟩
  | cons p old ih =>
      obtain ⟨hne, hthin⟩ := hold p List.mem_cons_self
      obtain ⟨rs, hrs, hpr⟩ := exists_tightens_replace hne hthin hps
      obtain ⟨qs, hqs, hrq⟩ := ih (fun q hq => hold q (List.mem_cons_of_mem p hq))
        (hpr.unbroken hps)
      refine ⟨qs, ?_, hpr.trans hrq⟩
      rw [List.foldl_cons, ← hqs, ← hrs]

/-! ## Gaps before two colons -/

/-- Whether the two colons of a path stand here, with a gap behind them. -/
def startsRoot : List Spaced → Bool
  | ⟨.punct ':' _, false⟩ :: ⟨.punct ':' _, true⟩ :: _ => true
  | _ => false

/-- The second list has no gap before the colons of a path in the first one. -/
def ClosesRoots : List Spaced → List Spaced → Prop
  | _ :: ps, q :: qs => (startsRoot ps = true → q.gap = false) ∧ ClosesRoots ps qs
  | _, _ => True

theorem ClosesRoots.tightens {ps qs rs : List Spaced} (h : ClosesRoots ps qs)
    (hqr : Tightens qs rs) : ClosesRoots ps rs := by
  induction hqr generalizing ps with
  | nil => exact h
  | keep _ ih =>
      cases ps with
      | nil => trivial
      | cons p ps => exact ⟨h.1, ih h.2⟩
  | close _ _ ih =>
      cases ps with
      | nil => trivial
      | cons p ps => exact ⟨fun _ => rfl, ih h.2⟩

theorem startsRoot_eq_true {ps : List Spaced} (h : startsRoot ps = true) :
    ∃ joint joint' rest,
      ps = ⟨.punct ':' joint, false⟩ :: ⟨.punct ':' joint', true⟩ :: rest := by
  rw [startsRoot.eq_def] at h
  split at h
  · exact ⟨_, _, _, rfl⟩
  · cases h

/-- The colons of a path are seen in the text. -/
theorem startsRoot_of_isPrefixOf {ps : List Spaced} (hps : Unbroken ps)
    (h : [':', ':', ' '].isPrefixOf (written ps) = true) : startsRoot ps = true := by
  -- a token that begins with a colon is one, and the next character tells whether a gap follows it
  have hcolon : ∀ {qs : List Spaced} {s : Text}, Unbroken qs → written qs = ':' :: s →
      ∃ joint gap rest, qs = ⟨.punct ':' joint, gap⟩ :: rest ∧ behind gap (written rest) = s := by
    intro qs s hqs hs
    cases qs with
    | nil => cases hs
    | cons q qs =>
        obtain ⟨c, w, hw, -, hc⟩ := hqs.text_eq
        rw [written, hw, List.cons_append, List.cons.injEq] at hs
        obtain ⟨joint, hjoint⟩ := hc (by rw [hs.1]; decide) (by rw [hs.1]; decide)
        rw [hs.1] at hjoint
        refine ⟨joint, q.gap, qs, ?_, ?_⟩
        · rw [← hjoint]
        · rw [hjoint] at hw
          obtain ⟨-, rfl⟩ := List.cons.inj hw
          exact hs.2
  obtain ⟨rest, hrest⟩ := List.isPrefixOf_iff_prefix.mp h
  obtain ⟨joint, gap, qs, rfl, hqs⟩ := hcolon hps hrest.symm
  cases gap with
  | true => cases hqs
  | false =>
      obtain ⟨joint', gap', rs, rfl, hrs⟩ := hcolon hps.tail hqs
      cases gap' with
      | true => rfl
      | false =>
          exact absurd hrs (written_ne_blank_cons hps.tail.tail rest)

/-- The first replacement closes the gaps on both sides of the colons of a path. -/
theorem closesRoots_replace {ps qs : List Spaced} (hps : Unbroken ps) (htight : Tightens ps qs)
    (h : Text.replace [' ', ':', ':', ' '] [':', ':'] (written ps) = written qs) :
    ClosesRoots ps qs := by
  induction hn : ps.length using Nat.strongRecOn generalizing ps qs with
  | ind n ih =>
      cases ps with
      | nil => trivial
      | cons p ps =>
          obtain ⟨gap, rest, rfl, hgap, hrest⟩ := htight.exists_of_cons
          have hlt : ps.length < n := by simp [← hn]
          have hblank := Token.not_mem_text_of_isUnbroken (hps p List.mem_cons_self)
          rw [written, written, Text.replace_append_of_not_mem hblank,
            List.append_cancel_left_eq] at h
          obtain ⟨t, pgap⟩ := p
          cases pgap with
          | false =>
              cases gap with
              | true => exact absurd (hgap rfl) Bool.false_ne_true
              | false => exact ⟨fun _ => rfl, ih ps.length hlt hps.tail hrest h rfl⟩
          | true =>
              by_cases hroot : startsRoot ps = true
              · -- the gaps on both sides of the colons are part of the piece that is replaced
                obtain ⟨joint, joint', ps, rfl⟩ := startsRoot_eq_true hroot
                obtain ⟨gap₁, rest, rfl, hgap₁, hrest₁⟩ := hrest.exists_of_cons
                obtain ⟨gap₂, rest, rfl, -, hrest₂⟩ := hrest₁.exists_of_cons
                have hpiece : behind true (written (⟨.punct ':' joint, false⟩ ::
                    ⟨.punct ':' joint', true⟩ :: ps)) = [' ', ':', ':', ' '] ++ written ps := rfl
                rw [hpiece, Text.replace_append _ _ _ (by decide)] at h
                have hthin : Text.thins ' ' [' ', ':', ':', ' '] [':', ':'] = true := by decide
                obtain ⟨rs, hrs, hpr⟩ :=
                  exists_tightens_replace (by decide) hthin hps.tail.tail.tail
                rw [hrs] at h
                cases gap with
                | true => cases h
                | false =>
                    cases gap₁ with
                    | true => exact absurd (hgap₁ rfl) Bool.false_ne_true
                    | false =>
                        have hbehind : written rs = behind gap₂ (written rest) := by
                          simpa [written, behind, Token.text] using h
                        cases gap₂ with
                        | true =>
                            exact absurd hbehind
                              (written_ne_blank_cons (hpr.unbroken hps.tail.tail.tail) _)
                        | false =>
                            have hshort : ps.length < n := by
                              simp only [List.length_cons] at hlt
                              omega
                            exact ⟨fun _ => rfl, fun _ => rfl, fun _ => rfl,
                              ih ps.length hshort hps.tail.tail.tail hrest₂ (hrs.trans hbehind) rfl⟩
              · have hfront : [' ', ':', ':', ' '].isPrefixOf (' ' :: written ps) = false := by
                  by_contra hc
                  rw [Bool.not_eq_false] at hc
                  exact hroot
                    (startsRoot_of_isPrefixOf hps.tail (by simpa [List.isPrefixOf] using hc))
                rw [show behind true (written ps) = ' ' :: written ps from rfl,
                  Text.replace_cons_of_not_isPrefixOf hfront] at h
                cases gap with
                | false =>
                    exact absurd h.symm (written_ne_blank_cons (hrest.unbroken hps.tail) _)
                | true =>
                    exact ⟨fun hc => absurd hc hroot,
                      ih ps.length hlt hps.tail hrest (List.cons.inj h).2 rfl⟩

end Spaced

namespace Tokens

/-- The tokens with the gaps that the plain spelling puts between them. -/
def spaced : Tokens → List Spaced
  | [] => []
  | [t] => [⟨t, false⟩]
  | t :: u :: rest => ⟨t, t.apart u⟩ :: spaced (u :: rest)

theorem written_spaced (ts : Tokens) : Spaced.written ts.spaced = ts.text := by
  fun_induction spaced ts with
  | case1 => rfl
  | case2 t => simp [Spaced.written, Spaced.behind, text]
  | case3 t u rest ih => rw [Spaced.written, ih, text, Spaced.behind]

@[simp] theorem map_token_spaced (ts : Tokens) : ts.spaced.map Spaced.token = ts := by
  fun_induction spaced ts with
  | case1 => rfl
  | case2 t => rfl
  | case3 t u rest ih => rw [List.map_cons, ih]

theorem unbroken_spaced {ts : Tokens} (h : ∀ t ∈ ts, t.isUnbroken = true) :
    Spaced.Unbroken ts.spaced := by
  intro p hp
  exact h p.token (map_token_spaced ts ▸ List.mem_map_of_mem hp)

/-- **Squeezing only closes gaps.** Tokens that hold no blank are still written one after the other
in compact text. Each gap that is missing there was next to a character that closes it, and no gap
is left before the colons of a path. -/
theorem exists_tightens_compact {ts : Tokens} (h : ∀ t ∈ ts, t.isUnbroken = true) :
    ∃ qs, ts.compact = Spaced.written qs ∧ Spaced.Tightens ts.spaced qs ∧
      Spaced.ClosesRoots ts.spaced qs := by
  have hthin : Text.thins ' ' [' ', ':', ':', ' '] [':', ':'] = true := by decide
  have hps := unbroken_spaced h
  obtain ⟨rs, hrs, hpr⟩ := Spaced.exists_tightens_replace (by decide) hthin hps
  obtain ⟨qs, hqs, hrq⟩ := Spaced.exists_tightens_foldl squeezes.tail
    (fun p hp => Text.squeezes_thin p (List.mem_of_mem_tail hp)) (hpr.unbroken hps)
  refine ⟨qs, ?_, hpr.trans hrq, (Spaced.closesRoots_replace hps hpr hrs).tightens hrq⟩
  rw [compact, Text.squeeze_eq, ← written_spaced, hrs, hqs]

end Tokens

end EnumTags

import EnumTags.Proofs.Relexing
import EnumTags.Proofs.WholeLiterals

/-!
# Compact text of source

The lexer takes at least one character in each step, so it never runs out of fuel. It decides what a
token is with a look at what stands behind it, and remembers of the blanks only whether punctuation
is joint. That is enough to write its tokens down again: whatever it reads is linked as
`Tokens.sound` asks, so that compact text of it is source for the same tokens. Only a literal with a
blank in it may be changed, since squeezing does not spare literals.

## Main results

* `Lexer.scans_of_lexes`: the lexer has fuel enough for whatever it can read step by step.
* `Lexer.Lexes.sound`: what the lexer reads is whole and linked, unless a literal holds a blank.
* `lex?_compact_of_lex?`: compact text of source is source for the same tokens.
-/

namespace EnumTags

/-! ## What is left behind a comment -/

namespace Trivia

theorem length_splitLine_le (s : Text) : (splitLine s).2.length ≤ s.length := by
  fun_induction splitLine s with
  | case1 => simp
  | case2 => simp
  | case3 => simp
  | case4 c rest _ _ line rest' hsplit ih =>
      simp [hsplit] at ih ⊢
      omega

theorem length_lt_of_splitBlock {depth : Nat} {s : Text} {p : Text × Text}
    (h : splitBlock depth s = some p) : p.2.length < s.length := by
  fun_induction splitBlock depth s generalizing p with
  | case1 => cases h
  | case2 rest =>
      obtain rfl := Option.some.inj h
      simp only [List.length_cons]
      omega
  | case3 depth rest ih | case4 depth rest ih | case5 depth c rest _ _ _ ih =>
      obtain ⟨q, hq, rfl⟩ := Option.map_eq_some_iff.mp h
      have hlt := ih hq
      simp only [List.length_cons]
      omega

/-- What is left behind a comment. -/
def Comment.rest : Comment → Text
  | plain rest => rest
  | doc _ rest => rest

theorem rest_of_docComment {inner : Bool} {p : Text × Text} {x : Comment}
    (h : docComment inner p = some x) : x.rest = p.2 := by
  rw [docComment] at h
  split at h
  · cases h
  · obtain rfl := Option.some.inj h
    rfl

theorem length_lt_of_comment? {s : Text} {x : Comment} (h : comment? s = some x) :
    x.rest.length < s.length := by
  rw [comment?.eq_def] at h
  split at h
  case h_1 rest | h_3 rest _ =>
      have hle := length_splitLine_le rest
      rw [rest_of_docComment h]
      simp only [List.length_cons]
      omega
  case h_2 rest | h_4 rest _ _ _ =>
      have hle := length_splitLine_le rest
      obtain rfl := Option.some.inj h
      simp only [Comment.rest, List.length_cons]
      omega
  case h_5 rest =>
      obtain rfl := Option.some.inj h
      simp only [Comment.rest, List.length_cons]
      omega
  case h_6 rest | h_9 rest _ _ =>
      obtain ⟨p, hp, rfl⟩ := Option.map_eq_some_iff.mp h
      have hlt := length_lt_of_splitBlock hp
      simp only [Comment.rest, List.length_cons] at hlt ⊢
      omega
  case h_7 rest _ _ | h_8 rest =>
      obtain ⟨p, hp, hdoc⟩ := Option.bind_eq_some_iff.mp h
      have hlt := length_lt_of_splitBlock hp
      rw [rest_of_docComment hdoc]
      simp only [List.length_cons]
      omega
  case h_10 => cases h

end Trivia

namespace Lexer

/-! ## What one step reads -/

/-- What the lexer can take as a leaf: the text it takes it from, the token, and what is left. -/
inductive Leaf : Text → Token → Text → Prop
  | literal {u rest : Text} : Literal.rest? u = some [] → Leaf (u ++ rest) (.literal u) rest
  | quote {rest : Text} : startsLifetime rest = true → Leaf ('\'' :: rest) (.punct '\'' true) rest
  | punct {c : Char} {rest : Text} : c ≠ '\'' → startsPunct (c :: rest) = true →
      Leaf (c :: rest) (.punct c (startsPunct rest)) rest
  | ident {c : Char} {s rest : Text} (i : Ident) : Text.isWordStart c = true →
      Leaf (c :: s) (.ident i) rest

/-- The text in front of what is left is the spelling of the identifier. -/
theorem eq_append_of_wordIdent? {raw : Bool} {s rest : Text} {i : Ident}
    (h : wordIdent? raw s = some (i, rest)) : i.raw = raw ∧ s = i.name ++ rest := by
  cases s with
  | nil => cases h
  | cons c s =>
      simp only [wordIdent?, Option.dite_none_right_eq_some, Option.some.injEq, Prod.mk.injEq] at h
      obtain ⟨-, rfl, rfl⟩ := h
      exact ⟨rfl, by rw [List.cons_append, List.takeWhile_append_dropWhile]⟩

theorem eq_append_of_anyIdent? {s rest : Text} {i : Ident} (h : anyIdent? s = some (i, rest)) :
    s = i.text ++ rest := by
  rw [anyIdent?.eq_def] at h
  split at h
  · obtain ⟨hraw, hs⟩ := eq_append_of_wordIdent? h
    simp only [Ident.text, hraw, if_true, hs, List.cons_append]
  · obtain ⟨hraw, hs⟩ := eq_append_of_wordIdent? h
    simpa only [Ident.text, hraw, Bool.false_eq_true, if_false] using hs

/-- Every leaf is one of these, and takes at least one character. -/
theorem leaf_of_leaf? {s rest : Text} {t : Token} (h : leaf? s = some (t, rest)) :
    Leaf s t rest ∧ rest.length < s.length := by
  rw [leaf?] at h
  split at h
  · rename_i r hliteral
    obtain ⟨u, rfl, hu⟩ := Literal.exists_of_rest? hliteral
    simp only [List.length_append, Nat.add_sub_cancel, List.take_left, Option.some.injEq,
      Prod.mk.injEq] at h
    obtain ⟨rfl, rfl⟩ := h
    refine ⟨.literal hu, ?_⟩
    have hpos : 0 < u.length := by
      refine List.length_pos_iff.mpr ?_
      rintro rfl
      cases hu
    rw [List.length_append]
    omega
  · split at h
    · rename_i found hpunct
      rw [punct?.eq_def] at hpunct
      split at hpunct
      · cases hpunct
      · rename_i c s
        split_ifs at hpunct with hstarts hquote hlifetime
        · obtain rfl := Option.some.inj hpunct
          obtain ⟨rfl, rfl⟩ := Prod.mk.inj (Option.some.inj h)
          rw [beq_iff_eq.mp hquote]
          exact ⟨.quote hlifetime, Nat.lt_succ_self _⟩
        · obtain rfl := Option.some.inj hpunct
          obtain ⟨rfl, rfl⟩ := Prod.mk.inj (Option.some.inj h)
          exact ⟨.punct (by simpa using hquote) (by simpa using hstarts), Nat.lt_succ_self _⟩
    · obtain ⟨⟨i, r⟩, hident, heq⟩ := Option.map_eq_some_iff.mp h
      obtain ⟨rfl, rfl⟩ := Prod.mk.inj heq
      rw [ident?] at hident
      split at hident
      · cases hident
      · obtain ⟨c, name, htext, hstart⟩ := i.exists_text_eq_cons
        rw [eq_append_of_anyIdent? hident, htext]
        refine ⟨.ident i hstart, ?_⟩
        rw [List.length_append, List.length_cons]
        omega

/-- What one step of the lexer can do. -/
inductive Piece : Text → Tokens → Text → Prop
  | gap {s rest : Text} : Piece s [] rest
  | doc {s rest : Text} (d : Trivia.Doc) : Piece s (docTokens d) rest
  | mark {s rest : Text} : Piece s [.literal errorMark] rest
  | bracket {c : Char} {t : Token} {s rest : Text} : bracket? c = some t → Piece s [t] rest
  | leaf {s rest : Text} {t : Token} : Leaf s t rest → Piece s [t] rest

/-- Every step reads one of these pieces, and takes at least one character. -/
theorem piece_of_step {s rest : Text} {ts : Tokens} (h : step s = some (ts, rest)) :
    Piece s ts rest ∧ rest.length < s.length := by
  cases s with
  | nil => cases h
  | cons c s =>
      rw [step] at h
      split at h
      · obtain ⟨rfl, rfl⟩ := Prod.mk.inj (Option.some.inj h)
        exact ⟨.gap, Nat.lt_succ_self _⟩
      · split at h
        · rename_i r hcomment
          obtain ⟨rfl, rfl⟩ := Prod.mk.inj (Option.some.inj h)
          exact ⟨.gap, Trivia.length_lt_of_comment? hcomment⟩
        · rename_i d r hcomment
          obtain ⟨rfl, rfl⟩ := Prod.mk.inj (Option.some.inj h)
          exact ⟨.doc d, Trivia.length_lt_of_comment? hcomment⟩
        · split at h
          · obtain ⟨rfl, rfl⟩ := Prod.mk.inj (Option.some.inj h)
            have hmark : 0 < errorMark.length := by decide
            refine ⟨.mark, ?_⟩
            simp only [List.length_drop, List.length_cons]
            omega
          · split at h
            · rename_i t hbracket
              obtain ⟨rfl, rfl⟩ := Prod.mk.inj (Option.some.inj h)
              exact ⟨.bracket hbracket, Nat.lt_succ_self _⟩
            · obtain ⟨⟨t, r⟩, hfound, heq⟩ := Option.map_eq_some_iff.mp h
              obtain ⟨rfl, rfl⟩ := Prod.mk.inj heq
              obtain ⟨hleaf, hlt⟩ := leaf_of_leaf? hfound
              exact ⟨.leaf hleaf, hlt⟩

/-! ## Whole runs -/

/-- The text is read to these tokens, step by step. -/
inductive Lexes : Text → Tokens → Prop
  | nil : Lexes [] []
  | cons {s rest : Text} {ts us : Tokens} : step s = some (ts, rest) → Lexes rest us →
      Lexes s (ts ++ us)

theorem lexes_of_scan {fuel : Nat} {at_ : Position} {s : Text} {ls : List Lexeme}
    (h : scan fuel at_ s = some ls) : Lexes s (Lexeme.tokens ls) := by
  induction fuel generalizing at_ s ls with
  | zero =>
      cases s with
      | nil =>
          obtain rfl := Option.some.inj h
          exact .nil
      | cons c s => cases h
  | succ fuel ih =>
      cases s with
      | nil =>
          obtain rfl := Option.some.inj h
          exact .nil
      | cons c s =>
          rw [scan] at h
          · split at h
            · cases h
            · rename_i ts rest hstep
              obtain ⟨ls', hls, rfl⟩ := Option.map_eq_some_iff.mp h
              have htokens : Lexeme.tokens (ts.map (fun t => (⟨t, ⟨at_, at_.after
                  ((c :: s).take ((c :: s).length - rest.length))⟩⟩ : Lexeme)) ++ ls') =
                  ts ++ Lexeme.tokens ls' := by
                simp [Lexeme.tokens, Function.comp_def]
              rw [htokens]
              exact .cons hstep (ih hls)
          · exact List.cons_ne_nil c s

/-! ### Fuel -/

/-- **The fuel never runs out**: what can be read step by step is read with as much fuel as there
are characters, from wherever the text stands. -/
theorem scans_of_lexes {s : Text} {ts : Tokens} (h : Lexes s ts) : Scans s ts := by
  induction h with
  | nil => exact scans_nil
  | cons hstep _ ih => exact .of_step hstep (piece_of_step hstep).2 ih

namespace Lexes

/-- Where a leaf begins, the first token is one. -/
theorem exists_leaf {s : Text} {ts : Tokens} (h : Lexes s ts) (hne : s ≠ [])
    (hleaf : step s = (leaf? s).map fun (t, rest) => ([t], rest)) :
    ∃ t us rest, ts = t :: us ∧ Leaf s t rest := by
  cases h with
  | nil => exact absurd rfl hne
  | cons hstep _ =>
      rw [hleaf] at hstep
      obtain ⟨⟨t, r⟩, hfound, heq⟩ := Option.map_eq_some_iff.mp hstep
      obtain ⟨rfl, rfl⟩ := Prod.mk.inj heq
      exact ⟨t, _, r, rfl, (leaf_of_leaf? hfound).1⟩

/-- What is read where punctuation stands fits behind a joint character. -/
theorem followsJoint {c : Char} {s : Text} {ts : Tokens} (h : Lexes s ts)
    (hfirst : startsPunct (c :: s) = true) (hs : startsPunct s = true) :
    ts.head?.any (Token.followsJoint c) = true := by
  cases s with
  | nil => cases hs
  | cons d s =>
      obtain ⟨hd, hcomment⟩ : isPunct d = true ∧ Trivia.startsComment (d :: s) = false := by
        simpa [startsPunct] using hs
      obtain ⟨t, us, rest, rfl, ht⟩ :=
        h.exists_leaf (List.cons_ne_nil d s) (step_of_isPunct hd hcomment)
      have hpair : ∀ joint, (Token.punct d joint).followsJoint c = true := by
        intro joint
        simp only [Token.followsJoint, Bool.not_eq_true', Bool.and_eq_false_imp, beq_iff_eq,
          Bool.or_eq_false_iff, beq_eq_false_iff_ne]
        rintro rfl
        constructor <;> rintro rfl <;> cases hfirst
      generalize hw : d :: s = w at ht
      cases ht with
      | @literal u rest hu =>
          cases u with
          | nil => cases hu
          | cons e u =>
              obtain ⟨rfl, -⟩ := List.cons.inj hw
              by_cases hquote : d = '\''
              · simp [Token.followsJoint, hquote]
              · rw [rest?_of_isPunct hd hquote] at hu
                cases hu
      | quote _ =>
          obtain ⟨rfl, -⟩ := List.cons.inj hw
          exact hpair true
      | @punct _ rest _ _ =>
          obtain ⟨rfl, -⟩ := List.cons.inj hw
          exact hpair (startsPunct rest)
      | ident i hstart =>
          obtain ⟨rfl, -⟩ := List.cons.inj hw
          have hnot := of_all_punctChars (!Text.isWordStart ·) (by decide) hd
          simp [hstart] at hnot

/-- What is read where a lifetime name stands fits behind its quote. -/
theorem followsQuote {s : Text} {ts : Tokens} (h : Lexes s ts) (hs : startsLifetime s = true) :
    ts.head?.any Token.followsQuote = true := by
  cases s with
  | nil => cases hs
  | cons c s =>
      have hstart : Text.isWordStart c = true := by
        by_contra hc
        rw [startsLifetime, anyIdent?_of_not_isWordStart ((Bool.not_eq_true _).mp hc)] at hs
        cases hs
      obtain ⟨t, us, rest, rfl, ht⟩ :=
        h.exists_leaf (List.cons_ne_nil c s) (step_of_isWordStart hstart s)
      generalize hw : c :: s = w at ht
      cases ht with
      | literal hu =>
          rw [hw, startsLifetime_append hu] at hs
          exact hs
      | quote _ =>
          obtain ⟨rfl, -⟩ := List.cons.inj hw
          exact absurd hstart (by decide)
      | @punct d rest _ hpunct =>
          obtain ⟨rfl, -⟩ := List.cons.inj hw
          simp only [startsPunct, List.head?_cons, Option.any_some, Bool.and_eq_true] at hpunct
          have hnot := of_all_punctChars (!Text.isWordStart ·) (by decide) hpunct.1
          simp [hstart] at hnot
      | ident i _ => rfl

end Lexes

/-! ## Linked tokens -/

theorem sound_singleton {t : Token} (ht : t.isUnbroken = true) (hlinked : t.linked none = true) :
    Tokens.sound [t] = true := by
  simp [Tokens.sound, ht, hlinked]

theorem sound_literal {u : Text} (hu : (Token.literal u).isLexable = true) (h : ' ' ∉ u) :
    Tokens.sound [.literal u] = true := by
  refine sound_singleton ?_ rfl
  simp [Token.isUnbroken, hu, Token.text, h]

theorem sound_bracket {c : Char} {t : Token} (h : bracket? c = some t) :
    Tokens.sound [t] = true := by
  rw [bracket?.eq_def] at h
  split at h <;> cases h <;> decide

theorem sound_docTokens {d : Trivia.Doc} (h : ' ' ∉ Text.quote d.body) :
    (docTokens d).sound = true := by
  have hparts : docTokens d =
      (Token.punct '#' false :: if d.inner then [Token.punct '!' false] else []) ++
        ([Token.opening .bracket, Token.ident (.plain "doc"), Token.punct '=' false] ++
          ([Token.literal (Text.quote d.body)] ++ [Token.closing .bracket])) := by
    simp [docTokens, Tokens.enclose, Tokens.word]
  have hmarks : Tokens.sound (.punct '#' false ::
      if d.inner then [.punct '!' false] else []) = true := by
    cases d.inner <;> decide
  have hopen : Tokens.sound [.opening .bracket, .ident (.plain "doc"), .punct '=' false] =
      true := by decide +kernel
  have hbody := sound_literal (by simp [Token.isLexable, Literal.rest?_quote]) h
  have hclose : Tokens.sound [.closing .bracket] = true := by decide
  rw [hparts]
  exact Tokens.sound_append hmarks (Tokens.sound_append hopen (Tokens.sound_append hbody hclose))

/-- A leaf is whole and linked with what is read behind it. -/
theorem Leaf.sound_cons {s rest : Text} {t : Token} {us : Tokens} (h : Leaf s t rest)
    (hblank : ∀ u, t = .literal u → ' ' ∉ u) (hrest : Lexes rest us) (hus : us.sound = true) :
    Tokens.sound (t :: us) = true := by
  cases h with
  | @literal u _ hu =>
      exact Tokens.sound_append (sound_literal (by simp [Token.isLexable, hu]) (hblank u rfl)) hus
  | quote hlifetime =>
      have hquote : (Token.punct '\'' true).isUnbroken = true := by decide
      have hlinked : (Token.punct '\'' true).linked us.head? = true := hrest.followsQuote hlifetime
      simp [Tokens.sound, hquote, hlinked, hus]
  | @punct c _ hne hstarts =>
      have hpunct : isPunct c = true := by
        simp only [startsPunct, List.head?_cons, Option.any_some, Bool.and_eq_true] at hstarts
        exact hstarts.1
      have hunbroken : (Token.punct c (startsPunct rest)).isUnbroken = true := by
        have hblank := of_all_punctChars (· != ' ') (by decide) hpunct
        simp [Token.isUnbroken, Token.isLexable, Token.text, hpunct, bne_iff_ne.mp hblank,
          Ne.symm]
      have hlinked : (Token.punct c (startsPunct rest)).linked us.head? = true := by
        rw [Token.linked, if_neg (by simpa using hne)]
        cases hjoint : startsPunct rest with
        | false => rfl
        | true => exact hrest.followsJoint hstarts hjoint
      simp only [Tokens.sound, hunbroken, hlinked, hus, Bool.and_self]
  | ident i _ => exact Tokens.sound_append (sound_singleton (Token.isUnbroken_ident i) rfl) hus

/-- **What the lexer reads is whole and linked**, unless a literal holds a blank. -/
theorem Lexes.sound {s : Text} {ts : Tokens} (h : Lexes s ts)
    (hblank : ∀ u, .literal u ∈ ts → ' ' ∉ u) : ts.sound = true := by
  induction h with
  | nil => rfl
  | @cons s rest ts us hstep hrest ih =>
      have hus := ih fun u hu => hblank u (List.mem_append_right ts hu)
      have hts : ∀ u, .literal u ∈ ts → ' ' ∉ u := fun u hu =>
        hblank u (List.mem_append_left us hu)
      cases (piece_of_step hstep).1 with
      | gap => exact hus
      | doc d =>
          have hbody := hts (Text.quote d.body) (by simp [docTokens, Tokens.enclose])
          exact Tokens.sound_append (sound_docTokens hbody) hus
      | mark => exact Tokens.sound_append (by decide) hus
      | bracket hbracket => exact Tokens.sound_append (sound_bracket hbracket) hus
      | leaf hleaf =>
          exact hleaf.sound_cons (fun u hu => hts u (hu ▸ List.mem_singleton_self _)) hrest hus

end Lexer

/-! ## Compact text -/

/-- The token without what is known of the blank behind it. -/
def Token.alone : Token → Token
  | punct c _ => punct c false
  | t => t

theorem Glued.map_alone {ts us : Tokens} (h : Glued ts us) :
    us.map Token.alone = ts.map Token.alone := by
  induction h with
  | nil => rfl
  | @cons t u ts us hglues _ _ ih =>
      rw [List.map_cons, List.map_cons, ih]
      congr 1
      cases t with
      | punct c joint =>
          cases u with
          | punct d joint' =>
              simp only [Token.glues, Bool.and_eq_true, beq_iff_eq] at hglues
              rw [Token.alone, Token.alone, hglues.1]
          | ident i | literal s | opening d | closing d => cases hglues
      | ident i | literal s | opening d | closing d => rw [beq_iff_eq.mp hglues]

/-- Source is read step by step behind its byte order mark. -/
theorem lexes_of_lex? {source : Text} {ls : List Lexeme} (h : lex? source = some ls) :
    Lexer.Lexes (Lexer.passMark source).2 (Lexeme.tokens ls) ∧
      Lexer.balanced [] (Lexeme.tokens ls) = true := by
  simp only [lex?] at h
  split at h
  · rename_i ls' hscan
    split at h
    · rename_i hbalanced
      obtain rfl := Option.some.inj h
      exact ⟨Lexer.lexes_of_scan hscan, hbalanced⟩
    · cases h
  · cases h

/-- **Compact text of source is source for the same tokens**, if no literal holds a blank. Only
which punctuation is joint may change. -/
theorem lex?_compact_of_lex? {source : Text} {ls : List Lexeme} (h : lex? source = some ls)
    (hblank : ∀ u, .literal u ∈ Lexeme.tokens ls → ' ' ∉ u) :
    ∃ ls', lex? (Lexeme.tokens ls).compact = some ls' ∧
      (Lexeme.tokens ls').map Token.alone = (Lexeme.tokens ls).map Token.alone := by
  obtain ⟨hlexes, hbalanced⟩ := lexes_of_lex? h
  obtain ⟨ls', hls, hglued⟩ := Tokens.exists_lex?_compact (hlexes.sound hblank) hbalanced
  exact ⟨ls', hls, hglued.map_alone⟩

/-- Source with documentation, a lifetime, a path with blanks around its colons, and a slash before
a star. -/
def blankedSource : Text := "///x\n& 'a B :: C / * 1"

/-- The tokens of that source. -/
def blankedTokens : Tokens :=
  Lexer.docTokens ⟨false, "x"⟩ ++
    [.punct '&' false, .punct '\'' true, .ident (.plain "a"), .ident (.plain "B"), .punct ':' true,
      .punct ':' false, .ident (.plain "C"), .punct '/' false, .punct '*' false, .literal "1"]

theorem lex?_compact_blankedTokens :
    ∃ ls ls', lex? blankedSource = some ls ∧ Lexeme.tokens ls = blankedTokens ∧
      blankedTokens.compact = "# [doc = \"x\"] &'a B::C / * 1" ∧
      lex? blankedTokens.compact = some ls' ∧
      (Lexeme.tokens ls').map Token.alone = blankedTokens.map Token.alone := by
  have hsource : (lex? blankedSource).map Lexeme.tokens = some blankedTokens := by decide +kernel
  obtain ⟨ls, hls, htokens⟩ := Option.map_eq_some_iff.mp hsource
  have hall : blankedTokens.all Token.isUnbroken = true := by decide +kernel
  have hblank : ∀ u, .literal u ∈ Lexeme.tokens ls → ' ' ∉ u := by
    intro u hu
    rw [htokens] at hu
    exact Token.not_mem_text_of_isUnbroken (List.all_eq_true.mp hall _ hu)
  obtain ⟨ls', hls', halone⟩ := lex?_compact_of_lex? hls hblank
  rw [htokens] at hls' halone
  exact ⟨ls, ls', hls, htokens, by decide +kernel, hls', halone⟩

end EnumTags

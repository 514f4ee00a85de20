import EnumTags.Grammar.Reader
import EnumTags.Proofs.Relexing

/-!
# What a parser reads from glued tokens

`Reads p ts ok a us` says all that a parser does on lexemes that spell `ts`, some of which may have
become joint: if `ok` it reads `a` and leaves `us`, and otherwise it fails. Both cases are carried
along together, so that a failure deep inside a construct is seen to be a failure of the whole.

One lemma per combinator says how this is put together; the rules of the grammar are then read off
their own definitions.
-/

namespace EnumTags

/-! ## Glued tokens -/

namespace Glued

theorem length_eq {ts us : Tokens} (h : Glued ts us) : us.length = ts.length := by
  induction h with
  | nil => rfl
  | cons _ _ _ ih => simp [ih]

/-- The lexemes of glued tokens, taken apart at the first one. -/
theorem exists_cons {t : Token} {ts : Tokens} {ls : List Lexeme}
    (h : Glued (t :: ts) (Lexeme.tokens ls)) :
    ∃ l rest, ls = l :: rest ∧ t.glues l.token = true ∧
      (t = .punct ':' false → ts.startsPath = true → l.token = .punct ':' true) ∧
        Glued ts (Lexeme.tokens rest) := by
  cases ls with
  | nil => cases h
  | cons l rest =>
      cases h with
      | cons hglues hcolon hrest => exact ⟨l, rest, rfl, hglues, hcolon, hrest⟩

theorem eq_nil {ls : List Lexeme} (h : Glued [] (Lexeme.tokens ls)) : ls = [] := by
  cases ls with
  | nil => rfl
  | cons l rest => cases h

/-- A token that is no punctuation is unchanged. -/
theorem exists_same {t : Token} {ts : Tokens} {ls : List Lexeme}
    (h : Glued (t :: ts) (Lexeme.tokens ls)) (ht : ∀ u, t.glues u = (t == u)) :
    ∃ span rest, ls = ⟨t, span⟩ :: rest ∧ Glued ts (Lexeme.tokens rest) := by
  obtain ⟨⟨u, span⟩, rest, rfl, hglues, -, hrest⟩ := h.exists_cons
  obtain rfl : t = u := beq_iff_eq.mp (ht u ▸ hglues)
  exact ⟨span, rest, rfl, hrest⟩

theorem exists_ident {i : Ident} {ts : Tokens} {ls : List Lexeme}
    (h : Glued (.ident i :: ts) (Lexeme.tokens ls)) :
    ∃ span rest, ls = ⟨.ident i, span⟩ :: rest ∧ Glued ts (Lexeme.tokens rest) :=
  h.exists_same fun _ => rfl

theorem exists_opening {d : Delimiter} {ts : Tokens} {ls : List Lexeme}
    (h : Glued (.opening d :: ts) (Lexeme.tokens ls)) :
    ∃ span rest, ls = ⟨.opening d, span⟩ :: rest ∧ Glued ts (Lexeme.tokens rest) :=
  h.exists_same fun _ => rfl

theorem exists_closing {d : Delimiter} {ts : Tokens} {ls : List Lexeme}
    (h : Glued (.closing d :: ts) (Lexeme.tokens ls)) :
    ∃ span rest, ls = ⟨.closing d, span⟩ :: rest ∧ Glued ts (Lexeme.tokens rest) :=
  h.exists_same fun _ => rfl

/-- Punctuation keeps its character and stays joint if it was. -/
theorem exists_punct {c : Char} {joint : Bool} {ts : Tokens} {ls : List Lexeme}
    (h : Glued (.punct c joint :: ts) (Lexeme.tokens ls)) :
    ∃ joint' span rest, ls = ⟨.punct c joint', span⟩ :: rest ∧ (joint = true → joint' = true) ∧
      (c = ':' → joint = false → ts.startsPath = true → joint' = true) ∧
        Glued ts (Lexeme.tokens rest) := by
  obtain ⟨⟨u, span⟩, rest, rfl, hglues, hcolon, hrest⟩ := h.exists_cons
  cases u with
  | punct d joint' =>
      simp only [Token.glues, Bool.and_eq_true, beq_iff_eq, Bool.or_eq_true,
        Bool.not_eq_true'] at hglues
      obtain ⟨rfl, hjoint⟩ := hglues
      refine ⟨joint', span, rest, rfl, ?_, ?_, hrest⟩
      · rintro rfl
        exact hjoint.resolve_left (by decide)
      · rintro rfl rfl hpath
        exact (Token.punct.inj (hcolon rfl hpath)).2
  | ident i => cases hglues
  | literal s => cases hglues
  | opening d => cases hglues
  | closing d => cases hglues

end Glued

/-! ## What stands ahead -/

namespace Token

/-- Whether the token is this punctuation character, joint or not. -/
def isMark (c : Char) : Token → Bool
  | punct d _ => c == d
  | _ => false

/-- Whether the token is a name. -/
def isName : Token → Bool
  | ident i => i.isName
  | _ => false

/-- Whether the token closes a group. -/
def isClosing : Token → Bool
  | closing _ => true
  | _ => false

end Token

namespace Ahead

variable {ts : Tokens} {ls : List Lexeme}

/-- The next token, up to what it is joint with. -/
theorem token?_glued (h : Glued ts (Lexeme.tokens ls)) :
    token? ls = none ∧ ts = [] ∨ ∃ t u, ts.head? = some t ∧ token? ls = some u ∧
      t.glues u = true := by
  cases ts with
  | nil => exact .inl ⟨by rw [h.eq_nil]; rfl, rfl⟩
  | cons t ts =>
      obtain ⟨l, rest, rfl, hglues, -⟩ := h.exists_cons
      exact .inr ⟨t, l.token, rfl, rfl, hglues⟩

/-- A test that does not see whether punctuation is joint can be made before gluing. -/
theorem any_token?_glued (h : Glued ts (Lexeme.tokens ls)) {p : Token → Bool}
    (hp : ∀ c joint joint', p (.punct c joint) = p (.punct c joint')) :
    (token? ls).any p = ts.head?.any p := by
  rcases token?_glued h with ⟨hls, rfl⟩ | ⟨t, u, hts, hls, hglues⟩
  · rw [hls]
    rfl
  · rw [hls, hts, Option.any_some, Option.any_some]
    cases t with
    | punct c joint =>
        cases u with
        | punct d joint' =>
            simp only [Token.glues, Bool.and_eq_true, beq_iff_eq] at hglues
            rw [← hglues.1]
            exact hp _ _ _
        | ident i => cases hglues
        | literal s => cases hglues
        | opening d => cases hglues
        | closing d => cases hglues
    | ident i | literal s | opening d | closing d => rw [beq_iff_eq.mp hglues]

theorem word_glued (h : Glued ts (Lexeme.tokens ls)) (w : Text) :
    word w ls = ts.head?.any (Token.isWord w) :=
  any_token?_glued h fun _ _ _ => rfl

theorem opens_glued (h : Glued ts (Lexeme.tokens ls)) (d : Delimiter) :
    opens d ls = ts.head?.any (· == .opening d) := by
  rw [← any_token?_glued h fun _ _ _ => rfl, opens]
  cases token? ls <;> rfl

theorem name_glued (h : Glued ts (Lexeme.tokens ls)) : name ls = ts.head?.any Token.isName := by
  rw [← any_token?_glued h fun _ _ _ => rfl, name]
  cases token? ls with
  | none => rfl
  | some t => cases t <;> rfl

theorem atEnd_glued (h : Glued ts (Lexeme.tokens ls)) :
    atEnd ls = (ts.isEmpty || ts.head?.any Token.isClosing) := by
  rw [← any_token?_glued h fun _ _ _ => rfl, atEnd]
  rcases token?_glued h with ⟨hls, rfl⟩ | ⟨t, u, hts, hls, -⟩
  · rw [hls]
    rfl
  · have hne : ts.isEmpty = false := by
      cases ts with
      | nil => cases hts
      | cons t ts => rfl
    rw [hls, hne]
    cases u <;> rfl

/-- A single punctuation character is seen whether it is joint or not. -/
theorem op_glued (h : Glued ts (Lexeme.tokens ls)) (c : Char) :
    op [c] ls = ts.head?.any (Token.isMark c) := by
  rw [← any_token?_glued h fun _ _ _ => rfl]
  cases ls with
  | nil => rfl
  | cons l ls =>
      obtain ⟨t, span⟩ := l
      cases t <;> rfl

/-- No operator is seen where its first character is missing. -/
theorem op_eq_false (h : Glued ts (Lexeme.tokens ls)) {c : Char}
    (hc : ts.head?.any (Token.isMark c) = false) (cs : Text) : op (c :: cs) ls = false := by
  rw [← op_glued h] at hc
  cases cs with
  | nil => exact hc
  | cons d cs =>
      cases ls with
      | nil => rfl
      | cons l ls =>
          obtain ⟨t, span⟩ := l
          cases t with
          | punct e joint =>
              have hne : (c == e) = false := hc
              simp only [op, hne, Bool.false_and]
          | ident i => rfl
          | literal s => rfl
          | opening d => rfl
          | closing d => rfl

/-- A colon that nothing but another token follows is not the first of two. -/
theorem op_colons_eq_false {joint : Bool} (h : Glued (.punct ':' joint :: ts) (Lexeme.tokens ls))
    (hts : ts.head?.any (Token.isMark ':') = false) : op [':', ':'] ls = false := by
  obtain ⟨joint', span, rest, rfl, -, -, hrest⟩ := h.exists_punct
  have hop := op_glued hrest ':'
  rw [hts] at hop
  cases rest with
  | nil => simp [op]
  | cons l rest => simp only [op, hop, Bool.and_false]

/-- A colon has become joint with the colons of a path behind it. -/
theorem op_colons_of_startsPath (h : Glued (.punct ':' false :: ts) (Lexeme.tokens ls))
    (hts : ts.startsPath = true) : op [':', ':'] ls = true := by
  obtain ⟨joint', span, rest, rfl, -, hcolon, hrest⟩ := h.exists_punct
  obtain ⟨us, rfl⟩ := Tokens.exists_of_startsPath hts
  have hop : op [':'] rest = true := op_glued hrest ':'
  rw [hcolon rfl rfl hts]
  cases rest with
  | nil => cases hop
  | cons l rest => simp only [op, hop, beq_self_eq_true, Bool.true_and]

theorem lifetime?_quote {i : Ident}
    (h : Glued (.punct '\'' true :: .ident i :: ts) (Lexeme.tokens ls)) :
    lifetime? ls = some i ∧ Glued ts (Lexeme.tokens (ls.drop 2)) := by
  obtain ⟨joint, span, rest, rfl, hjoint, -, hrest⟩ := h.exists_punct
  obtain ⟨span', rest', rfl, hrest'⟩ := hrest.exists_ident
  rw [hjoint rfl]
  exact ⟨rfl, hrest'⟩

theorem lifetime_quote {i : Ident} (h : Glued (Tokens.lifetime i ++ ts) (Lexeme.tokens ls)) :
    lifetime ls = true := by
  rw [lifetime, (lifetime?_quote h).1]
  rfl

theorem lifetime_eq_false (h : Glued ts (Lexeme.tokens ls))
    (hts : ts.head?.any (Token.isMark '\'') = false) : lifetime ls = false := by
  rw [← op_glued h] at hts
  rw [lifetime, lifetime?.eq_def]
  split
  · cases hts
  · rfl

/-- An operator that was written is seen, and behind it stands what follows. -/
theorem op_written {o : Text} (ho : o ≠ []) (h : Glued (Tokens.op o ++ ts) (Lexeme.tokens ls)) :
    op o ls = true ∧ Glued ts (Lexeme.tokens (Parser.behindOp o ls)) := by
  induction o generalizing ls with
  | nil => exact absurd rfl ho
  | cons c cs ih =>
      cases cs with
      | nil =>
          obtain ⟨joint, span, rest, rfl, -, -, hrest⟩ := h.exists_punct
          exact ⟨beq_self_eq_true c, by cases rest <;> exact hrest⟩
      | cons d cs =>
          obtain ⟨joint, span, rest, rfl, hjoint, -, hrest⟩ := h.exists_punct
          obtain ⟨hop, hbehind⟩ := ih (List.cons_ne_nil d cs) hrest
          exact ⟨by simp only [op, beq_self_eq_true, hjoint rfl, hop, Bool.and_self], hbehind⟩

end Ahead

/-! ## Parsers -/

namespace Parser

variable {α β : Type}

theorem rest_bind (f : List Lexeme → Parser β) (c : Cursor) : (rest >>= f) c = f c.rest c := rfl

theorem peek_bind (test : List Lexeme → Bool) (f : Bool → Parser β) (c : Cursor) :
    (peek test >>= f) c = f (test c.rest) c := rfl

theorem bind_of_ok {p : Parser α} {f : α → Parser β} {c c' : Cursor} {a : α}
    (h : p c = .ok (a, c')) : (p >>= f) c = f a c' := by
  simp only [bind, StateT.bind, h, Except.bind]

theorem bind_of_error {p : Parser α} {f : α → Parser β} {c : Cursor} {e : SyntaxError}
    (h : p c = .error e) : (p >>= f) c = .error e := by
  simp only [bind, StateT.bind, h, Except.bind]

end Parser

/-- What a parser does on lexemes that spell `ts`: if `ok` it reads `a` and leaves `us`, and
otherwise it fails. -/
def Reads {α : Type} (p : Parser α) (ts : Tokens) (ok : Bool) (a : α) (us : Tokens) : Prop :=
  ∀ ls spill, Glued ts (Lexeme.tokens ls) →
    if ok then ∃ rest, Glued us (Lexeme.tokens rest) ∧ p ⟨ls, spill⟩ = .ok (a, ⟨rest, spill⟩)
    else ∃ e, p ⟨ls, spill⟩ = .error e

namespace Reads

open EnumTags.Parser

variable {α β : Type} {ts us vs : Tokens} {ok ok' : Bool} {a : α} {b : β}

theorem pure (a : α) (ts : Tokens) : Reads (pure a) ts true a ts :=
  fun ls _ h => ⟨ls, h, rfl⟩

/-- One parser after the other; where the first one fails, the second one does not matter. -/
theorem bind {p : Parser α} {f : α → Parser β} (hp : Reads p ts ok a us)
    (hf : ok = true → Reads (f a) us ok' b vs) : Reads (p >>= f) ts (ok && ok') b vs := by
  intro ls spill h
  cases ok with
  | false =>
      obtain ⟨e, he⟩ := hp ls spill h
      exact ⟨e, bind_of_error he⟩
  | true =>
      obtain ⟨rest, hrest, heq⟩ := hp ls spill h
      rw [Bool.true_and, bind_of_ok heq]
      exact hf rfl rest spill hrest

/-- Going on behind a parser that does not fail. -/
theorem next {p : Parser α} {f : α → Parser β} (hp : Reads p ts true a us)
    (hf : Reads (f a) us ok b vs) : Reads (p >>= f) ts ok b vs := by
  have hboth := hp.bind fun _ => hf
  rwa [Bool.true_and] at hboth

/-- Ending with a parser that does not fail. -/
theorem finish {p : Parser α} {f : α → Parser β} (hp : Reads p ts ok a us)
    (hf : Reads (f a) us true b vs) : Reads (p >>= f) ts ok b vs := by
  have hboth := hp.bind fun _ => hf
  rwa [Bool.and_true] at hboth

/-- Where the first parser fails, both do. -/
theorem bind_fails {p : Parser α} {f : α → Parser β} (hp : Reads p ts false a us) :
    Reads (p >>= f) ts false b vs := by
  have hf : false = true → Reads (f a) us true b vs := fun h => absurd h Bool.false_ne_true
  have hboth := hp.bind hf
  rwa [Bool.false_and] at hboth

theorem bind_pure {p : Parser α} {f : α → β} (hp : Reads p ts ok a us) :
    Reads (p >>= fun a => Pure.pure (f a)) ts ok (f a) us :=
  hp.finish (Reads.pure (f a) us)

/-- A parser does what another one does on the same lexemes. -/
theorem congr {p q : Parser α}
    (h : ∀ ls spill, Glued ts (Lexeme.tokens ls) → p ⟨ls, spill⟩ = q ⟨ls, spill⟩)
    (hq : Reads q ts ok a us) : Reads p ts ok a us := by
  intro ls spill hls
  rw [h ls spill hls]
  exact hq ls spill hls

/-- Looking at what is left. -/
theorem of_rest {k : List Lexeme → Parser α}
    (h : ∀ ls, Glued ts (Lexeme.tokens ls) → Reads (k ls) ts ok a us) :
    Reads (rest >>= k) ts ok a us :=
  fun ls spill hls => h ls hls ls spill hls

/-- A test whose answer is known. -/
theorem of_peek {test : List Lexeme → Bool} {answer : Bool} {k : Bool → Parser α}
    (htest : ∀ ls, Glued ts (Lexeme.tokens ls) → test ls = answer)
    (h : Reads (k answer) ts ok a us) : Reads (peek test >>= k) ts ok a us := by
  intro ls spill hls
  rw [peek_bind, htest ls hls]
  exact h ls spill hls

/-- A test whose answer makes no difference. -/
theorem of_any_peek {test : List Lexeme → Bool} {k : Bool → Parser α}
    (h : ∀ answer, Reads (k answer) ts ok a us) : Reads (peek test >>= k) ts ok a us :=
  fun ls spill hls => h (test ls) ls spill hls

theorem throw (e : SyntaxError) (a : α) (ts us : Tokens) :
    Reads (throw e : Parser α) ts false a us :=
  fun _ _ _ => ⟨e, rfl⟩

/-- Failing because something else was expected. -/
theorem expected (options : List Text) (a : α) (ts us : Tokens) :
    Reads (expected options) ts false a us :=
  fun ls _ _ => ⟨.expected options (Ahead.atEnd ls), rfl⟩

theorem goOn {ls : List Lexeme} (h : Glued us (Lexeme.tokens ls)) (ts : Tokens) :
    Reads (goOn ls) ts true () us :=
  fun _ _ _ => ⟨ls, h, rfl⟩

/-- Where a parser fails, nothing is read. -/
theorem fails {p : Parser α} {a' : α} (h : Reads p ts false a us) : Reads p ts false a' vs :=
  fun ls spill hls => h ls spill hls

/-! ### Tokens -/

theorem word {w : Text} {i : Ident} (hw : i.isPlain w = true) (ts : Tokens) :
    Reads (word w) (.ident i :: ts) true [.ident i] ts := by
  refine of_rest fun ls h => ?_
  obtain ⟨span, rest, rfl, hrest⟩ := h.exists_ident
  have hword : (Token.ident i).isWord w = true := hw
  simp only [hword, if_true]
  exact (goOn hrest _).bind_pure

theorem anyIdent (i : Ident) (ts : Tokens) : Reads anyIdent (.ident i :: ts) true i ts := by
  refine of_rest fun ls h => ?_
  obtain ⟨span, rest, rfl, hrest⟩ := h.exists_ident
  exact (goOn hrest _).bind_pure

theorem someName {i : Ident} (hi : i.isName = true) (ts : Tokens) :
    Reads someName (.ident i :: ts) true ⟨i, hi⟩ ts := by
  refine of_rest fun ls h => ?_
  obtain ⟨span, rest, rfl, hrest⟩ := h.exists_ident
  simp only [hi, dite_true]
  exact (goOn hrest _).bind_pure

theorem name {i : Ident} (hi : i.isName = true) (ts : Tokens) :
    Reads name (.ident i :: ts) true i ts :=
  (someName hi ts).bind_pure

/-- A name is missing where a punctuation character stands. -/
theorem name_of_punct {c : Char} {joint : Bool} (i : Ident) (us : Tokens) :
    Reads Parser.name (.punct c joint :: ts) false i us := by
  have hsome : Reads Parser.someName (.punct c joint :: ts) false ⟨.plain "a", by decide⟩ us := by
    refine of_rest fun ls h => ?_
    obtain ⟨joint', span, rest, rfl, -⟩ := h.exists_punct
    exact expected _ _ _ _
  exact hsome.bind_pure.fails

theorem lifetime (i : Ident) (ts : Tokens) :
    Reads lifetime (Tokens.lifetime i ++ ts) true i ts := by
  refine of_rest fun ls h => ?_
  obtain ⟨hsome, hrest⟩ := Ahead.lifetime?_quote h
  simp only [hsome]
  exact (goOn hrest _).bind_pure

theorem literal (s : Text) (ts : Tokens) : Reads literal (.literal s :: ts) true [.literal s] ts := by
  refine of_rest fun ls h => ?_
  obtain ⟨span, rest, rfl, hrest⟩ := h.exists_same fun _ => rfl
  exact (goOn hrest _).bind_pure

/-- An operator is read up to its last character. -/
theorem op {o : Text} (ho : o ≠ []) (ts : Tokens) :
    Reads (op o) (Tokens.op o ++ ts) true (Tokens.op o) ts := by
  refine of_rest fun ls h => ?_
  obtain ⟨hop, hrest⟩ := Ahead.op_written ho h
  simp only [hop, if_true]
  exact (goOn hrest _).bind_pure

theorem op_eq_false {c : Char} {cs : Text} (hts : ts.head?.any (Token.isMark c) = false)
    (us : Tokens) : Reads (Parser.op (c :: cs)) ts false [] us := by
  refine of_rest fun ls h => ?_
  simp only [Ahead.op_eq_false h hts, Bool.false_eq_true, if_false]
  exact throw _ _ _ _

theorem opIf_missing {c : Char} {cs : Text} (h : ts.head?.any (Token.isMark c) = false) :
    Reads (Parser.opIf (c :: cs)) ts true [] ts :=
  of_peek (fun _ hls => Ahead.op_eq_false hls h cs) (Reads.pure _ _)

/-- An operator that may be missing is read if it is there. -/
theorem opIf {c : Char} {cs : Text} {isThere : Bool}
    (h : isThere = false → ts.head?.any (Token.isMark c) = false) :
    Reads (opIf (c :: cs)) ((if isThere then Tokens.op (c :: cs) else []) ++ ts) true
      (if isThere then Tokens.op (c :: cs) else []) ts := by
  cases isThere with
  | true =>
      exact of_peek (fun ls hls => (Ahead.op_written (List.cons_ne_nil c cs) hls).1)
        (op (List.cons_ne_nil c cs) ts)
  | false => exact opIf_missing (h rfl)

/-- A word that may be missing is read if it is there. -/
theorem wordIf_missing {w : Text} (h : ts.head?.any (Token.isWord w) = false) :
    Reads (wordIf w) ts true [] ts :=
  of_peek (fun _ hls => (Ahead.word_glued hls w).trans h) (Reads.pure _ _)

theorem wordIf_there {w : Text} {i : Ident} (hw : i.isPlain w = true) (ts : Tokens) :
    Reads (wordIf w) (.ident i :: ts) true [.ident i] ts :=
  of_peek (fun _ hls => (Ahead.word_glued hls w).trans hw) (word hw ts)

/-- A group that was read to its end is left. -/
theorem leave (d d' : Delimiter) (us : Tokens) :
    Reads (leave d) (.closing d' :: us) true () us := by
  intro ls spill h
  obtain ⟨span, rest, rfl, hrest⟩ := h.exists_closing
  exact ⟨rest, hrest, rfl⟩

/-- A group is read if its inside is read to its end. -/
theorem group {p : Parser α} {d d' : Delimiter} (hp : Reads p ts ok a (.closing d' :: us)) :
    Reads (group d p) (.opening d :: ts) ok a us := by
  refine of_rest fun ls h => ?_
  obtain ⟨span, rest, rfl, hrest⟩ := h.exists_opening
  simp only [beq_self_eq_true, if_true]
  refine (goOn hrest _).next ?_
  exact hp.finish (leave d d' us).bind_pure

/-! ### Lists -/

theorem joined_singleton {f : α → Tokens} (separator : Tokens) (x : α) (rest : Tokens) :
    Listed.joined separator ([x].map f) false ++ rest = f x ++ rest := by
  simp [Listed.joined]

theorem joined_cons_cons {f : α → Tokens} (separator : Tokens) (x y : α) (xs : List α)
    (trailing : Bool) (rest : Tokens) :
    Listed.joined separator ((x :: y :: xs).map f) trailing ++ rest =
      f x ++ (separator ++ (Listed.joined separator ((y :: xs).map f) trailing ++ rest)) := by
  simp [Listed.joined]

/-- Behind an item that is not the last, or that a separator follows all the same. -/
theorem joined_cons {f : α → Tokens} {separator rest : Tokens} {x : α} {xs : List α}
    {trailing : Bool} (h : xs = [] → trailing = true) :
    Listed.joined separator ((x :: xs).map f) trailing ++ rest =
      f x ++ (separator ++ (Listed.joined separator (xs.map f) trailing ++ rest)) := by
  cases xs with
  | nil => simp [h rfl, Listed.joined]
  | cons y ys => exact joined_cons_cons _ _ _ _ _ _

/-- Separated tokens begin with those of the first item. -/
theorem exists_joined_eq (separator ts : Tokens) (rest : List Tokens) (trailing : Bool) :
    ∃ us, Listed.joined separator (ts :: rest) trailing = ts ++ us := by
  cases rest with
  | nil => exact ⟨_, rfl⟩
  | cons us rest => exact ⟨separator ++ Listed.joined separator (us :: rest) trailing, by
      simp [Listed.joined]⟩

theorem length_le_joined (separator : Tokens) (lists : List Tokens) (h : ∀ ts ∈ lists, ts ≠ [])
    (trailing : Bool) : lists.length ≤ (Listed.joined separator lists trailing).length := by
  induction lists with
  | nil => exact Nat.le_refl 0
  | cons ts rest ih =>
      have hpos := List.length_pos_iff.mpr (h ts List.mem_cons_self)
      have hrest := ih fun us hus => h us (List.mem_cons_of_mem ts hus)
      cases rest with
      | nil =>
          simp only [Listed.joined, List.length_append, List.length_cons, List.length_nil]
          omega
      | cons us rest =>
          simp only [Listed.joined, List.length_append, List.length_cons] at hrest ⊢
          omega

/-- There are no more items than lexemes, so that a loop over them does not run out of fuel. -/
theorem length_lt_of_joined {f : α → Tokens} {separator rest : Tokens} {xs : List α}
    {trailing : Bool} {ls : List Lexeme} (hne : ∀ x ∈ xs, f x ≠ [])
    (h : Glued (Listed.joined separator (xs.map f) trailing ++ rest) (Lexeme.tokens ls)) :
    xs.length < ls.length + 1 := by
  have hlength : ls.length = _ := (List.length_map _).symm.trans h.length_eq
  have hle := length_le_joined separator (xs.map f) (by simpa using hne) trailing
  rw [List.length_map] at hle
  rw [hlength, List.length_append]
  omega

theorem length_le_joined_of_mem (separator : Tokens) {lists : List Tokens} {ts : Tokens}
    (h : ts ∈ lists) (trailing : Bool) :
    ts.length ≤ (Listed.joined separator lists trailing).length := by
  induction lists with
  | nil => cases h
  | cons us rest ih =>
      cases rest with
      | nil =>
          obtain rfl := List.mem_singleton.mp h
          simp only [Listed.joined, List.length_append]
          omega
      | cons vs rest =>
          simp only [Listed.joined, List.length_append]
          rcases List.mem_cons.mp h with rfl | hmem
          · omega
          · have hle := ih hmem
            omega

/-- What a list with separators needs to be read: each item is read in front of a separator and of
the end, and the end is told from both. -/
structure ListRule (stop : List Lexeme → Bool) (separator : Text) (p : Parser α) (f : α → Tokens)
    (g : α → Bool) (xs : List α) (rest : Tokens) : Prop where
  item : ∀ x ∈ xs, ∀ us, us = rest ∨ (∃ vs, us = Tokens.op separator ++ vs) →
    Reads p (f x ++ us) (g x) x us
  start : ∀ x ∈ xs, ∀ us ls, Glued (f x ++ us) (Lexeme.tokens ls) → stop ls = false
  between : ∀ us ls, Glued (Tokens.op separator ++ us) (Lexeme.tokens ls) → stop ls = false
  final : ∀ ls, Glued rest (Lexeme.tokens ls) → stop ls = true

theorem ListRule.tail {stop : List Lexeme → Bool} {separator : Text} {p : Parser α}
    {f : α → Tokens} {g : α → Bool} {x : α} {xs : List α} {rest : Tokens}
    (h : ListRule stop separator p f g (x :: xs) rest) : ListRule stop separator p f g xs rest where
  item y hy := h.item y (List.mem_cons_of_mem x hy)
  start y hy := h.start y (List.mem_cons_of_mem x hy)
  between := h.between
  final := h.final

theorem listLoop {stop : List Lexeme → Bool} {separator : Text} {p : Parser α} {f : α → Tokens}
    {g : α → Bool} {xs : List α} {rest : Tokens} (hseparator : separator ≠ [])
    (h : ListRule stop separator p f g xs rest) {fuel : Nat} (hfuel : xs.length < fuel)
    {trailing : Bool} (hempty : xs = [] → trailing = true) :
    Reads (listLoop stop separator p fuel)
      (Listed.joined (Tokens.op separator) (xs.map f) trailing ++ rest) (xs.all g) ⟨xs, trailing⟩
      rest := by
  induction xs generalizing fuel with
  | nil =>
      cases fuel with
      | zero => cases hfuel
      | succ fuel =>
          rw [hempty rfl]
          exact of_peek h.final (Reads.pure _ _)
  | cons x xs ih =>
      cases fuel with
      | zero => cases hfuel
      | succ fuel =>
          have hless : xs.length < fuel := Nat.lt_of_succ_lt_succ hfuel
          have hitem := h.item x List.mem_cons_self
          have hstart := h.start x List.mem_cons_self
          by_cases hlast : xs = [] ∧ trailing = false
          · obtain ⟨rfl, rfl⟩ := hlast
            rw [joined_singleton, List.all_cons, List.all_nil]
            refine of_peek (hstart _) ?_
            exact (hitem rest (.inl rfl)).bind fun _ => of_peek h.final (Reads.pure _ _)
          · have hmore : xs = [] → trailing = true := fun hxs =>
              (Bool.not_eq_false _).mp fun hfalse => hlast ⟨hxs, hfalse⟩
            rw [joined_cons hmore, List.all_cons]
            refine of_peek (hstart _) ?_
            refine (hitem _ (.inr ⟨_, rfl⟩)).bind fun _ => ?_
            refine of_peek (h.between _) ?_
            exact (Reads.op hseparator _).next (ih h.tail hless hmore).bind_pure

theorem listUntil {stop : List Lexeme → Bool} {separator : Text} {p : Parser α} {f : α → Tokens}
    {g : α → Bool} {xs : List α} {rest : Tokens} (hseparator : separator ≠ [])
    (h : ListRule stop separator p f g xs rest) (hne : ∀ x ∈ xs, f x ≠ [])
    {trailing : Bool} (hempty : xs = [] → trailing = true) :
    Reads (listUntil stop separator p)
      (Listed.joined (Tokens.op separator) (xs.map f) trailing ++ rest) (xs.all g) ⟨xs, trailing⟩
      rest := by
  exact of_rest fun ls hls => listLoop hseparator h (length_lt_of_joined hne hls) hempty

theorem length_le_flatten (lists : List Tokens) (h : ∀ ts ∈ lists, ts ≠ []) :
    lists.length ≤ lists.flatten.length := by
  induction lists with
  | nil => exact Nat.le_refl 0
  | cons ts rest ih =>
      have hpos := List.length_pos_iff.mpr (h ts List.mem_cons_self)
      have hrest := ih fun us hus => h us (List.mem_cons_of_mem ts hus)
      rw [List.length_cons, List.flatten_cons, List.length_append]
      omega

/-- What a repetition needs to be read: each item is read in front of another one and of the end,
and the test tells them apart. -/
structure LoopRule (test : List Lexeme → Bool) (p : Parser α) (f : α → Tokens) (g : α → Bool)
    (xs : List α) (rest : Tokens) : Prop where
  item : ∀ x ∈ xs, ∀ us, us = rest ∨ (∃ y ∈ xs, ∃ vs, us = f y ++ vs) →
    Reads p (f x ++ us) (g x) x us
  start : ∀ x ∈ xs, ∀ us ls, Glued (f x ++ us) (Lexeme.tokens ls) → test ls = true
  final : ∀ ls, Glued rest (Lexeme.tokens ls) → test ls = false

theorem LoopRule.tail {test : List Lexeme → Bool} {p : Parser α} {f : α → Tokens} {g : α → Bool}
    {x : α} {xs : List α} {rest : Tokens} (h : LoopRule test p f g (x :: xs) rest) :
    LoopRule test p f g xs rest where
  item y hy us hus := by
    refine h.item y (List.mem_cons_of_mem x hy) us ?_
    rcases hus with hus | ⟨z, hz, hus⟩
    · exact .inl hus
    · exact .inr ⟨z, List.mem_cons_of_mem x hz, hus⟩
  start y hy := h.start y (List.mem_cons_of_mem x hy)
  final := h.final

theorem manyLoop {test : List Lexeme → Bool} {p : Parser α} {f : α → Tokens} {g : α → Bool}
    {xs : List α} {rest : Tokens} (h : LoopRule test p f g xs rest) {fuel : Nat}
    (hfuel : xs.length < fuel) :
    Reads (manyLoop test p fuel) ((xs.map f).flatten ++ rest) (xs.all g) xs rest := by
  induction xs generalizing fuel with
  | nil =>
      cases fuel with
      | zero => cases hfuel
      | succ fuel => exact of_peek h.final (Reads.pure _ _)
  | cons x xs ih =>
      cases fuel with
      | zero => cases hfuel
      | succ fuel =>
          have hless : xs.length < fuel := Nat.lt_of_succ_lt_succ hfuel
          have hnext : (xs.map f).flatten ++ rest = rest ∨ ∃ y ∈ x :: xs, ∃ vs,
              (xs.map f).flatten ++ rest = f y ++ vs := by
            cases xs with
            | nil => exact .inl rfl
            | cons y ys =>
                exact .inr ⟨y, List.mem_cons_of_mem x List.mem_cons_self,
                  (ys.map f).flatten ++ rest, by simp⟩
          rw [List.map_cons, List.flatten_cons, List.append_assoc, List.all_cons]
          refine of_peek (h.start x List.mem_cons_self _) ?_
          exact (h.item x List.mem_cons_self _ hnext).bind fun _ => (ih h.tail hless).bind_pure

theorem manyWhile {test : List Lexeme → Bool} {p : Parser α} {f : α → Tokens} {g : α → Bool}
    {xs : List α} {rest : Tokens} (h : LoopRule test p f g xs rest) (hne : ∀ x ∈ xs, f x ≠ []) :
    Reads (manyWhile test p) ((xs.map f).flatten ++ rest) (xs.all g) xs rest := by
  refine of_rest fun ls hls => manyLoop h ?_
  have hlength : ls.length = _ := (List.length_map _).symm.trans hls.length_eq
  have hle := length_le_flatten (xs.map f) (by simpa using hne)
  rw [List.length_map] at hle
  rw [hlength, List.length_append]
  omega

/-- Nothing is repeated where the test fails. -/
theorem manyWhile_nil {test : List Lexeme → Bool} {p : Parser α}
    (h : ∀ ls, Glued ts (Lexeme.tokens ls) → test ls = false) :
    Reads (Parser.manyWhile test p) ts true [] ts :=
  of_rest fun _ _ => of_peek h (Reads.pure _ _)

/-- A repetition fails with its first step. -/
theorem manyWhile_fails {test : List Lexeme → Bool} {p : Parser α} {xs : List α}
    (h : ∀ ls, Glued ts (Lexeme.tokens ls) → test ls = true) (hp : Reads p ts false a us) :
    Reads (Parser.manyWhile test p) ts false xs vs :=
  of_rest fun _ _ => of_peek h hp.bind_fails

/-- What a chain needs to be read: each item is read in front of a separator with another item
behind it, and of the end, where no separator stands. -/
structure ChainRule (goes : List Lexeme → Bool) (separator : Text) (p : Parser α) (f : α → Tokens)
    (g : α → Bool) (xs : List α) (rest : Tokens) : Prop where
  item : ∀ x ∈ xs, ∀ us, us = rest ∨
    (∃ y ∈ xs, ∃ vs, us = Tokens.op separator ++ (f y ++ vs)) → Reads p (f x ++ us) (g x) x us
  start : ∀ x ∈ xs, ∀ us ls, Glued (f x ++ us) (Lexeme.tokens ls) → goes ls = true
  final : ∀ ls, Glued rest (Lexeme.tokens ls) → Ahead.op separator ls = false

section

variable {goes : List Lexeme → Bool} {separator : Text} {p : Parser α} {f : α → Tokens}
  {g : α → Bool} {x y : α} {xs : List α} {rest : Tokens}

theorem ChainRule.tail (h : ChainRule goes separator p f g (x :: xs) rest) :
    ChainRule goes separator p f g xs rest where
  item y hy us hus := by
    refine h.item y (List.mem_cons_of_mem x hy) us ?_
    rcases hus with hus | ⟨z, hz, hus⟩
    · exact .inl hus
    · exact .inr ⟨z, List.mem_cons_of_mem x hz, hus⟩
  start y hy := h.start y (List.mem_cons_of_mem x hy)
  final := h.final

/-- The first item of several, in front of the separator and the others. -/
theorem ChainRule.first (h : ChainRule goes separator p f g (x :: y :: xs) rest) :
    Reads p (f x ++ (Tokens.op separator ++
      (Listed.joined (Tokens.op separator) ((y :: xs).map f) false ++ rest))) (g x) x
        (Tokens.op separator ++
          (Listed.joined (Tokens.op separator) ((y :: xs).map f) false ++ rest)) := by
  obtain ⟨us, hus⟩ := exists_joined_eq (Tokens.op separator) (f y) (xs.map f) false
  refine h.item x List.mem_cons_self _ (.inr ⟨y, by simp, us ++ rest, ?_⟩)
  rw [List.map_cons, hus, List.append_assoc]

theorem chainLoop (hseparator : separator ≠ [])
    (h : ChainRule goes separator p f g (x :: xs) rest) {fuel : Nat} (hfuel : xs.length + 1 < fuel) :
    Reads (chainLoop goes separator p fuel)
      (Listed.joined (Tokens.op separator) ((x :: xs).map f) false ++ rest) ((x :: xs).all g)
      ⟨x :: xs, false⟩ rest := by
  induction xs generalizing x fuel with
  | nil =>
      cases fuel with
      | zero => cases hfuel
      | succ fuel =>
          rw [joined_singleton, List.all_cons, List.all_nil]
          refine of_peek (h.start x List.mem_cons_self _) ?_
          exact (h.item x List.mem_cons_self _ (.inl rfl)).bind fun _ =>
            of_peek h.final (Reads.pure _ _)
  | cons y xs ih =>
      cases fuel with
      | zero => cases hfuel
      | succ fuel =>
          have hless : xs.length + 1 < fuel := Nat.lt_of_succ_lt_succ hfuel
          rw [joined_cons_cons, List.all_cons]
          refine of_peek (h.start x List.mem_cons_self _) ?_
          refine h.first.bind fun _ => ?_
          refine of_peek (fun ls hls => (Ahead.op_written hseparator hls).1) ?_
          exact (Reads.op hseparator _).next (ih h.tail hless).bind_pure

theorem chain (hseparator : separator ≠ [])
    (h : ChainRule goes separator p f g (x :: xs) rest) (hne : ∀ y ∈ x :: xs, f y ≠ []) :
    Reads (chain goes separator p)
      (Listed.joined (Tokens.op separator) ((x :: xs).map f) false ++ rest) ((x :: xs).all g)
      ⟨x :: xs, false⟩ rest := by
  exact of_rest fun ls hls => chainLoop hseparator h (length_lt_of_joined hne hls)

theorem chainFrom (hseparator : separator ≠ []) (hxs : xs ≠ [])
    (h : ChainRule goes separator p f g xs rest) (hne : ∀ x ∈ xs, f x ≠ []) :
    Reads (chainFrom goes separator p)
      (Listed.joined (Tokens.op separator) (xs.map f) false ++ rest) (xs.all g) ⟨xs, false⟩
      rest := by
  obtain ⟨x, xs, rfl⟩ := List.exists_cons_of_ne_nil hxs
  cases xs with
  | nil =>
      rw [joined_singleton, List.all_cons, List.all_nil]
      exact (h.item x List.mem_cons_self _ (.inl rfl)).bind fun _ =>
        of_peek h.final (Reads.pure _ _)
  | cons y xs =>
      rw [joined_cons_cons, List.all_cons]
      refine h.first.bind fun _ => ?_
      refine of_peek (fun ls hls => (Ahead.op_written hseparator hls).1) ?_
      exact (Reads.op hseparator _).next (chain hseparator h.tail fun z hz =>
        hne z (List.mem_cons_of_mem x hz)).bind_pure

end

end Reads

end EnumTags

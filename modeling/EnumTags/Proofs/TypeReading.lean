import EnumTags.Proofs.PlainTypes

/-!
# Reading segments back

The rules for types read a plain type back from its tokens, however these are glued, unless a label
stands directly before the colons of a path: then the rules fail. The proof goes rule by rule, and
each lemma takes for granted what the types inside are read as (`Rules.Knows`); the depth to which
rules nest ties them together. Here are the rules for the segments of a path, and those for the
arguments behind them.

## Main results

* `Rules.Knows.argument`: an argument in angle brackets is read back.
* `Rules.reads_segment`: a segment of a path is read back.
-/

namespace EnumTags

/-! ## Where types begin and end -/

/-- Whether a type can end before this token. A plus sign goes on with a type that may be a sum of
bounds. -/
def Token.endsType (plus : Bool) : Token → Bool
  | .closing _ => true
  | .punct c _ => c == ',' || c == '>' || c == ';' || c == '=' || (!plus && c == '+')
  | .ident i => i.isPlain "as"
  | .literal _ => false
  | .opening _ => false

/-- Whether a type can end before these tokens. -/
def Tokens.endsType (plus : Bool) (ts : Tokens) : Bool := ts.head?.all (Token.endsType plus)

/-- The words with which a function type can begin. -/
def fnWords : List Text := ["fn", "unsafe", "extern"]

/-- The words besides names with which a plain type can begin. -/
def typeWords : List Text := Rules.pathWords ++ fnWords ++ ["dyn".toList, "impl", "_"]

/-- Whether a plain type can begin with this token. -/
def Token.startsType : Token → Bool
  | .ident i => i.isName || typeWords.any (i.isPlain ·)
  | .punct c joint => (c == ':' && joint) || c == '<' || c == '&' || c == '*' || c == '!'
  | .opening d => d == .paren || d == .bracket
  | .literal _ => false
  | .closing _ => false

namespace Tokens

theorem endsType_of_plus {plus : Bool} {ts : Tokens} (h : ts.endsType true = true) :
    ts.endsType plus = true := by
  cases ts with
  | nil => rfl
  | cons t ts =>
      cases t with
      | punct c joint =>
          have hc : (c == ',' || c == '>' || c == ';' || c == '=' || (!true && c == '+')) = true := h
          rw [Bool.not_true, Bool.false_and, Bool.or_false] at hc
          simp [endsType, Token.endsType, hc]
      | ident i => exact h
      | literal s => exact h
      | opening d => exact h
      | closing d => exact h

theorem endsType_false {plus : Bool} {ts : Tokens} (h : ts.endsType plus = true) :
    ts.endsType false = true := by
  cases plus with
  | false => exact h
  | true => exact endsType_of_plus h

theorem any_head?_of_endsType {plus : Bool} {ts : Tokens} (h : ts.endsType plus = true)
    {p : Token → Bool} (hp : ∀ t, t.endsType plus = true → p t = false) :
    ts.head?.any p = false := by
  cases ts with
  | nil => rfl
  | cons t ts => exact hp t h

/-- No type goes on with punctuation before which it can end. -/
theorem not_isMark_of_endsType {plus : Bool} {ts : Tokens} (h : ts.endsType plus = true) {c : Char}
    (hc : (Token.punct c false).endsType plus = false) : ts.head?.any (Token.isMark c) = false := by
  refine any_head?_of_endsType h fun t ht => ?_
  cases t with
  | punct d joint =>
      rw [Token.isMark, beq_eq_false_iff_ne]
      rintro rfl
      exact absurd (ht.symm.trans hc) (by decide)
  | ident i => rfl
  | literal s => rfl
  | opening d => rfl
  | closing d => rfl

theorem not_opening_of_endsType {plus : Bool} {ts : Tokens} (h : ts.endsType plus = true)
    (d : Delimiter) : ts.head?.any (· == .opening d) = false := by
  refine any_head?_of_endsType h fun t ht => ?_
  cases t with
  | opening d' => cases ht
  | punct c joint => rfl
  | ident i => rfl
  | literal s => rfl
  | closing d => rfl

end Tokens

namespace Ident

/-- A name, or one of the given words, is no other keyword. -/
theorem isPlain_eq_false {i : Ident} {ws : List Text}
    (h : (i.isName || ws.any (i.isPlain ·)) = true) {w : Text} (hw : keywords.contains w = true)
    (hws : ws.contains w = false) : i.isPlain w = false := by
  by_contra hplain
  rw [Bool.not_eq_false] at hplain
  simp only [isPlain, Bool.and_eq_true, Bool.not_eq_true', beq_iff_eq] at hplain
  obtain ⟨hraw, rfl⟩ := hplain
  rw [Bool.or_eq_true] at h
  rcases h with hname | hword
  · simp only [isName, hraw, hw, Bool.not_true, Bool.or_false] at hname
    cases hname
  · obtain ⟨v, hv, hplain⟩ := List.any_eq_true.mp hword
    simp only [isPlain, Bool.and_eq_true, beq_iff_eq] at hplain
    rw [hplain.2, List.contains_iff_mem.mpr hv] at hws
    cases hws

theorem startsType_of_isPlain {i : Ident} {w : Text} (h : i.isPlain w = true)
    (hw : typeWords.contains w = true) : (Token.ident i).startsType = true := by
  rw [Token.startsType, List.any_eq_true.mpr ⟨w, List.contains_iff_mem.mp hw, h⟩, Bool.or_true]

theorem startsType_of_isSegment {i : Ident} (h : i.isSegment = true) :
    (Token.ident i).startsType = true := by
  rw [isSegment, Bool.or_eq_true] at h
  rw [Token.startsType, Bool.or_eq_true, typeWords, List.append_assoc, List.any_append,
    Bool.or_eq_true]
  exact h.imp_right .inl

end Ident

/-- A calling convention begins with its keyword, behind which its name may stand. -/
theorem Tokens.exists_of_areConvention {t : Token} {ts : Tokens}
    (h : Tokens.areConvention (t :: ts) = true) :
    ∃ i, t = .ident i ∧ i.isPlain "extern" = true ∧
      (ts = [] ∨ ∃ s, ts = [.literal s] ∧ Ahead.isString s = true) := by
  cases t with
  | ident i =>
      match ts with
      | [] => exact ⟨i, rfl, h, .inl rfl⟩
      | [.literal s] =>
          simp only [areConvention, Bool.and_eq_true] at h
          exact ⟨i, rfl, h.1.1, .inr ⟨s, rfl, h.2⟩⟩
      | [.ident _] | [.punct _ _] | [.opening _] | [.closing _] | _ :: _ :: _ =>
          simp [areConvention] at h
  | punct c joint => simp [areConvention] at h
  | literal s => simp [areConvention] at h
  | opening d => simp [areConvention] at h
  | closing d => simp [areConvention] at h

theorem Tokens.exists_of_areQualifiers {t : Token} {ts : Tokens}
    (h : Tokens.areQualifiers (t :: ts) = true) :
    ∃ i, t = .ident i ∧ (i.isPlain "unsafe" = true ∨ i.isPlain "extern" = true) := by
  rw [Tokens.areQualifiers] at h
  split at h
  · rename_i hunsafe
    cases t with
    | ident i => exact ⟨i, rfl, .inl hunsafe⟩
    | punct c joint => cases hunsafe
    | literal s => cases hunsafe
    | opening d => cases hunsafe
    | closing d => cases hunsafe
  · obtain ⟨i, rfl, hextern, -⟩ := exists_of_areConvention h
    exact ⟨i, rfl, .inr hextern⟩

/-- A plain path begins with the name of its first segment. -/
theorem Segment.exists_pathTokens_eq_cons {inputs : Bool} {segments : List Segment}
    (hne : (!segments.isEmpty) = true) (h : Segment.arePlain inputs segments = true) :
    ∃ i us, Segment.pathTokens segments = .ident i :: us ∧ i.isSegment = true := by
  cases segments with
  | nil => cases hne
  | cons segment rest =>
      obtain ⟨name, arguments⟩ := segment
      rw [Segment.arePlain] at h
      simp only [Bool.and_eq_true] at h
      cases rest with
      | nil => exact ⟨name, _, by rw [Segment.pathTokens]; rfl, h.1.1.1⟩
      | cons segment rest =>
          exact ⟨name, _, by simp only [Segment.pathTokens]; rfl, h.1.1.1⟩

/-- A plain function type begins with a qualifier or with its own keyword. -/
theorem Ty.exists_function_tokens {plus : Bool} {qualifiers : Tokens} {params : List FnParam}
    {trailing : Bool} {more : Tokens} {result : Option Ty}
    (h : (Ty.function qualifiers params trailing more result).isPlain plus = true) :
    ∃ i us, (Ty.function qualifiers params trailing more result).tokens = .ident i :: us ∧
      fnWords.any (i.isPlain ·) = true := by
  simp only [Ty.isPlain, Bool.and_eq_true] at h
  rw [Ty.tokens]
  cases qualifiers with
  | nil => exact ⟨_, _, rfl, by decide⟩
  | cons u us =>
      obtain ⟨i, rfl, hword⟩ := Tokens.exists_of_areQualifiers h.1.1.1.1
      rcases hword with hword | hword <;>
        exact ⟨i, _, rfl, List.any_eq_true.mpr ⟨_, by decide, hword⟩⟩

/-- A plain type begins with a token that can begin one. -/
theorem Ty.exists_tokens_eq_cons {plus : Bool} (t : Ty) (h : t.isPlain plus = true) :
    ∃ u us, t.tokens = u :: us ∧ u.startsType = true := by
  cases t with
  | slice elem => exact ⟨_, _, by rw [Ty.tokens]; rfl, rfl⟩
  | function qualifiers params trailing rest result =>
      obtain ⟨i, us, htokens, hword⟩ := Ty.exists_function_tokens h
      obtain ⟨w, hw, hplain⟩ := List.any_eq_true.mp hword
      have hwords : ∀ w ∈ fnWords, typeWords.contains w = true := by decide
      exact ⟨.ident i, us, htokens, Ident.startsType_of_isPlain hplain (hwords w hw)⟩
  | implTrait bounds trailing => exact ⟨_, _, by rw [Ty.tokens]; rfl, by decide⟩
  | object keyword bounds trailing =>
      simp only [Ty.isPlain, Bool.and_eq_true] at h
      obtain ⟨⟨⟨⟨rfl, -⟩, -⟩, -⟩, -⟩ := h
      exact ⟨_, _, by rw [Ty.tokens]; rfl, by decide⟩
  | infer => exact ⟨_, _, by rw [Ty.tokens]; rfl, by decide⟩
  | never => exact ⟨_, _, by rw [Ty.tokens]; rfl, by decide⟩
  | paren inner => exact ⟨_, _, by rw [Ty.tokens]; rfl, rfl⟩
  | path rooted segments =>
      simp only [Ty.isPlain, Bool.and_eq_true] at h
      rw [Ty.tokens]
      cases rooted with
      | true => exact ⟨_, _, rfl, by decide⟩
      | false =>
          obtain ⟨i, us, htokens, hi⟩ := Segment.exists_pathTokens_eq_cons h.1 h.2
          exact ⟨.ident i, us, htokens, Ident.startsType_of_isSegment hi⟩
  | qualified self rooted trait rest => exact ⟨_, _, by rw [Ty.tokens]; rfl, by decide⟩
  | pointer mutable target => exact ⟨_, _, by rw [Ty.tokens]; rfl, by decide⟩
  | reference lifetime mutable target => exact ⟨_, _, by simp only [Ty.tokens]; rfl, by decide⟩
  | tuple elems trailing => exact ⟨_, _, by rw [Ty.tokens]; rfl, rfl⟩
  | group inner => simp [Ty.isPlain] at h
  | array elem length => simp [Ty.isPlain] at h
  | invocation path delimiter arguments => simp [Ty.isPlain] at h
  | verbatim tokens => simp [Ty.isPlain] at h

/-- Only a type inside angle brackets stands behind an angle bracket at the start of a type. -/
theorem Ty.exists_of_tokens_eq_angle {plus joint : Bool} {t : Ty} (h : t.isPlain plus = true)
    {us : Tokens} (ht : t.tokens = .punct '<' joint :: us) :
    ∃ self rest, Ty.isPlain true self = true ∧ us = self.tokens ++ rest := by
  cases t with
  | qualified self rooted trait rest =>
      simp only [Ty.isPlain, Bool.and_eq_true] at h
      rw [Ty.tokens] at ht
      simp only [List.append_assoc] at ht
      exact ⟨self, _, h.1.1.1.1, (List.cons.inj ht).2.symm⟩
  | function qualifiers params trailing rest result =>
      obtain ⟨i, vs, htokens, -⟩ := Ty.exists_function_tokens h
      rw [htokens] at ht
      cases ht
  | path rooted segments =>
      simp only [Ty.isPlain, Bool.and_eq_true] at h
      rw [Ty.tokens] at ht
      cases rooted with
      | true => cases ht
      | false =>
          obtain ⟨i, vs, htokens, -⟩ := Segment.exists_pathTokens_eq_cons h.1 h.2
          rw [htokens] at ht
          cases ht
  | object keyword bounds trailing =>
      simp only [Ty.isPlain, Bool.and_eq_true] at h
      obtain ⟨⟨⟨⟨rfl, -⟩, -⟩, -⟩, -⟩ := h
      rw [Ty.tokens] at ht
      cases ht
  | slice elem | implTrait bounds trailing | infer | never | paren inner | pointer mutable target
    | reference lifetime mutable target | tuple elems trailing =>
      simp only [Ty.tokens] at ht
      cases ht
  | group inner => simp [Ty.isPlain] at h
  | array elem length => simp [Ty.isPlain] at h
  | invocation path delimiter arguments => simp [Ty.isPlain] at h
  | verbatim tokens => simp [Ty.isPlain] at h

namespace Token

variable {t : Token}

theorem not_isMark_of_startsType (h : t.startsType = true) {c : Char}
    (hc : (punct c true).startsType = false) : t.isMark c = false := by
  cases t with
  | punct d joint =>
      rw [isMark, beq_eq_false_iff_ne]
      rintro rfl
      cases joint with
      | true => exact absurd (h.symm.trans hc) (by decide)
      | false =>
          simp only [startsType, Bool.and_false, Bool.and_true, Bool.false_or,
            Bool.or_eq_false_iff] at h hc
          simp_all
  | ident i => rfl
  | literal s => rfl
  | opening d => rfl
  | closing d => rfl

theorem not_isWord_of_startsType (h : t.startsType = true) {w : Text}
    (hw : keywords.contains w = true) (hws : typeWords.contains w = false) :
    t.isWord w = false := by
  cases t with
  | ident i => exact Ident.isPlain_eq_false h hw hws
  | punct c joint => rfl
  | literal s => rfl
  | opening d => rfl
  | closing d => rfl

theorem not_isClosing_of_startsType (h : t.startsType = true) : t.isClosing = false := by
  cases t with
  | closing d => cases h
  | ident i => rfl
  | punct c joint => rfl
  | literal s => rfl
  | opening d => rfl

end Token

theorem Tokens.exists_of_isMark {ts : Tokens} {c : Char}
    (h : ts.head?.any (Token.isMark c) = true) : ∃ joint us, ts = .punct c joint :: us := by
  cases ts with
  | nil => cases h
  | cons t ts =>
      cases t with
      | punct d joint =>
          obtain rfl : c = d := beq_iff_eq.mp h
          exact ⟨joint, ts, rfl⟩
      | ident i => cases h
      | literal s => cases h
      | opening d => cases h
      | closing d => cases h

namespace Ahead

variable {ts : Tokens} {ls : List Lexeme}

/-- No operator of two characters or more is seen where those behind its first one are missing. -/
theorem op_cons_eq_false {c d : Char} {joint : Bool} {cs : Text}
    (h : Glued (.punct c joint :: ts) (Lexeme.tokens ls))
    (hnext : ∀ rest, Glued ts (Lexeme.tokens rest) → op (d :: cs) rest = false) :
    op (c :: d :: cs) ls = false := by
  obtain ⟨joint', span, rest, rfl, -, -, hrest⟩ := h.exists_punct
  simp only [op, hnext rest hrest, Bool.and_false]

/-- Behind a punctuation character that is no quote, the next token stands. -/
theorem skip_punct {c : Char} {joint : Bool} (hc : c ≠ '\'')
    (h : Glued (.punct c joint :: ts) (Lexeme.tokens ls)) : Glued ts (Lexeme.tokens (skip ls)) := by
  obtain ⟨joint', span, rest, rfl, -, -, hrest⟩ := h.exists_punct
  have hskip : skip (⟨.punct c joint', span⟩ :: rest) = rest := by
    simp only [skip]
    split <;> simp_all
  rwa [hskip]

theorem skip_ident {i : Ident} (h : Glued (.ident i :: ts) (Lexeme.tokens ls)) :
    Glued ts (Lexeme.tokens (skip ls)) := by
  obtain ⟨span, rest, rfl, hrest⟩ := h.exists_ident
  exact hrest

theorem skip_lifetime {i : Ident} (h : Glued (Tokens.lifetime i ++ ts) (Lexeme.tokens ls)) :
    Glued ts (Lexeme.tokens (skip ls)) := by
  obtain ⟨joint, span, rest, rfl, hjoint, -, hrest⟩ := h.exists_punct
  obtain ⟨span', rest', rfl, hrest'⟩ := hrest.exists_ident
  rw [hjoint rfl]
  exact hrest'

theorem skipTwo_colons (h : Glued (Tokens.op "::" ++ ts) (Lexeme.tokens ls)) :
    Glued ts (Lexeme.tokens (skipTwo ls)) :=
  skip_punct (by decide) (skip_punct (by decide) h)

end Ahead

/-! ## Paths -/

namespace Rules

open EnumTags.Parser

variable {ts : Tokens} {ls : List Lexeme}

/-- Angle brackets are seen where a list of arguments begins. -/
theorem startsAngle_angle {joint : Bool} (h : Glued (.punct '<' joint :: ts) (Lexeme.tokens ls))
    (heq : ts.head?.any (Token.isMark '=') = false)
    (hshift : ∀ joint us, ts = .punct '<' joint :: us → us.head?.any (Token.isMark '=') = false) :
    startsAngle false ls = true := by
  have hopen : Ahead.op "<" ls = true := Ahead.op_glued h '<'
  have hle : Ahead.op "<=" ls = false :=
    Ahead.op_cons_eq_false h fun _ hrest => Ahead.op_eq_false hrest heq []
  have hshl : Ahead.op "<<=" ls = false := by
    refine Ahead.op_cons_eq_false h fun rest hrest => ?_
    cases hangle : ts.head?.any (Token.isMark '<') with
    | false => exact Ahead.op_eq_false hrest hangle ['=']
    | true =>
        obtain ⟨joint', us, rfl⟩ := Tokens.exists_of_isMark hangle
        exact Ahead.op_cons_eq_false hrest fun _ hus =>
          Ahead.op_eq_false hus (hshift joint' us rfl) []
  simp only [startsAngle, hopen, hle, hshl, Bool.not_false, Bool.and_self, Bool.true_or]

theorem startsAngle_colons {joint : Bool}
    (h : Glued (Tokens.op "::" ++ .punct '<' joint :: ts) (Lexeme.tokens ls)) :
    startsAngle false ls = true := by
  have hcolons : Ahead.op "::" ls = true := (Ahead.op_written (by decide) h).1
  have hopen : Ahead.op "<" (Ahead.skipTwo ls) = true :=
    Ahead.op_glued (Ahead.skipTwo_colons h) '<'
  simp only [startsAngle, hcolons, hopen, Bool.and_self, Bool.or_true]

/-- No arguments are seen where neither an angle bracket nor a colon stands. -/
theorem startsAngle_eq_false (h : Glued ts (Lexeme.tokens ls))
    (hangle : ts.head?.any (Token.isMark '<') = false)
    (hcolon : ts.head?.any (Token.isMark ':') = false) : startsAngle false ls = false := by
  have hopen : Ahead.op "<" ls = false := Ahead.op_eq_false h hangle []
  have hcolons : Ahead.op "::" ls = false := Ahead.op_eq_false h hcolon [':']
  simp only [startsAngle, hopen, hcolons, Bool.and_false, Bool.false_and, Bool.or_self]

/-- No arguments are seen where the path goes on with another name. -/
theorem startsAngle_path {i : Ident}
    (h : Glued (Tokens.op "::" ++ .ident i :: ts) (Lexeme.tokens ls)) :
    startsAngle false ls = false := by
  have hopen : Ahead.op "<" ls = false := Ahead.op_eq_false h rfl []
  have hbehind : Ahead.op "<" (Ahead.skipTwo ls) = false :=
    Ahead.op_eq_false (Ahead.skipTwo_colons h) rfl []
  simp only [startsAngle, hopen, hbehind, Bool.and_false, Bool.false_and, Bool.or_self]

/-- What is taken for granted of the types inside a type whose tokens are at most `depth`: plain
types are read unless a label stands before a path in them. A label before a path is no type, and a
hole is one if anything is read. -/
structure Knows (r : Rules) (depth : Nat) : Prop where
  plain : ∀ {t : Ty} {plus : Bool} {rest : Tokens}, t.isPlain plus = true →
    t.tokens.length ≤ depth → rest.endsType plus = true →
      Reads (r.ty plus) (t.tokens ++ rest) t.colonsApart t rest
  label : ∀ {i : Ident} {ts us : Tokens} {t : Ty}, (i.isName || i.isPlain "self") = true →
    ts.startsPath = true → Reads (r.ty true) (.ident i :: .punct ':' false :: ts) false t us
  hole : ∀ {i : Ident} {ts : Tokens}, i.isPlain "_" = true →
    ∃ ok, Reads (r.ty true) (.ident i :: ts) ok .infer ts

end Rules

/-! ## Arguments -/

/-- Whether an argument can end before these tokens. -/
def Tokens.endsArgument (ts : Tokens) : Bool :=
  ts.head?.any fun t => t.isMark ',' || t.isMark '>'

theorem Tokens.endsType_of_endsArgument {ts : Tokens} (h : ts.endsArgument = true) :
    ts.endsType true = true := by
  cases ts with
  | nil => rfl
  | cons t ts =>
      cases t with
      | punct c joint =>
          simp only [endsArgument, List.head?_cons, Option.any_some, Token.isMark, Bool.or_eq_true,
            beq_iff_eq] at h
          rcases h with rfl | rfl <;> rfl
      | ident i => cases h
      | literal s => cases h
      | opening d => cases h
      | closing d => cases h

theorem Tokens.not_isMark_of_endsArgument {ts : Tokens} (h : ts.endsArgument = true) :
    ts.head?.any (Token.isMark '=') = false := by
  cases ts with
  | nil => rfl
  | cons t ts =>
      cases t with
      | punct c joint =>
          simp only [endsArgument, List.head?_cons, Option.any_some, Token.isMark, Bool.or_eq_true,
            beq_iff_eq] at h
          rcases h with rfl | rfl <;> rfl
      | ident i => rfl
      | literal s => rfl
      | opening d => rfl
      | closing d => rfl

namespace Rules

open EnumTags.Parser

variable {r : Rules} {depth : Nat}

/-- Where a type begins, neither a lifetime nor a literal stands. -/
theorem argumentTests_of_startsType {t : Token} {ts : Tokens} {ls : List Lexeme}
    (ht : t.startsType = true) (h : Glued (t :: ts) (Lexeme.tokens ls)) :
    Ahead.lifetime ls = false ∧ Ahead.literal ls = false ∧ Ahead.opens .brace ls = false := by
  refine ⟨Ahead.lifetime_eq_false h (Token.not_isMark_of_startsType ht (by decide)), ?_, ?_⟩
  · cases t with
    | ident i =>
        have htrue : i.isPlain "true" = false := Ident.isPlain_eq_false ht (by decide) (by decide)
        have hfalse : i.isPlain "false" = false := Ident.isPlain_eq_false ht (by decide) (by decide)
        obtain ⟨span, rest, rfl, -⟩ := h.exists_ident
        simp only [Ahead.literal, Ahead.literal?, htrue, hfalse, Bool.or_self, Bool.false_eq_true,
          if_false, Option.isSome_none]
    | punct c joint =>
        have hminus : '-' ≠ c := beq_eq_false_iff_ne.mp
          (Token.not_isMark_of_startsType ht (by decide) : (Token.punct c joint).isMark '-' = false)
        obtain ⟨joint', span, rest, rfl, -⟩ := h.exists_punct
        rw [Ahead.literal, Ahead.literal?.eq_def]
        split <;> simp_all
    | opening d =>
        obtain ⟨span, rest, rfl, -⟩ := h.exists_opening
        rfl
    | literal s => cases ht
    | closing d => cases ht
  · rw [Ahead.opens_glued h]
    cases t with
    | opening d => cases d <;> first | rfl | cases ht
    | ident i => rfl
    | punct c joint => rfl
    | literal s => rfl
    | closing d => rfl

/-- A type that nothing but the end of the argument follows is the whole argument. -/
theorem reads_typeArgument {bound : Parser Bound} {ty : Ty} {rest : Tokens}
    (hrest : rest.endsType true = true) (heq : rest.head?.any (Token.isMark '=') = false) :
    Reads (match ty with
      | .path false [.mk head .none] => assocArgument r bound head .none
      | .path false [.mk head (.angle colons args trailing)] =>
        assocArgument r bound head (.angle colons args trailing)
      | ty => return .type ty) rest true (.type ty) rest := by
  have hassoc : ∀ head generics, Reads (assocArgument r bound head generics) rest true
      (.type (.path false [.mk head generics])) rest := by
    intro head generics
    refine Reads.of_peek (fun ls hls => Ahead.op_eq_false hls heq []) ?_
    refine Reads.of_peek (fun ls hls => Ahead.op_eq_false hls
      (Tokens.not_isMark_of_endsType hrest rfl) []) ?_
    exact Reads.pure _ _
  split
  · exact hassoc _ _
  · exact hassoc _ _
  · exact Reads.pure _ _

theorem Knows.argument (hr : r.Knows depth) (bound : Parser Bound) {arg : Argument}
    (h : arg.isPlain = true) (hlength : arg.tokens.length ≤ depth) {rest : Tokens}
    (hrest : rest.endsArgument = true) :
    Reads (argumentWith r bound) (arg.tokens ++ rest) arg.isApart arg rest := by
  have hends := Tokens.endsType_of_endsArgument hrest
  have heq := Tokens.not_isMark_of_endsArgument hrest
  cases arg with
  | lifetime l =>
      refine Reads.of_rest fun ls hls => ?_
      have hlifetime : Ahead.lifetime ls = true := Ahead.lifetime_quote hls
      have hplus : Ahead.op "+" (Ahead.skip ls) = false :=
        Ahead.op_eq_false (Ahead.skip_lifetime hls) (Tokens.not_isMark_of_endsType hends rfl) []
      simp only [hlifetime, hplus, Bool.not_false, Bool.and_self, if_true]
      exact (Reads.lifetime l rest).bind_pure
  | type ty =>
      simp only [Argument.isPlain, Argument.arePlain, Bool.and_true] at h
      obtain ⟨u, us, htokens, hu⟩ := Ty.exists_tokens_eq_cons ty h
      have happart : (Argument.type ty).isApart = ty.colonsApart := by
        simp [Argument.isApart, Argument.colonsApart]
      refine Reads.of_rest fun ls hls => ?_
      rw [Argument.tokens, htokens, List.cons_append] at hls
      obtain ⟨hlifetime, hliteral, hbrace⟩ := argumentTests_of_startsType hu hls
      simp only [hlifetime, hliteral, hbrace, Bool.false_and, Bool.or_self, Bool.false_eq_true,
        if_false]
      rw [happart]
      exact (hr.plain h hlength hends).finish (reads_typeArgument hends heq)
  | const value =>
      simp only [Argument.isPlain, Argument.arePlain, Bool.and_true] at h
      split at h
      · rename_i s
        have hliteral : ∀ ls, Glued (.literal s :: rest) (Lexeme.tokens ls) →
            Ahead.literal ls = true := by
          intro ls hls
          obtain ⟨span, rest', rfl, -⟩ := hls.exists_same fun _ => rfl
          rfl
        refine Reads.of_rest fun ls hls => ?_
        have hlifetime : Ahead.lifetime ls = false := Ahead.lifetime_eq_false hls rfl
        simp only [hlifetime, hliteral ls hls, Bool.false_and, Bool.true_or, Bool.false_eq_true,
          if_false, if_true]
        refine Reads.bind_pure (Reads.of_rest fun ls hls => ?_)
        simp only [hliteral ls hls, if_true]
        exact Reads.literal s rest
      · cases h
  | assocType name generics ty =>
      simp only [Argument.isPlain, Argument.arePlain, Bool.and_true, Bool.and_eq_true] at h
      obtain ⟨⟨hname, hgenerics⟩, hty⟩ := h
      have happart : (Argument.assocType name generics ty).isApart =
          (generics.colonsApart && ty.colonsApart) := by
        simp [Argument.isApart, Argument.colonsApart]
      have htokens : (Argument.assocType name generics ty).tokens ++ rest =
          Ty.tokens (.path false [.mk name generics]) ++ (Tokens.op "=" ++ (ty.tokens ++ rest)) := by
        simp [Argument.tokens, Ty.tokens, Segment.pathTokens]
      have hpath : (Ty.path false [.mk name generics]).isPlain true = true := by
        simp [Ty.isPlain, Segment.arePlain, Ident.isSegment, Ident.takesArguments, hname, hgenerics]
      have hpathApart : (Ty.path false [.mk name generics]).colonsApart = generics.colonsApart := by
        simp [Ty.colonsApart, Segment.colonsApart]
      have hlengths : (Ty.tokens (.path false [.mk name generics])).length ≤ depth ∧
          ty.tokens.length ≤ depth := by
        have hsum := congrArg List.length htokens
        simp only [List.length_append] at hsum
        omega
      obtain ⟨u, us, hhead, hu⟩ := Ty.exists_tokens_eq_cons _ hpath
      obtain ⟨v, vs, hvalue, hv⟩ := Ty.exists_tokens_eq_cons ty hty
      rw [htokens, happart, ← hpathApart]
      refine Reads.of_rest fun ls hls => ?_
      rw [hhead, List.cons_append] at hls
      obtain ⟨hlifetime, hliteral, hbrace⟩ := argumentTests_of_startsType hu hls
      simp only [hlifetime, hliteral, hbrace, Bool.false_and, Bool.or_self, Bool.false_eq_true,
        if_false]
      refine (hr.plain hpath hlengths.1 rfl).bind fun _ => ?_
      have hassoc : Reads (assocArgument r bound name generics)
          (Tokens.op "=" ++ (ty.tokens ++ rest)) ty.colonsApart (.assocType name generics ty)
          rest := by
        refine Reads.of_peek (fun ls hls => (Ahead.op_written (by decide) hls).1) ?_
        have hvalueTest : ∀ ls, Glued (ty.tokens ++ rest) (Lexeme.tokens ls) →
            (Ahead.literal ls || Ahead.opens .brace ls) = false := by
          intro ls hls
          rw [hvalue, List.cons_append] at hls
          obtain ⟨-, hliteral, hbrace⟩ := argumentTests_of_startsType hv hls
          simp only [hliteral, hbrace, Bool.or_self]
        exact (Reads.op (by decide) _).next
          (Reads.of_peek hvalueTest (hr.plain hty hlengths.2 hends).bind_pure)
      cases generics with
      | none => exact hassoc
      | angle colons args trailing => exact hassoc
      | paren tys trailing result => simp [Arguments.isPlain] at hgenerics
  | assocConst name generics value => simp [Argument.isPlain, Argument.arePlain] at h
  | constraint name generics bounds trailing => simp [Argument.isPlain, Argument.arePlain] at h

end Rules

/-! ## Segments -/

theorem Argument.head_tokens {arg : Argument} (h : arg.isPlain = true) :
    ∃ u us, arg.tokens = u :: us ∧ u.isMark '>' = false ∧ u.isMark '=' = false ∧
      (∀ joint rest, u = .punct '<' joint → (us ++ rest).head?.any (Token.isMark '=') = false) := by
  cases arg with
  | lifetime l => exact ⟨_, _, rfl, rfl, rfl, fun _ _ hu => nomatch hu⟩
  | type ty =>
      simp only [Argument.isPlain, Argument.arePlain, Bool.and_true] at h
      obtain ⟨u, us, htokens, hu⟩ := Ty.exists_tokens_eq_cons ty h
      refine ⟨u, us, htokens, Token.not_isMark_of_startsType hu rfl,
        Token.not_isMark_of_startsType hu rfl, ?_⟩
      rintro joint rest rfl
      obtain ⟨self, vs, hself, rfl⟩ := Ty.exists_of_tokens_eq_angle h htokens
      obtain ⟨v, ws, hvalue, hv⟩ := Ty.exists_tokens_eq_cons self hself
      rw [hvalue]
      exact Token.not_isMark_of_startsType hv rfl
  | const value =>
      simp only [Argument.isPlain, Argument.arePlain, Bool.and_true] at h
      split at h
      · exact ⟨_, _, rfl, rfl, rfl, fun _ _ hu => nomatch hu⟩
      · cases h
  | assocType name generics ty => exact ⟨_, _, rfl, rfl, rfl, fun _ _ hu => nomatch hu⟩
  | assocConst name generics value => simp [Argument.isPlain, Argument.arePlain] at h
  | constraint name generics bounds trailing => simp [Argument.isPlain, Argument.arePlain] at h

namespace Rules

open EnumTags.Parser

variable {r : Rules} {depth : Nat}

/-- A parser for plain arguments of at most `depth` tokens. -/
def ReadsArguments (argument : Parser Argument) (depth : Nat) : Prop :=
  ∀ {arg : Argument} {us : Tokens}, arg.isPlain = true → arg.tokens.length ≤ depth →
    us.endsArgument = true → Reads argument (arg.tokens ++ us) arg.isApart arg us

/-- Plain arguments in angle brackets, taken apart. -/
theorem angle_tokens_append (colons trailing : Bool) {args : List Argument}
    (h : Argument.arePlain true args = true) (rest : Tokens) :
    (Arguments.angle colons args trailing).tokens ++ rest =
      (if colons then Tokens.op "::" else []) ++ (Tokens.op "<" ++
        (Listed.joined (Tokens.op ",") (args.map Argument.tokens) trailing ++
          (Tokens.op ">" ++ rest))) := by
  rw [Arguments.tokens, lifetimesFirst_of_lead (Argument.lifetimesLead_tokenLists h),
    Argument.map_snd_tokenLists]
  simp only [List.append_assoc]

/-- Angle brackets are seen where plain arguments begin. -/
theorem startsAngle_tokens {colons trailing : Bool} {args : List Argument} {rest : Tokens}
    {ls : List Lexeme} (h : (Arguments.angle colons args trailing).isPlain false = true)
    (hls : Glued ((Arguments.angle colons args trailing).tokens ++ rest) (Lexeme.tokens ls)) :
    startsAngle false ls = true := by
  simp only [Arguments.isPlain, Bool.and_eq_true] at h
  rw [angle_tokens_append colons trailing h.1] at hls
  cases colons with
  | true => exact startsAngle_colons hls
  | false =>
      cases args with
      | nil => exact startsAngle_angle hls rfl fun joint us hus => nomatch hus
      | cons arg args =>
          obtain ⟨u, us, hu, -, heq, hshift⟩ :=
            Argument.head_tokens (Argument.isPlain_of_arePlain h.1 arg List.mem_cons_self)
          obtain ⟨more, hmore⟩ := Reads.exists_joined_eq (Tokens.op ",") arg.tokens
            (args.map Argument.tokens) trailing
          rw [List.map_cons, hmore, hu, List.cons_append, List.cons_append] at hls
          refine startsAngle_angle hls heq fun joint vs hvs => ?_
          obtain ⟨rfl, rfl⟩ := List.cons.inj hvs
          rw [List.append_assoc]
          exact hshift joint _ rfl

theorem reads_angle {argument : Parser Argument} {depth : Nat}
    (hargument : ReadsArguments argument depth) {colons trailing : Bool} {args : List Argument}
    (h : (Arguments.angle colons args trailing).isPlain false = true)
    (hlength : (Arguments.angle colons args trailing).tokens.length ≤ depth) {rest : Tokens} :
    Reads (angle argument) ((Arguments.angle colons args trailing).tokens ++ rest)
      (Argument.colonsApart args) (.angle colons args trailing) rest := by
  simp only [Arguments.isPlain, Bool.and_eq_true] at h
  obtain ⟨hargs, htrailing⟩ := h
  have hplain := Argument.isPlain_of_arePlain hargs
  have hrule : Reads.ListRule (Ahead.op ">") "," argument Argument.tokens Argument.isApart args
      (Tokens.op ">" ++ rest) := by
    constructor
    · intro arg harg us hus
      have hmem := Reads.length_le_joined_of_mem (Tokens.op ",")
        (List.mem_map_of_mem (f := Argument.tokens) harg) trailing
      refine hargument (hplain arg harg) ?_ ?_
      · have hsum := congrArg List.length (angle_tokens_append colons trailing hargs [])
        simp only [List.length_append, List.length_nil] at hsum
        omega
      · rcases hus with rfl | ⟨vs, rfl⟩ <;> rfl
    · intro arg harg us ls hls
      obtain ⟨u, vs, hu, hmark, -⟩ := Argument.head_tokens (hplain arg harg)
      rw [hu, List.cons_append] at hls
      exact Ahead.op_eq_false hls hmark []
    · intro us ls hls
      exact Ahead.op_eq_false hls rfl []
    · intro ls hls
      exact (Ahead.op_written (by decide) hls).1
  have hne : ∀ arg ∈ args, arg.tokens ≠ [] := by
    intro arg harg
    obtain ⟨u, vs, hu, -⟩ := Argument.head_tokens (hplain arg harg)
    rw [hu]
    exact List.cons_ne_nil u vs
  have hempty : args = [] → trailing = true := by
    rintro rfl
    simpa using htrailing
  have hlist := Reads.listUntil (by decide) hrule hne hempty
  rw [angle_tokens_append colons trailing hargs, Argument.colonsApart_eq_all]
  refine (Reads.opIf fun _ => rfl).next ?_
  refine (Reads.op (by decide) _).next ?_
  refine hlist.finish ?_
  refine (Reads.op (by decide) _).next ?_
  cases colons <;> exact Reads.pure _ _

end Rules

theorem Ahead.anyWord_ident {i : Ident} {ts : Tokens} {ls : List Lexeme}
    (h : Glued (.ident i :: ts) (Lexeme.tokens ls)) (ws : List Text) :
    Ahead.anyWord ws ls = ws.any (i.isPlain ·) := by
  obtain ⟨span, rest, rfl, -⟩ := h.exists_ident
  rfl

namespace Rules

open EnumTags.Parser

variable {argument : Parser Argument} {depth : Nat}

theorem any_isPlain_eq_false {i : Ident} {ws vs : List Text}
    (h : (i.isName || ws.any (i.isPlain ·)) = true)
    (hvs : ∀ v ∈ vs, keywords.contains v = true ∧ ws.contains v = false) :
    vs.any (i.isPlain ·) = false := by
  rw [List.any_eq_false]
  intro v hv
  rw [Ident.isPlain_eq_false h (hvs v hv).1 (hvs v hv).2]
  exact Bool.false_ne_true

/-- A segment that can have arguments. -/
theorem reads_segment_of_takesArguments (hargument : ReadsArguments argument depth) {i : Ident}
    {arguments : Arguments} (hi : i.takesArguments = true)
    (harguments : arguments.isPlain false = true) (hlength : arguments.tokens.length ≤ depth)
    {rest : Tokens} (hrest : ∀ ls, Glued rest (Lexeme.tokens ls) → startsAngle false ls = false) :
    Reads (Rules.segment argument false) (.ident i :: (arguments.tokens ++ rest))
      arguments.colonsApart (.mk i arguments) rest := by
  have hwords : (i.isName || ["Self".toList].any (i.isPlain ·)) = true := by
    simpa only [Ident.takesArguments, List.any_cons, List.any_nil, Bool.or_false] using hi
  have hspecial : ["super".toList, "self", "crate", "try"].any (i.isPlain ·) = false :=
    any_isPlain_eq_false hwords (by decide)
  have hbehind : Reads (do
      if ← peek (startsAngle false) then return Segment.mk i (← angle argument)
      else return .mk i .none)
      (arguments.tokens ++ rest) arguments.colonsApart (.mk i arguments) rest := by
    cases arguments with
    | none =>
        rw [Arguments.tokens, Arguments.colonsApart]
        exact Reads.of_peek hrest (Reads.pure _ _)
    | paren tys trailing result => simp [Arguments.isPlain] at harguments
    | angle colons args trailing =>
        rw [Arguments.colonsApart]
        exact Reads.of_peek (fun ls hls => startsAngle_tokens harguments hls)
          (reads_angle hargument harguments hlength).bind_pure
  refine Reads.of_peek (fun ls hls => (Ahead.anyWord_ident hls _).trans hspecial) ?_
  cases hself : i.isPlain "Self" with
  | true =>
      exact Reads.of_peek (fun ls hls => (Ahead.word_glued hls _).trans hself)
        ((Reads.anyIdent i _).next hbehind)
  | false =>
      rw [Ident.takesArguments, hself, Bool.or_false] at hi
      exact Reads.of_peek (fun ls hls => (Ahead.word_glued hls _).trans hself)
        ((Reads.name hi _).next hbehind)

theorem reads_segment (hargument : ReadsArguments argument depth) {segment : Segment}
    (h : segment.isPlain false = true) (hlength : segment.tokens.length ≤ depth + 1) {rest : Tokens}
    (hrest : ∀ ls, Glued rest (Lexeme.tokens ls) → startsAngle false ls = false) :
    Reads (Rules.segment argument false) (segment.tokens ++ rest) segment.isApart segment rest := by
  obtain ⟨i, arguments⟩ := segment
  simp only [Segment.isPlain, Bool.and_eq_true] at h
  obtain ⟨⟨hsegment, harguments⟩, htakes⟩ := h
  cases hi : i.takesArguments with
  | true =>
      refine reads_segment_of_takesArguments hargument hi harguments ?_ hrest
      simp only [Segment.tokens, Tokens.ofIdent, List.length_append,
        List.length_singleton] at hlength
      omega
  | false =>
      have hnone : arguments.isNone = true := by simpa [hi] using htakes
      cases arguments with
      | none =>
          have hspecial : ["super".toList, "self", "crate", "try"].any (i.isPlain ·) = true := by
            rw [Ident.takesArguments, Bool.or_eq_false_iff] at hi
            rw [Ident.isSegment, hi.1, Bool.false_or] at hsegment
            simp only [pathWords, List.any_cons, List.any_nil, hi.2, Bool.false_or, Bool.or_false,
              Bool.or_eq_true] at hsegment ⊢
            rcases hsegment with hword | hword | hword <;> simp only [hword, true_or, or_true]
          simp only [Segment.isApart, Arguments.colonsApart, Segment.tokens, Arguments.tokens]
          exact Reads.of_peek (fun ls hls => (Ahead.anyWord_ident hls _).trans hspecial)
            (Reads.anyIdent i rest).bind_pure
      | angle colons args trailing => cases hnone
      | paren tys trailing result => cases hnone

end Rules

end EnumTags

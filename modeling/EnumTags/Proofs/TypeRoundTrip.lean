import EnumTags.Proofs.FunctionReading

/-!
# Types survive the trip through text

A plain type is read back from its compact text, with one exception: where the label of a parameter
stands directly before the two colons of a path, the three colons are read differently, and the text
is no type at all.

## Main results

* `Rules.knows_nested`: what the nested rules read.
* `Ty.ofText?_compact`: what is read from the compact text of a plain type.
-/

namespace EnumTags

namespace Reads

variable {α : Type} {p q : Parser α} {ts us : Tokens} {ok : Bool} {a : α}

/-! ## Telling forms apart by the first token -/

theorem congr_opening {d : Delimiter} (hq : Reads q (.opening d :: ts) ok a us)
    (h : ∀ span rest spill,
      p ⟨⟨.opening d, span⟩ :: rest, spill⟩ = q ⟨⟨.opening d, span⟩ :: rest, spill⟩) :
    Reads p (.opening d :: ts) ok a us := by
  refine congr (fun ls spill hls => ?_) hq
  obtain ⟨span, rest, rfl, -⟩ := hls.exists_opening
  exact h span rest spill

theorem congr_punct {c : Char} {joint : Bool} (hq : Reads q (.punct c joint :: ts) ok a us)
    (h : ∀ joint span rest spill,
      p ⟨⟨.punct c joint, span⟩ :: rest, spill⟩ = q ⟨⟨.punct c joint, span⟩ :: rest, spill⟩) :
    Reads p (.punct c joint :: ts) ok a us := by
  refine congr (fun ls spill hls => ?_) hq
  obtain ⟨joint', span, rest, rfl, -⟩ := hls.exists_punct
  exact h joint' span rest spill

theorem congr_ident {i : Ident} (hq : Reads q (.ident i :: ts) ok a us)
    (h : ∀ span rest spill,
      p ⟨⟨.ident i, span⟩ :: rest, spill⟩ = q ⟨⟨.ident i, span⟩ :: rest, spill⟩) :
    Reads p (.ident i :: ts) ok a us := by
  refine congr (fun ls spill hls => ?_) hq
  obtain ⟨span, rest, rfl, -⟩ := hls.exists_ident
  exact h span rest spill

end Reads

namespace Rules

open EnumTags.Parser

variable {r : Rules} {depth : Nat} {plus ok : Bool} {t : Ty} {ts us : Tokens}

/-- Two colons begin a path. -/
theorem reads_anyType_colons (h : Reads (pathType r plus none) (Tokens.op "::" ++ ts) ok t us) :
    Reads (anyType r plus) (Tokens.op "::" ++ ts) ok t us := by
  refine Reads.of_rest fun ls hls => ?_
  have hword : ∀ w, Ahead.word w ls = false := fun w => Ahead.word_glued hls w
  have hparen : Ahead.opens .paren ls = false := Ahead.opens_glued hls _
  have hcolons : Ahead.op "::" ls = true := (Ahead.op_written (by decide) hls).1
  simp only [startsFn, Ahead.anyWord, startsBuiltin, hword, hparen, hcolons, List.any_cons,
    List.any_nil, Bool.or_false, Bool.or_true, Bool.false_and, Bool.true_or, Bool.false_eq_true,
    if_false, if_true]
  exact h

theorem reads_anyType_infer {i : Ident} (hi : i.isPlain "_" = true) :
    Reads (anyType r plus) (.ident i :: ts) true .infer ts := by
  obtain rfl : i = .plain "_" := Ident.eq_of_isPlain hi (by decide)
  have hword := (Reads.word hi ts).bind_pure (f := fun _ => Ty.infer)
  exact hword.congr_ident fun _ _ _ => rfl

theorem reads_anyType_fn {i : Ident} (hi : fnWords.any (i.isPlain ·) = true)
    (h : Reads (fnType r []) (.ident i :: ts) ok t us) :
    Reads (anyType r plus) (.ident i :: ts) ok t us := by
  have hfor : i.isPlain "for" = false := by
    have hwords : (i.isName || fnWords.any (i.isPlain ·)) = true := by rw [hi, Bool.or_true]
    exact Ident.isPlain_eq_false hwords (by decide) (by decide)
  refine Reads.of_rest fun ls hls => ?_
  have hword : Ahead.word "for" ls = false := (Ahead.word_glued hls _).trans hfor
  have hparen : Ahead.opens .paren ls = false := Ahead.opens_glued hls _
  have hfn : startsFn ls = true := (Ahead.anyWord_ident hls _).trans hi
  simp only [hword, hparen, hfn, Bool.false_eq_true, if_false, if_true]
  exact h

/-- A segment begins a path, unless a number sign behind it makes it a form of the compiler. -/
theorem reads_anyType_segment {i : Ident} (hi : i.isSegment = true)
    (hts : ts.head?.any (Token.isMark '#') = false)
    (h : Reads (pathType r plus none) (.ident i :: ts) ok t us) :
    Reads (anyType r plus) (.ident i :: ts) ok t us := by
  refine Reads.of_rest fun ls hls => ?_
  have hword : Ahead.word "for" ls = false :=
    (Ahead.word_glued hls _).trans (Ident.isPlain_eq_false hi (by decide) (by decide))
  have hparen : Ahead.opens .paren ls = false := Ahead.opens_glued hls _
  have hfn : startsFn ls = false :=
    (Ahead.anyWord_ident hls _).trans (any_isPlain_eq_false hi (by decide))
  have hbuiltin : startsBuiltin ls = false := by
    have hsign : Ahead.op "#" (Ahead.skip ls) = false :=
      Ahead.op_eq_false (Ahead.skip_ident hls) hts []
    rw [startsBuiltin, hsign, Bool.and_false]
  have hsegment : startsSegment ls = true := by
    rw [startsSegment, Ahead.name_glued hls, Ahead.anyWord_ident hls]
    exact hi
  simp only [hword, hparen, hfn, hbuiltin, hsegment, Bool.true_or, Bool.false_eq_true, if_false,
    if_true]
  exact h

/-! ## Paths -/

theorem Knows.pathType_path (hr : r.Knows depth) (rooted : Bool) {path : List Segment}
    (hne : path ≠ []) (h : Segment.arePlain false path = true)
    (hlength : (Segment.pathTokens path).length ≤ depth + 1) {rest : Tokens}
    (hrest : rest.endsType plus = true) :
    Reads (pathType r plus none)
      ((if rooted then Tokens.op "::" else []) ++ (Segment.pathTokens path ++ rest))
      (Segment.colonsApart path) (.path rooted path) rest := by
  have hends := Tokens.endsType_false hrest
  refine (hr.typePath_path hne h hlength (Tokens.not_isMark_of_endsType hends rfl)
    (Tokens.not_isMark_of_endsType hends rfl)).finish ?_
  refine Reads.of_rest fun ls hls => ?_
  have hbang : Ahead.op "!" ls = false :=
    Ahead.op_eq_false hls (Tokens.not_isMark_of_endsType hends rfl) []
  have hplus : (plus && Ahead.op "+" ls) = false := by
    cases plus with
    | false => rfl
    | true => exact Ahead.op_eq_false hls (Tokens.not_isMark_of_endsType hrest rfl) []
  simp only [hbang, hplus, Option.isSome_none, Bool.false_and, Bool.or_self, Bool.false_eq_true,
    if_false]
  exact Reads.pure _ _

theorem Knows.anyType_path (hr : r.Knows depth) {rooted : Bool} {path : List Segment}
    (h : (Ty.path rooted path).isPlain plus = true)
    (hlength : (Ty.path rooted path).tokens.length ≤ depth + 1) {rest : Tokens}
    (hrest : rest.endsType plus = true) :
    Reads (anyType r plus) ((Ty.path rooted path).tokens ++ rest) (Ty.path rooted path).colonsApart
      (.path rooted path) rest := by
  simp only [Ty.isPlain, Bool.and_eq_true] at h
  obtain ⟨hne, hpath⟩ := h
  rw [Ty.tokens, List.length_append] at hlength
  have hread := hr.pathType_path rooted (by simpa using hne) hpath (by omega) hrest
  rw [Ty.tokens, Ty.colonsApart, List.append_assoc]
  cases rooted with
  | true => exact reads_anyType_colons hread
  | false =>
      obtain ⟨i, us, htokens, hi⟩ := Segment.exists_pathTokens_eq_cons hne hpath
      have hsign : (us ++ rest).head?.any (Token.isMark '#') = false := by
        rcases Segment.tokens_behind_name hpath htokens with rfl | ⟨vs, rfl⟩ | ⟨vs, rfl⟩
        · exact Tokens.not_isMark_of_endsType (Tokens.endsType_false hrest) rfl
        · rfl
        · rfl
      rw [htokens] at hread ⊢
      exact reads_anyType_segment hi hsign hread

theorem Knows.anyType_qualified (hr : r.Knows depth) {self : Ty} {rooted : Bool}
    {trait path : List Segment} (h : (Ty.qualified self rooted trait path).isPlain plus = true)
    (hlength : (Ty.qualified self rooted trait path).tokens.length ≤ depth + 1) {rest : Tokens}
    (hrest : rest.endsType plus = true) :
    Reads (anyType r plus) ((Ty.qualified self rooted trait path).tokens ++ rest)
      (Ty.qualified self rooted trait path).colonsApart (.qualified self rooted trait path)
      rest := by
  have hends := Tokens.endsType_false hrest
  have hpath : Reads (pathType r plus none) ((Ty.qualified self rooted trait path).tokens ++ rest)
      (Ty.qualified self rooted trait path).colonsApart (.qualified self rooted trait path) rest :=
    (hr.typePath_qualified h hlength (Tokens.not_isMark_of_endsType hends rfl)
      (Tokens.not_isMark_of_endsType hends rfl)).finish (Reads.pure _ _)
  rw [qualified_tokens_append] at hpath ⊢
  exact Reads.congr_punct hpath fun _ _ _ _ => rfl

/-! ## Brackets -/

theorem Knows.bracketType (hr : r.Knows depth) {elem : Ty} (h : elem.isPlain true = true)
    (hlength : elem.tokens.length ≤ depth) (rest : Tokens) :
    Reads (Rules.bracketType r) (.opening .bracket :: (elem.tokens ++ .closing .bracket :: rest))
      elem.colonsApart (.slice elem) rest := by
  refine Reads.group (?_ : Reads _ _ _ _ (.closing .bracket :: rest))
  refine (hr.plain h hlength rfl).finish ?_
  exact Reads.of_peek (fun ls hls => Ahead.op_eq_false hls rfl []) (Reads.pure _ _)

/-- In parentheses, nothing but a type can begin with a token that begins one. -/
theorem parenTests_of_startsType {u : Token} {ls : List Lexeme} (hu : u.startsType = true)
    (h : Glued (u :: ts) (Lexeme.tokens ls)) :
    Ahead.atEnd ls = false ∧ Ahead.lifetime ls = false ∧ Ahead.op "?" ls = false :=
  ⟨Ahead.atEnd_eq_false h (Token.not_isClosing_of_startsType hu),
    Ahead.lifetime_eq_false h (Token.not_isMark_of_startsType hu (by decide)),
    Ahead.op_eq_false h (Token.not_isMark_of_startsType hu (by decide)) []⟩

theorem Knows.parenInside_single (hr : r.Knows depth) {inner : Ty} (h : inner.isPlain true = true)
    (hlength : inner.tokens.length ≤ depth) (rest : Tokens) :
    Reads (parenInside r) (inner.tokens ++ .closing .paren :: rest) inner.colonsApart
      (.single inner) (.closing .paren :: rest) := by
  obtain ⟨u, us, htokens, hu⟩ := Ty.exists_tokens_eq_cons inner h
  refine Reads.of_rest fun ls hls => ?_
  rw [htokens, List.cons_append] at hls
  obtain ⟨hend, hlifetime, hquestion⟩ := parenTests_of_startsType hu hls
  simp only [hend, hlifetime, hquestion, Bool.false_eq_true, if_false]
  refine (hr.plain h hlength rfl).finish ?_
  exact Reads.of_peek (fun ls hls => Ahead.op_eq_false hls rfl []) (Reads.pure _ _)

theorem Knows.parenInside_tuple (hr : r.Knows depth) {first : Ty} {more : List Ty} {trailing : Bool}
    (h : Ty.arePlain (first :: more) = true) (hmore : more = [] → trailing = true)
    (hlength :
      (Listed.joined (Tokens.op ",") ((first :: more).map Ty.tokens) trailing).length ≤ depth)
    (rest : Tokens) :
    Reads (parenInside r)
      (Listed.joined (Tokens.op ",") ((first :: more).map Ty.tokens) trailing ++
        .closing .paren :: rest)
      (Ty.allColonsApart (first :: more)) (.whole (.tuple (first :: more) trailing))
      (.closing .paren :: rest) := by
  rw [Ty.arePlain, Bool.and_eq_true] at h
  obtain ⟨u, us, htokens, hu⟩ := Ty.exists_tokens_eq_cons first h.1
  have hlengths : first.tokens.length ≤ depth ∧
      (Listed.joined (Tokens.op ",") (more.map Ty.tokens) trailing).length ≤ depth := by
    have hjoined := congrArg List.length
      (Reads.joined_cons hmore : Listed.joined (Tokens.op ",") ((first :: more).map Ty.tokens)
        trailing ++ [] = _)
    simp only [List.append_nil, List.length_append] at hjoined
    omega
  rw [Reads.joined_cons hmore, Ty.allColonsApart]
  refine Reads.of_rest fun ls hls => ?_
  rw [htokens, List.cons_append] at hls
  obtain ⟨hend, hlifetime, hquestion⟩ := parenTests_of_startsType hu hls
  simp only [hend, hlifetime, hquestion, Bool.false_eq_true, if_false]
  refine (hr.plain h.1 hlengths.1 rfl).bind fun _ => ?_
  refine Reads.of_peek (fun ls hls => (Ahead.op_written (by decide) hls).1) ?_
  refine (Reads.op (by decide) _).next ?_
  exact (hr.tyList h.2 hmore hlengths.2 .paren rest).bind_pure

theorem Knows.anyType_paren (hr : r.Knows depth) {inner : Ty} (h : inner.isPlain true = true)
    (hlength : (Ty.paren inner).tokens.length ≤ depth + 1) {rest : Tokens}
    (hrest : rest.endsType plus = true) :
    Reads (anyType r plus) ((Ty.paren inner).tokens ++ rest) inner.colonsApart (.paren inner)
      rest := by
  rw [Ty.tokens] at hlength ⊢
  simp only [Tokens.enclose, List.length_cons, List.length_append] at hlength
  rw [Tokens.enclose_append]
  have hread : Reads (parenType r plus)
      (.opening .paren :: (inner.tokens ++ .closing .paren :: rest)) inner.colonsApart (.paren inner) rest := by
    refine (Reads.group (hr.parenInside_single h (by omega) rest)).finish ?_
    cases plus with
    | false => exact Reads.of_any_peek fun _ => Reads.pure _ _
    | true => exact Reads.of_peek (fun ls hls => Ahead.op_eq_false hls
        (Tokens.not_isMark_of_endsType hrest rfl) []) (Reads.pure _ _)
  exact hread.congr_opening fun _ _ _ => rfl

theorem Knows.anyType_tuple (hr : r.Knows depth) {elems : List Ty} {trailing : Bool}
    (h : (Ty.tuple elems trailing).isPlain plus = true)
    (hlength : (Ty.tuple elems trailing).tokens.length ≤ depth + 1) (rest : Tokens) :
    Reads (anyType r plus) ((Ty.tuple elems trailing).tokens ++ rest) (Ty.allColonsApart elems)
      (.tuple elems trailing) rest := by
  simp only [Ty.isPlain, Bool.and_eq_true] at h
  obtain ⟨helems, htrailing⟩ := h
  rw [Ty.tokens, Ty.tokenLists_eq_map] at hlength ⊢
  simp only [Tokens.enclose, List.length_cons, List.length_append] at hlength
  rw [Tokens.enclose_append]
  have hinside : Reads (parenInside r)
      (Listed.joined (Tokens.op ",") (elems.map Ty.tokens) (trailing || elems.length == 1) ++
        .closing .paren :: rest)
      (Ty.allColonsApart elems) (.whole (.tuple elems trailing)) (.closing .paren :: rest) := by
    cases elems with
    | nil =>
        obtain rfl : trailing = false := by simpa using htrailing
        rw [Ty.allColonsApart]
        exact Reads.of_rest fun ls hls => by
          rw [Ahead.atEnd_closing hls]
          exact Reads.pure _ _
    | cons first more =>
        have hcomma : (trailing || (first :: more).length == 1) = trailing := by
          cases more <;> simp_all
        rw [hcomma] at hlength ⊢
        refine hr.parenInside_tuple helems ?_ (by omega) rest
        rintro rfl
        simpa using htrailing
  have hread : Reads (parenType r plus) (.opening .paren ::
      (Listed.joined (Tokens.op ",") (elems.map Ty.tokens) (trailing || elems.length == 1) ++
        .closing .paren :: rest))
      (Ty.allColonsApart elems) (.tuple elems trailing) rest :=
    (Reads.group hinside).finish (Reads.pure _ _)
  exact hread.congr_opening fun _ _ _ => rfl

/-! ## Pointers and references -/

theorem Knows.pointerType (hr : r.Knows depth) (mutable : Bool) {target : Ty}
    (h : target.isPlain false = true) (hlength : target.tokens.length ≤ depth) {rest : Tokens}
    (hrest : rest.endsType false = true) :
    Reads (Rules.pointerType r) ((Ty.pointer mutable target).tokens ++ rest) target.colonsApart
      (.pointer mutable target) rest := by
  rw [Ty.tokens, List.append_assoc, List.append_assoc]
  refine (Reads.op (by decide) _).next ?_
  cases mutable with
  | false =>
      refine Reads.of_peek (fun ls hls => Ahead.word_glued hls _) ?_
      refine (Reads.word (by decide) _).next ?_
      exact (hr.plain h hlength hrest).bind_pure
  | true =>
      refine Reads.of_peek (fun ls hls => Ahead.word_glued hls _) ?_
      refine Reads.of_peek (fun ls hls => Ahead.word_glued hls _) ?_
      refine (Reads.word (by decide) _).next ?_
      exact (hr.plain h hlength hrest).bind_pure

theorem Knows.referenceType (hr : r.Knows depth) (lifetime : Option Ident) (mutable : Bool)
    {target : Ty} (h : target.isPlain false = true) (hlength : target.tokens.length ≤ depth)
    {rest : Tokens} (hrest : rest.endsType false = true) :
    Reads (Rules.referenceType r) ((Ty.reference lifetime mutable target).tokens ++ rest)
      target.colonsApart (.reference lifetime mutable target) rest := by
  obtain ⟨u, us, htokens, hu⟩ := Ty.exists_tokens_eq_cons target h
  have hbehind : Reads (do
        let mutable ← wordIf "mut"
        return Ty.reference lifetime (!mutable.isEmpty) (← r.ty false))
      ((if mutable then Tokens.word "mut" else []) ++ (target.tokens ++ rest)) target.colonsApart
      (.reference lifetime mutable target) rest := by
    cases mutable with
    | true => exact (Reads.wordIf_there (by decide) _).next (hr.plain h hlength hrest).bind_pure
    | false =>
        refine (Reads.wordIf_missing ?_).next (hr.plain h hlength hrest).bind_pure
        rw [htokens]
        exact Token.not_isWord_of_startsType hu (by decide) (by decide)
  simp only [Ty.tokens, List.append_assoc]
  refine (Reads.op (by decide) _).next ?_
  cases lifetime with
  | none =>
      have hquote : ((if mutable then Tokens.word "mut" else []) ++
          (target.tokens ++ rest)).head?.any (Token.isMark '\'') = false := by
        cases mutable with
        | true => rfl
        | false =>
            rw [htokens]
            exact Token.not_isMark_of_startsType hu (by decide)
      exact Reads.of_peek (fun ls hls => Ahead.lifetime_eq_false hls hquote) hbehind
  | some l =>
      refine Reads.of_peek (fun ls hls => Ahead.lifetime_quote hls) ?_
      refine (Reads.bind_pure (Reads.lifetime l _)).next ?_
      exact hbehind

/-! ## Sums of bounds -/

theorem ne_nil_of_hasTrait {bounds : List Bound} (h : hasTrait bounds = true) : bounds ≠ [] := by
  rintro rfl
  cases h

theorem not_isMark_bounds {bounds : List Bound} (hne : bounds ≠ [])
    (h : Bound.arePlain bounds = true) (rest : Tokens) :
    (Listed.joined (Tokens.op "+") (bounds.map Bound.tokens) false ++ rest).head?.any
      (Token.isMark '*') = false := by
  obtain ⟨b, bounds, rfl⟩ := List.exists_cons_of_ne_nil hne
  rw [Bound.arePlain_eq_all, List.all_cons, Bool.and_eq_true] at h
  obtain ⟨u, us, htokens, hu⟩ := Bound.exists_tokens_eq_cons h.1
  obtain ⟨more, hmore⟩ := Reads.exists_joined_eq (Tokens.op "+") b.tokens (bounds.map Bound.tokens)
    false
  rw [List.map_cons, hmore, htokens]
  exact hu

theorem Knows.objectBounds (hr : r.Knows depth) {bounds : List Bound}
    (h : Bound.arePlain bounds = true) (htrait : hasTrait bounds = true)
    (hplus : (plus || bounds.length == 1) = true)
    (hlength : (Listed.joined (Tokens.op "+") (bounds.map Bound.tokens) false).length ≤ depth + 1)
    {rest : Tokens} (hrest : rest.endsType plus = true) :
    Reads (Rules.objectBounds r plus)
      (Listed.joined (Tokens.op "+") (bounds.map Bound.tokens) false ++ rest)
      (Bound.colonsApart bounds) ⟨bounds, false⟩ rest := by
  have hne := ne_nil_of_hasTrait htrait
  refine (hr.boundSum .object hne h hplus hlength hrest).finish ?_
  rw [if_pos htrait]
  exact Reads.pure _ _

theorem Knows.anyType_object (hr : r.Knows depth) {keyword trailing : Bool} {bounds : List Bound}
    (h : (Ty.object keyword bounds trailing).isPlain plus = true)
    (hlength : (Ty.object keyword bounds trailing).tokens.length ≤ depth + 1) {rest : Tokens}
    (hrest : rest.endsType plus = true) :
    Reads (anyType r plus) ((Ty.object keyword bounds trailing).tokens ++ rest)
      (Bound.colonsApart bounds) (.object keyword bounds trailing) rest := by
  simp only [Ty.isPlain, Bool.and_eq_true, Bool.not_eq_true'] at h
  obtain ⟨⟨⟨⟨rfl, hbounds⟩, htrait⟩, rfl⟩, hplus⟩ := h
  have hne := ne_nil_of_hasTrait htrait
  rw [Ty.tokens, Bound.tokenLists_eq_map] at hlength ⊢
  rw [if_pos rfl, List.length_append] at hlength
  rw [if_pos rfl, List.append_assoc]
  have hread : Reads (dynType r plus) (Tokens.word "dyn" ++
      (Listed.joined (Tokens.op "+") (bounds.map Bound.tokens) false ++ rest))
      (Bound.colonsApart bounds) (.object true bounds false) rest := by
    refine Reads.of_rest fun before _ => ?_
    refine (Reads.word (by decide) _).next ?_
    refine (Reads.opIf_missing (not_isMark_bounds hne hbounds rest)).next ?_
    exact (hr.objectBounds hbounds htrait hplus (by omega) hrest).bind_pure
  exact Reads.congr_ident hread fun _ _ _ => rfl

theorem Knows.anyType_implTrait (hr : r.Knows depth) {trailing : Bool} {bounds : List Bound}
    (h : (Ty.implTrait bounds trailing).isPlain plus = true)
    (hlength : (Ty.implTrait bounds trailing).tokens.length ≤ depth + 1) {rest : Tokens}
    (hrest : rest.endsType plus = true) :
    Reads (anyType r plus) ((Ty.implTrait bounds trailing).tokens ++ rest)
      (Bound.colonsApart bounds) (.implTrait bounds trailing) rest := by
  simp only [Ty.isPlain, Bool.and_eq_true, Bool.not_eq_true'] at h
  obtain ⟨⟨⟨hbounds, htrait⟩, rfl⟩, hplus⟩ := h
  have hne := ne_nil_of_hasTrait htrait
  rw [Ty.tokens, Bound.tokenLists_eq_map] at hlength ⊢
  rw [List.length_append] at hlength
  rw [List.append_assoc]
  have hread : Reads (implType r plus) (Tokens.word "impl" ++
      (Listed.joined (Tokens.op "+") (bounds.map Bound.tokens) false ++ rest))
      (Bound.colonsApart bounds) (.implTrait bounds false) rest := by
    refine (Reads.word (by decide) _).next ?_
    refine (hr.boundSum .anonymous hne hbounds hplus (by omega) hrest).finish ?_
    rw [if_pos htrait]
    exact Reads.pure _ _
  exact Reads.congr_ident hread fun _ _ _ => rfl

/-! ## Every plain type -/

/-- **A plain type is read back** unless a label in it stands before a path, if this holds of the
types inside it. -/
theorem Knows.anyType (hr : r.Knows depth) {t : Ty} (h : t.isPlain plus = true)
    (hlength : t.tokens.length ≤ depth + 1) {rest : Tokens} (hrest : rest.endsType plus = true) :
    Reads (Rules.anyType r plus) (t.tokens ++ rest) t.colonsApart t rest := by
  have hends := Tokens.endsType_false hrest
  cases t with
  | slice elem =>
      rw [Ty.isPlain] at h
      rw [Ty.tokens] at hlength ⊢
      simp only [Tokens.enclose, List.length_cons, List.length_append] at hlength
      rw [Ty.colonsApart, Tokens.enclose_append]
      exact (hr.bracketType h (by omega) rest).congr_opening fun _ _ _ => rfl
  | function qualifiers params trailing more result =>
      obtain ⟨i, us, htokens, hi⟩ := Ty.exists_function_tokens h
      have hread := hr.fnType h hlength hends
      rw [htokens] at hread ⊢
      exact reads_anyType_fn hi hread
  | implTrait bounds trailing =>
      rw [Ty.colonsApart]
      exact hr.anyType_implTrait h hlength hrest
  | object keyword bounds trailing =>
      rw [Ty.colonsApart]
      exact hr.anyType_object h hlength hrest
  | infer =>
      rw [Ty.tokens, Ty.colonsApart]
      exact reads_anyType_infer (by decide)
  | never =>
      rw [Ty.tokens, Ty.colonsApart]
      have hread := (Reads.op (o := "!") (by decide) rest).bind_pure (f := fun _ => Ty.never)
      exact Reads.congr_punct hread fun _ _ _ _ => rfl
  | paren inner =>
      rw [Ty.isPlain] at h
      rw [Ty.colonsApart]
      exact hr.anyType_paren h hlength hrest
  | path rooted segments => exact hr.anyType_path h hlength hrest
  | qualified self rooted trait segments => exact hr.anyType_qualified h hlength hrest
  | pointer mutable target =>
      rw [Ty.isPlain] at h
      have htarget : target.tokens.length ≤ depth := by
        simp only [Ty.tokens, List.length_append] at hlength
        have hstar : (Tokens.op "*").length = 1 := rfl
        omega
      have hread := hr.pointerType mutable h htarget hends
      rw [Ty.tokens] at hread ⊢
      rw [Ty.colonsApart]
      exact Reads.congr_punct hread fun _ _ _ _ => rfl
  | reference lifetime mutable target =>
      rw [Ty.isPlain] at h
      have htarget : target.tokens.length ≤ depth := by
        simp only [Ty.tokens, List.length_append] at hlength
        have hamp : (Tokens.op "&").length = 1 := rfl
        omega
      have hread := hr.referenceType lifetime mutable h htarget hends
      simp only [Ty.tokens] at hread ⊢
      rw [Ty.colonsApart]
      exact Reads.congr_punct hread fun _ _ _ _ => rfl
  | tuple elems trailing =>
      rw [Ty.colonsApart]
      exact hr.anyType_tuple h hlength rest
  | group inner => simp [Ty.isPlain] at h
  | array elem length => simp [Ty.isPlain] at h
  | invocation path delimiter arguments => simp [Ty.isPlain] at h
  | verbatim tokens => simp [Ty.isPlain] at h

/-- Of three colons, the first two are read as those of a path. -/
theorem reads_colons_label (hts : Tokens.startsPath (Tokens.op "::" ++ ts) = true) :
    Reads (op "::") (.punct ':' false :: (Tokens.op "::" ++ ts)) true (Tokens.op "::")
      (.punct ':' false :: ts) := by
  refine Reads.of_rest fun ls hls => ?_
  have hcolons : Ahead.op "::" ls = true := Ahead.op_colons_of_startsPath hls hts
  obtain ⟨joint, span, rest, rfl, -, -, hrest⟩ := hls.exists_punct
  obtain ⟨joint', span', rest', rfl, -, -, hrest'⟩ := Glued.exists_punct hrest
  simp only [hcolons, if_true]
  exact (Reads.goOn (by cases rest' <;> exact hrest') _).bind_pure

/-- No segment begins with punctuation. -/
theorem reads_segment_of_punct {argument : Parser Argument} {c : Char} {joint : Bool}
    (s : Segment) (us : Tokens) :
    Reads (Rules.segment argument false) (.punct c joint :: ts) false s us := by
  have hspecial : ∀ ls, Glued (.punct c joint :: ts) (Lexeme.tokens ls) →
      Ahead.anyWord ["super", "self", "crate", "try"] ls = false := by
    intro ls hls
    obtain ⟨joint', span, rest, rfl, -⟩ := hls.exists_punct
    rfl
  refine Reads.of_peek hspecial ?_
  refine Reads.of_peek (fun ls hls => Ahead.word_glued hls _) ?_
  exact (Reads.name_of_punct (.plain "a") us).bind_fails

/-- A label before the colons of a path is read as a segment, behind which two of the three colons
promise another one that does not come. -/
theorem Knows.anyType_label (hr : r.Knows depth) {i : Ident}
    (hi : (i.isName || i.isPlain "self") = true) (hts : ts.startsPath = true) (t : Ty)
    (us : Tokens) :
    Reads (Rules.anyType r true) (.ident i :: .punct ':' false :: ts) false t us := by
  obtain ⟨more, rfl⟩ := Tokens.exists_of_startsPath hts
  have hsegment : i.isSegment = true := by
    simp only [Ident.isSegment, pathWords, List.any_cons, Bool.or_eq_true] at hi ⊢
    exact hi.imp_right fun hself => .inr (.inl hself)
  have hangle : ∀ ls, Glued (.punct ':' false :: (Tokens.op "::" ++ more)) (Lexeme.tokens ls) →
      startsAngle false ls = false := by
    intro ls hls
    have hopen : Ahead.op "<" ls = false := Ahead.op_eq_false hls rfl []
    have hbehind : Ahead.op "<" (Ahead.skipTwo ls) = false :=
      Ahead.op_eq_false (Ahead.skip_punct (by decide) (Ahead.skip_punct (by decide) hls)) rfl []
    simp only [startsAngle, hopen, hbehind, Bool.and_false, Bool.false_and, Bool.or_self]
  have hfirst : Reads (Rules.segment r.argument false)
      (.ident i :: .punct ':' false :: (Tokens.op "::" ++ more)) true (.mk i .none)
      (.punct ':' false :: (Tokens.op "::" ++ more)) := by
    have hplain : (Segment.mk i .none).isPlain false = true := by
      simp [Segment.isPlain, Arguments.isPlain, Arguments.isNone, hsegment]
    have happart : (Segment.mk i .none).isApart = true := by
      simp [Segment.isApart, Arguments.colonsApart]
    rw [← happart]
    exact reads_segment (hr.readsArguments _) hplain (Nat.le_add_left 1 depth) hangle
  have hmore : ∀ path vs,
      Reads (manyWhile goesOn (do let _ ← op "::"; Rules.segment r.argument false))
      (.punct ':' false :: (Tokens.op "::" ++ more)) false path vs := by
    intro path vs
    refine Reads.manyWhile_fails (fun ls hls => ?_)
      ((reads_colons_label hts).next (reads_segment_of_punct (.mk i .none) vs))
    have hcolons : Ahead.op "::" ls = true := Ahead.op_colons_of_startsPath hls hts
    have hparen : Ahead.opens .paren (Ahead.skipTwo ls) = false :=
      Ahead.opens_glued (Ahead.skip_punct (by decide) (Ahead.skip_punct (by decide) hls)) .paren
    simp only [goesOn, hcolons, hparen, Bool.not_false, Bool.and_self]
  have hpath : Reads (typePath r false) (.ident i :: .punct ':' false :: (Tokens.op "::" ++ more))
      false t us := by
    refine Reads.of_peek (fun ls hls => Ahead.op_eq_false hls rfl []) ?_
    refine Reads.bind_fails (?_ : Reads _ _ false (false, []) us)
    refine (Reads.opIf_missing rfl).next ?_
    refine hfirst.next ?_
    exact (hmore [] us).bind_fails
  exact reads_anyType_segment hsegment rfl hpath.bind_fails

/-- **What the rules know of types**, at any depth. -/
theorem knows_nested (depth : Nat) : (Rules.nested depth).Knows depth := by
  induction depth with
  | zero =>
      refine ⟨fun {t plus rest} h hlength _ => ?_, fun _ _ => Reads.throw _ _ _ _,
        fun _ => ⟨false, Reads.throw _ _ _ _⟩⟩
      obtain ⟨u, us, htokens, -⟩ := Ty.exists_tokens_eq_cons t h
      rw [htokens] at hlength
      cases hlength
  | succ depth ih =>
      -- a rule of the next depth reads at least one token before it hands over to this one
      exact ⟨fun h hlength hrest => ih.anyType h hlength hrest,
        fun hi hts => ih.anyType_label hi hts _ _, fun hi => ⟨true, reads_anyType_infer hi⟩⟩

end Rules

/-! ## Whole texts -/

theorem Parser.run_of_reads {α : Type} {p : Parser α} {ts : Tokens} {ok : Bool} {a : α}
    (h : Reads p ts ok a []) {ls : List Lexeme} (hls : Glued ts (Lexeme.tokens ls)) :
    (Parser.run p ls).toOption = if ok then some a else none := by
  have hread := h ls none hls
  cases ok with
  | false =>
      obtain ⟨e, he⟩ := hread
      simp only [Parser.run, he]
      rfl
  | true =>
      obtain ⟨rest, hrest, heq⟩ := hread
      obtain rfl := hrest.eq_nil
      simp only [Parser.run, heq]
      rfl

/-- **A plain type is read back from its compact text**, unless a label in it stands directly before
the colons of a path: then the text is no type. -/
theorem Ty.ofText?_compact {t : Ty} (h : t.isPlain true = true) :
    Ty.ofText? t.tokens.compact = if t.colonsApart then some t else none := by
  have hfine := Ty.fine_tokens t h
  have hbalanced : Lexer.balanced [] t.tokens = true := by
    have hnil := hfine.balanced [] []
    rwa [List.append_nil] at hnil
  obtain ⟨ls, hls, hglued⟩ := Tokens.exists_lex?_compact hfine.sound hbalanced
  have hlength : ls.length = t.tokens.length := (List.length_map _).symm.trans hglued.length_eq
  have hread : Reads (Rules.anyType (Rules.nested (2 * ls.length + 2)) true) (t.tokens ++ [])
      t.colonsApart t [] := (Rules.knows_nested _).anyType h (by omega) rfl
  rw [List.append_nil] at hread
  rw [Ty.ofText?, hls]
  exact Parser.run_of_reads hread hglued

end EnumTags

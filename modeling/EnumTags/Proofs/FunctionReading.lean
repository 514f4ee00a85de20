import EnumTags.Proofs.PathReading

/-!
# Reading function types back

The parameters of a function type are where colons can meet: behind a label stands one, and a path
may begin with two. Glued together, they are read as the two of a path and a third one, with which
no segment begins. So the label is taken for a path, and the parameter is not read.

## Main results

* `Rules.Knows.fnParams`: parameters are read back if each label stands apart.
* `Rules.Knows.fnType`: so is a function type.
-/

namespace EnumTags

/-! ## Where parameters begin -/

/-- Behind the first name of a plain path, either the path ends or punctuation goes on with it. -/
theorem Segment.tokens_behind_name {path : List Segment} (h : Segment.arePlain false path = true)
    {i : Ident} {us : Tokens} (htokens : Segment.pathTokens path = .ident i :: us) :
    us = [] ∨ (∃ vs, us = Tokens.op "::" ++ vs) ∨ ∃ vs, us = Tokens.op "<" ++ vs := by
  cases path with
  | nil => simp [Segment.pathTokens] at htokens
  | cons segment path =>
      obtain ⟨name, arguments⟩ := segment
      rw [Segment.pathTokens_cons] at htokens
      obtain ⟨-, rfl⟩ := List.cons.inj htokens
      rw [Segment.arePlain] at h
      simp only [Bool.and_eq_true, Bool.false_and] at h
      cases arguments with
      | none =>
          rw [Arguments.tokens]
          cases path with
          | nil => exact .inl rfl
          | cons next path => exact .inr (.inl ⟨_, rfl⟩)
      | angle colons args trailing =>
          rw [Arguments.tokens]
          cases colons with
          | true => exact .inr (.inl ⟨_, rfl⟩)
          | false => exact .inr (.inr ⟨_, rfl⟩)
      | paren tys trailing result => simp [Arguments.isPlain] at h

theorem Ident.isLabel_words {isFirst : Bool} {i : Ident} (h : i.isLabel isFirst = true) :
    (i.isName || ["_".toList, "self"].any (i.isPlain ·)) = true := by
  simp only [isLabel, Bool.or_eq_true, Bool.and_eq_true, List.any_cons, List.any_nil] at h ⊢
  rcases h with (hname | hblank) | ⟨-, hself⟩
  · exact .inl hname
  · exact .inr (.inl hblank)
  · exact .inr (.inr (.inl hself))

/-- The words with which a function type begins are no labels. -/
theorem Ident.isLabel_of_fnWord {i : Ident}
    (h : fnWords.any (i.isPlain ·) = true) (isFirst : Bool) :
    i.isLabel isFirst = false := by
  by_contra hlabel
  have hno : fnWords.any (i.isPlain ·) = false :=
    Rules.any_isPlain_eq_false (isLabel_words ((Bool.not_eq_false _).mp hlabel)) (by decide)
  rw [h] at hno
  cases hno

/-- Whether a label can be made of this token. -/
def Token.labels (isFirst : Bool) : Token → Bool
  | .ident i => i.isLabel isFirst
  | _ => false

theorem Token.exists_of_labels {isFirst : Bool} {u : Token} (h : u.labels isFirst = true) :
    ∃ i, u = .ident i := by
  cases u with
  | ident i => exact ⟨i, rfl⟩
  | punct c joint => cases h
  | literal s => cases h
  | opening d => cases h
  | closing d => cases h

/-- Only paths and holes begin with what could be a label, and behind it the path goes on, or the
type ends. -/
theorem Ty.tokens_behind_label {plus isFirst : Bool} {t : Ty} (h : t.isPlain plus = true)
    {u : Token} {us : Tokens} (htokens : t.tokens = u :: us) (hu : u.labels isFirst = true) :
    us = [] ∨ (∃ vs, us = Tokens.op "::" ++ vs) ∨ ∃ vs, us = Tokens.op "<" ++ vs := by
  cases t with
  | path rooted path =>
      simp only [Ty.isPlain, Bool.and_eq_true] at h
      rw [Ty.tokens] at htokens
      cases rooted with
      | true =>
          obtain ⟨rfl, -⟩ := List.cons.inj htokens
          cases hu
      | false =>
          obtain ⟨i, vs, hpath, -⟩ := Segment.exists_pathTokens_eq_cons h.1 h.2
          obtain ⟨rfl, rfl⟩ := List.cons.inj (hpath.symm.trans htokens)
          exact Segment.tokens_behind_name h.2 hpath
  | infer =>
      rw [Ty.tokens] at htokens
      exact .inl (List.cons.inj htokens).2.symm
  | function qualifiers params trailing rest result =>
      obtain ⟨i, vs, hfn, hword⟩ := Ty.exists_function_tokens h
      obtain ⟨rfl, -⟩ := List.cons.inj (hfn.symm.trans htokens)
      rw [Token.labels, Ident.isLabel_of_fnWord hword] at hu
      cases hu
  | object keyword bounds trailing =>
      simp only [Ty.isPlain, Bool.and_eq_true] at h
      obtain ⟨⟨⟨⟨rfl, -⟩, -⟩, -⟩, -⟩ := h
      rw [Ty.tokens] at htokens
      obtain ⟨rfl, -⟩ := List.cons.inj htokens
      cases isFirst <;> cases hu
  | implTrait bounds trailing =>
      rw [Ty.tokens] at htokens
      obtain ⟨rfl, -⟩ := List.cons.inj htokens
      cases isFirst <;> cases hu
  | slice elem | never | paren inner | qualified self rooted trait rest | pointer mutable target
    | reference lifetime mutable target | tuple elems trailing =>
      simp only [Ty.tokens] at htokens
      obtain ⟨rfl, -⟩ := List.cons.inj htokens
      cases hu
  | group inner => simp [Ty.isPlain] at h
  | array elem length => simp [Ty.isPlain] at h
  | invocation path delimiter arguments => simp [Ty.isPlain] at h
  | verbatim tokens => simp [Ty.isPlain] at h

/-- A plain type begins with a colon only if it is a path with one. -/
theorem Ty.not_isMark_of_not_isRooted {plus : Bool} {t : Ty} (h : t.isPlain plus = true)
    (hrooted : t.isRooted = false) (rest : Tokens) :
    (t.tokens ++ rest).head?.any (Token.isMark ':') = false := by
  cases t with
  | path rooted path =>
      obtain rfl : rooted = false := hrooted
      simp only [Ty.isPlain, Bool.and_eq_true] at h
      obtain ⟨i, us, htokens, -⟩ := Segment.exists_pathTokens_eq_cons h.1 h.2
      rw [Ty.tokens, if_neg (by decide), List.nil_append, htokens]
      rfl
  | function qualifiers params trailing more result =>
      obtain ⟨i, us, htokens, -⟩ := Ty.exists_function_tokens h
      rw [htokens]
      rfl
  | object keyword bounds trailing =>
      simp only [Ty.isPlain, Bool.and_eq_true] at h
      obtain ⟨⟨⟨⟨rfl, -⟩, -⟩, -⟩, -⟩ := h
      rw [Ty.tokens]
      rfl
  | slice elem | never | infer | paren inner | qualified self rooted trait rest
    | pointer mutable target | reference lifetime mutable target | tuple elems trailing
    | implTrait bounds trailing =>
      simp only [Ty.tokens]
      rfl
  | group inner => simp [Ty.isPlain] at h
  | array elem length => simp [Ty.isPlain] at h
  | invocation path delimiter arguments => simp [Ty.isPlain] at h
  | verbatim tokens => simp [Ty.isPlain] at h

namespace Rules

open EnumTags.Parser

variable {r : Rules} {depth : Nat} {ts us : Tokens} {ls : List Lexeme}

/-- No receiver with `mut` stands where that word does not. -/
theorem mutableSelf_eq_false (isFirst : Bool) (h : Glued ts (Lexeme.tokens ls))
    (hts : ts.head?.any (Token.isWord "mut") = false) :
    (isFirst && Ahead.word "mut" ls && Ahead.word "self" (Ahead.skip ls)) = false := by
  rw [Ahead.word_glued h, hts, Bool.and_false, Bool.false_and]

theorem labels_glued {u : Token} (isFirst : Bool) (h : Glued (u :: ts) (Lexeme.tokens ls)) :
    (Ahead.name ls || Ahead.word "_" ls || (isFirst && Ahead.word "self" ls)) =
      u.labels isFirst := by
  rw [Ahead.name_glued h, Ahead.word_glued h, Ahead.word_glued h]
  cases u <;> cases isFirst <;> rfl

/-- No label is seen where no colon follows, or two. -/
theorem startsLabel_eq_false {isFirst : Bool} {u : Token} (h : Glued (u :: ts) (Lexeme.tokens ls))
    (hu : u.labels isFirst = true → ∀ ls, Glued ts (Lexeme.tokens ls) →
      Ahead.op ":" ls = false ∨ Ahead.op "::" ls = true) : startsLabel isFirst ls = false := by
  rw [startsLabel, labels_glued isFirst h]
  cases hlabels : u.labels isFirst with
  | false => rfl
  | true =>
      obtain ⟨i, rfl⟩ := Token.exists_of_labels hlabels
      rcases hu hlabels _ (Ahead.skip_ident h) with hcolon | hcolons
      · rw [hcolon]
        rfl
      · rw [hcolons, Bool.not_true, Bool.and_false]

theorem startsRest_eq_false {u : Token} (h : Glued (u :: ts) (Lexeme.tokens ls))
    (hu : u.isMark '.' = false)
    (hts : u.labels false = true → ∀ joint vs, ts = .punct ':' joint :: vs →
      vs.head?.any (Token.isMark '.') = false) : startsRest ls = false := by
  have hdots : Ahead.op "..." ls = false := Ahead.op_eq_false h hu ['.', '.']
  have hname := labels_glued false h
  rw [Bool.false_and, Bool.or_false] at hname
  rw [startsRest, hdots, Bool.false_or, hname]
  cases hlabels : u.labels false with
  | false => rfl
  | true =>
      obtain ⟨i, rfl⟩ := Token.exists_of_labels hlabels
      have hskip := Ahead.skip_ident h
      cases hcolon : ts.head?.any (Token.isMark ':') with
      | false =>
          have hop : Ahead.op ":" (Ahead.skip ls) = false := Ahead.op_eq_false hskip hcolon []
          rw [hop, Bool.and_false, Bool.false_and]
      | true =>
          obtain ⟨joint, vs, rfl⟩ := Tokens.exists_of_isMark hcolon
          have hbehind : Ahead.op "..." (Ahead.skipTwo ls) = false :=
            Ahead.op_eq_false (Ahead.skip_punct (by decide) hskip) (hts hlabels joint vs rfl)
              ['.', '.']
          rw [hbehind, Bool.and_false]

/-! ## Parameters -/

/-- A parameter without a label is a type. -/
theorem reads_fnParam_unlabelled {isFirst ok : Bool} {ty : Ty}
    (hlabel : ∀ ls, Glued ts (Lexeme.tokens ls) → startsLabel isFirst ls = false)
    (hmut : ts.head?.any (Token.isWord "mut") = false) (h : Reads (r.ty true) ts ok ty us) :
    Reads (fnParam r isFirst []) ts ok (.mk [] none ty) us := by
  refine Reads.of_rest fun before hbefore => ?_
  simp only [mutableSelf_eq_false isFirst hbefore hmut, Bool.false_eq_true, if_false]
  refine Reads.of_rest fun ls hls => ?_
  simp only [hlabel ls hls, Bool.false_eq_true, if_false, Bool.false_and, Bool.not_false,
    Bool.true_and]
  refine (Reads.pure none ts).next ?_
  exact Reads.of_peek (fun ls hls => mutableSelf_eq_false isFirst hls hmut) h.bind_pure

theorem reads_fnParam_labelled {isFirst ok : Bool} {i : Ident} {ty : Ty}
    (hi : i.isLabel isFirst = true) (hts : ts.head?.any (Token.isMark ':') = false)
    (hmut : ts.head?.any (Token.isWord "mut") = false) (h : Reads (r.ty true) ts ok ty us) :
    Reads (fnParam r isFirst []) (.ident i :: (Tokens.op ":" ++ ts)) ok (.mk [] (some i) ty)
      us := by
  have hlabelMut : i.isPlain "mut" = false :=
    Ident.isPlain_eq_false (Ident.isLabel_words hi) (by decide) (by decide)
  refine Reads.of_rest fun before hbefore => ?_
  simp only [mutableSelf_eq_false isFirst hbefore hlabelMut, Bool.false_eq_true, if_false]
  refine Reads.of_rest fun ls hls => ?_
  have hlabel : startsLabel isFirst ls = true := by
    have hskip := Ahead.skip_ident hls
    have hcolon : Ahead.op ":" (Ahead.skip ls) = true := Ahead.op_glued hskip ':'
    have hcolons : Ahead.op "::" (Ahead.skip ls) = false := Ahead.op_colons_eq_false hskip hts
    rw [startsLabel, labels_glued isFirst hls, hcolon, hcolons, Bool.not_false, Bool.and_true,
      Bool.and_true]
    exact hi
  simp only [hlabel, if_true]
  refine (Reads.anyIdent i _).next ?_
  refine (Reads.op (by decide) ts).next ?_
  refine (Reads.pure (some i) ts).next ?_
  refine Reads.of_peek (fun ls hls => mutableSelf_eq_false isFirst hls hmut) ?_
  simp only [Bool.and_false, Bool.false_and, Bool.false_eq_true, if_false]
  exact h.bind_pure

/-- No label stands at the start of a plain type. -/
theorem startsLabel_tokens {isFirst : Bool} {ty : Ty} (h : ty.isPlain true = true)
    (hus : us.endsType true = true) (hls : Glued (ty.tokens ++ us) (Lexeme.tokens ls)) :
    startsLabel isFirst ls = false := by
  obtain ⟨u, vs, htokens, -⟩ := Ty.exists_tokens_eq_cons ty h
  rw [htokens, List.cons_append] at hls
  refine startsLabel_eq_false hls fun hlabels ls hls => ?_
  rcases Ty.tokens_behind_label h htokens hlabels with rfl | ⟨ws, rfl⟩ | ⟨ws, rfl⟩
  · exact .inl (Ahead.op_eq_false hls (Tokens.not_isMark_of_endsType hus rfl) [])
  · rw [List.append_assoc] at hls
    exact .inr (Ahead.op_written (by decide) hls).1
  · exact .inl (Ahead.op_eq_false hls rfl [])

end Rules

/-- A label and its colon. -/
def labelTokens (label : Option Ident) : Tokens := label.elim [] fun i => .ident i :: Tokens.op ":"

namespace FnParam

/-- A parameter as tokens. -/
def tokens : FnParam → Tokens
  | .mk attributes label ty => attributes ++ labelTokens label ++ ty.tokens

/-- Whether neither the label of the parameter nor one in its type stands directly before a path. -/
def isApart : FnParam → Bool
  | .mk _ label ty => !(label.isSome && ty.isRooted) && ty.colonsApart

theorem tokenLists_eq_map (params : List FnParam) :
    FnParam.tokenLists params = params.map FnParam.tokens := by
  induction params with
  | nil => simp [FnParam.tokenLists]
  | cons param params ih =>
      obtain ⟨attributes, label, ty⟩ := param
      cases label <;> simp [FnParam.tokenLists, tokens, labelTokens, Tokens.ofIdent, ih]

theorem tokens_ne_nil {isFirst : Bool} {params : List FnParam}
    (h : FnParam.arePlain isFirst params = true) : ∀ param ∈ params, param.tokens ≠ [] := by
  induction params generalizing isFirst with
  | nil => exact fun param hparam => absurd hparam List.not_mem_nil
  | cons first params ih =>
      obtain ⟨attributes, label, ty⟩ := first
      simp only [FnParam.arePlain, Bool.and_eq_true] at h
      intro param hparam
      rcases List.mem_cons.mp hparam with rfl | hparam
      · obtain ⟨u, us, htokens, -⟩ := Ty.exists_tokens_eq_cons ty h.1.2
        simp [tokens, htokens]
      · exact ih h.2 param hparam

theorem colonsApart_cons (param : FnParam) (params : List FnParam) :
    FnParam.colonsApart (param :: params) = (param.isApart && FnParam.colonsApart params) := by
  obtain ⟨attributes, label, ty⟩ := param
  rw [FnParam.colonsApart, isApart]

end FnParam

namespace Rules

open EnumTags.Parser

variable {r : Rules} {depth : Nat} {us : Tokens} {ls : List Lexeme} {isFirst : Bool}
  {label : Option Ident} {ty : Ty}

/-- What the parameters of a function type are told by: no parameter is the end of them, has
attributes, or is the mark for further arguments. -/
theorem paramTests_tokens (hty : ty.isPlain true = true) (hus : us.endsType true = true)
    (hls : Glued ((FnParam.mk [] label ty).tokens ++ us) (Lexeme.tokens ls)) :
    Ahead.atEnd ls = false ∧ Ahead.op "#" ls = false ∧ startsRest ls = false := by
  obtain ⟨u, vs, htokens, hu⟩ := Ty.exists_tokens_eq_cons ty hty
  have hdot := Token.not_isMark_of_startsType (c := '.') hu (by decide)
  cases label with
  | none =>
      have hhead : (FnParam.mk [] none ty).tokens ++ us = u :: (vs ++ us) := by
        rw [FnParam.tokens, htokens]
        rfl
      rw [hhead] at hls
      refine ⟨Ahead.atEnd_eq_false hls (Token.not_isClosing_of_startsType hu),
        Ahead.op_eq_false hls (Token.not_isMark_of_startsType hu (by decide)) [],
        startsRest_eq_false hls hdot fun hlabels joint ws hws => ?_⟩
      rcases Ty.tokens_behind_label hty htokens hlabels with rfl | ⟨more, rfl⟩ | ⟨more, rfl⟩
      · rw [List.nil_append] at hws
        rw [hws] at hus
        cases hus
      · obtain ⟨-, rfl⟩ := List.cons.inj hws
        rfl
      · cases hws
  | some i =>
      have hhead : (FnParam.mk [] (some i) ty).tokens ++ us =
          .ident i :: .punct ':' false :: (u :: vs ++ us) := by
        rw [FnParam.tokens, htokens]
        rfl
      rw [hhead] at hls
      refine ⟨Ahead.atEnd_eq_false hls rfl, Ahead.op_eq_false hls rfl [],
        startsRest_eq_false hls rfl fun _ joint ws hws => ?_⟩
      obtain ⟨-, rfl⟩ := List.cons.inj hws
      exact hdot

theorem Knows.fnParam_apart (hr : r.Knows depth) (hlabel : label.all (Ident.isLabel isFirst) = true)
    (hty : ty.isPlain true = true) (hlength : ty.tokens.length ≤ depth)
    (happart : (label.isSome && ty.isRooted) = false) (hus : us.endsType true = true) :
    Reads (fnParam r isFirst []) ((FnParam.mk [] label ty).tokens ++ us) ty.colonsApart
      (.mk [] label ty) us := by
  obtain ⟨u, vs, htokens, hu⟩ := Ty.exists_tokens_eq_cons ty hty
  have hmut : (ty.tokens ++ us).head?.any (Token.isWord "mut") = false := by
    rw [htokens]
    exact Token.not_isWord_of_startsType hu (by decide) (by decide)
  have hread := hr.plain hty hlength hus
  cases label with
  | none => exact reads_fnParam_unlabelled (fun ls hls => startsLabel_tokens hty hus hls) hmut hread
  | some i =>
      exact reads_fnParam_labelled hlabel (Ty.not_isMark_of_not_isRooted hty happart us) hmut hread

/-- **Behind a label, the colons of a path are not read**: the label is taken for the start of the
path, or for a hole behind which a colon is left. -/
theorem Knows.fnParam_rooted (hr : r.Knows depth) {i : Ident} (hi : i.isLabel isFirst = true)
    (hty : ty.isPlain true = true) (hrooted : ty.isRooted = true) :
    ∃ ok param vs, Reads (fnParam r isFirst []) ((FnParam.mk [] (some i) ty).tokens ++ us) ok param
      (.punct ':' false :: vs) := by
  have hpath : (ty.tokens ++ us).startsPath = true := by
    cases ty with
    | path rooted path =>
        obtain rfl : rooted = true := hrooted
        simp only [Ty.isPlain, Bool.and_eq_true] at hty
        obtain ⟨j, vs, hj, -⟩ := Segment.exists_pathTokens_eq_cons hty.1 hty.2
        rw [Ty.tokens, hj]
        rfl
    | _ => cases hrooted
  have htokens : (FnParam.mk [] (some i) ty).tokens ++ us =
      .ident i :: .punct ':' false :: (ty.tokens ++ us) := rfl
  have hlabel : ∀ ls, Glued (.ident i :: .punct ':' false :: (ty.tokens ++ us)) (Lexeme.tokens ls) →
      startsLabel isFirst ls = false := fun ls hls =>
    startsLabel_eq_false hls fun _ ls hls => .inr (Ahead.op_colons_of_startsPath hls hpath)
  have hmut : i.isPlain "mut" = false :=
    Ident.isPlain_eq_false (Ident.isLabel_words hi) (by decide) (by decide)
  rw [htokens]
  -- a hole is a type by itself, so here the failure is left to what stands behind the parameter
  cases hhole : i.isPlain "_" with
  | true =>
      obtain ⟨ok, hread⟩ := hr.hole hhole
      exact ⟨ok, _, _, reads_fnParam_unlabelled hlabel hmut hread⟩
  | false =>
      have hname : (i.isName || i.isPlain "self") = true := by
        simp only [Ident.isLabel, hhole, Bool.or_false, Bool.or_eq_true, Bool.and_eq_true] at hi ⊢
        exact hi.imp_right And.right
      have hread : Reads (r.ty true) (.ident i :: .punct ':' false :: (ty.tokens ++ us)) false
          .never (.punct ':' false :: (ty.tokens ++ us)) := hr.label hname hpath
      exact ⟨false, _, _, reads_fnParam_unlabelled hlabel hmut hread⟩

/-- A parameter, and what a parser does that takes it from there and does not go on with a colon. -/
theorem Knows.fnParam_bind (hr : r.Knows depth) (hlabel : label.all (Ident.isLabel isFirst) = true)
    (hty : ty.isPlain true = true) (hlength : ty.tokens.length ≤ depth)
    (hus : us.endsType true = true) {β : Type} {k : FnParam → Parser β} {ok : Bool} {b : β}
    {vs : Tokens} (hk : Reads (k (.mk [] label ty)) us ok b vs)
    (hcolon : ∀ param ws, Reads (k param) (.punct ':' false :: ws) false b vs) :
    Reads (fnParam r isFirst [] >>= k) ((FnParam.mk [] label ty).tokens ++ us)
      ((FnParam.mk [] label ty).isApart && ok) b vs := by
  rw [FnParam.isApart]
  cases happart : label.isSome && ty.isRooted with
  | false =>
      rw [Bool.not_false, Bool.true_and]
      exact (hr.fnParam_apart hlabel hty hlength happart hus).bind fun _ => hk
  | true =>
      rw [Bool.and_eq_true] at happart
      obtain ⟨i, rfl⟩ := Option.isSome_iff_exists.mp happart.1
      obtain ⟨ok', param, ws, hread⟩ := hr.fnParam_rooted hlabel hty happart.2
      have hboth := hread.bind fun _ => hcolon param ws
      rwa [Bool.and_false] at hboth

/-- One parameter of a function type, with what is done behind it. -/
theorem Knows.fnParams_cons (hr : r.Knows depth) (hlabel : label.all (Ident.isLabel isFirst) = true)
    (hty : ty.isPlain true = true) (hlength : ty.tokens.length ≤ depth)
    (hus : us.endsType true = true) {fuel : Nat} {ok : Bool} {b : List FnParam × Bool × Tokens}
    {vs : Tokens}
    (h : Reads (do
        if ← peek Ahead.atEnd then return ([.mk [] label ty], false, [])
        let _ ← op ","
        let (params, trailing, more) ← Rules.fnParams r fuel false
        return (.mk [] label ty :: params, trailing, more)) us ok b vs) :
    Reads (Rules.fnParams r (fuel + 1) isFirst) ((FnParam.mk [] label ty).tokens ++ us)
      ((FnParam.mk [] label ty).isApart && ok) b vs := by
  have htests : ∀ ls, Glued ((FnParam.mk [] label ty).tokens ++ us) (Lexeme.tokens ls) → _ :=
    fun ls hls => paramTests_tokens hty hus hls
  have hattributes : Reads r.attributes ((FnParam.mk [] label ty).tokens ++ us) true []
      ((FnParam.mk [] label ty).tokens ++ us) :=
    (Reads.manyWhile_nil fun ls hls => (htests ls hls).2.1).bind_pure
  refine Reads.of_peek (fun ls hls => (htests ls hls).1) ?_
  refine hattributes.next ?_
  refine Reads.of_peek (fun ls hls => (htests ls hls).2.2) ?_
  refine hr.fnParam_bind hlabel hty hlength hus h fun param ws => ?_
  refine Reads.of_peek (fun ls hls => Ahead.atEnd_eq_false hls rfl) ?_
  exact (Reads.op_eq_false rfl ws).bind_fails

/-- **The parameters of a function type are read back** if each label stands apart from the path
behind it. -/
theorem Knows.fnParams (hr : r.Knows depth) {params : List FnParam}
    (h : FnParam.arePlain isFirst params = true) {trailing : Bool}
    (hempty : params = [] → trailing = true)
    (hlength : ∀ param ∈ params, param.tokens.length ≤ depth)
    {fuel : Nat} (hfuel : params.length < fuel) (d : Delimiter) (rest : Tokens) :
    Reads (Rules.fnParams r fuel isFirst)
      (Listed.joined (Tokens.op ",") (params.map FnParam.tokens) trailing ++ .closing d :: rest)
      (FnParam.colonsApart params) (params, trailing, []) (.closing d :: rest) := by
  induction params generalizing isFirst fuel with
  | nil =>
      cases fuel with
      | zero => cases hfuel
      | succ fuel =>
          rw [hempty rfl, FnParam.colonsApart]
          exact Reads.of_peek (fun ls hls => Ahead.atEnd_closing hls) (Reads.pure _ _)
  | cons param params ih =>
      cases fuel with
      | zero => cases hfuel
      | succ fuel =>
          obtain ⟨attributes, label, ty⟩ := param
          simp only [FnParam.arePlain, Bool.and_eq_true, List.isEmpty_iff] at h
          obtain ⟨⟨⟨rfl, hlabel⟩, hty⟩, hparams⟩ := h
          have hfirst : ty.tokens.length ≤ depth := by
            have hsum := hlength _ List.mem_cons_self
            rw [FnParam.tokens, List.length_append] at hsum
            omega
          rw [FnParam.colonsApart_cons]
          -- a comma stands behind every parameter but the last, and there only if it is trailing
          by_cases hlast : params = [] ∧ trailing = false
          · obtain ⟨rfl, rfl⟩ := hlast
            rw [Reads.joined_singleton, FnParam.colonsApart]
            refine hr.fnParams_cons hlabel hty hfirst rfl ?_
            exact Reads.of_peek (fun ls hls => Ahead.atEnd_closing hls) (Reads.pure _ _)
          · have hmore : params = [] → trailing = true := fun hnil =>
              (Bool.not_eq_false _).mp fun hfalse => hlast ⟨hnil, hfalse⟩
            have hrest := ih hparams hmore (fun p hp => hlength p (List.mem_cons_of_mem _ hp))
              (Nat.lt_of_succ_lt_succ hfuel)
            rw [Reads.joined_cons hmore]
            refine hr.fnParams_cons hlabel hty hfirst rfl ?_
            refine Reads.of_peek (fun ls hls => Ahead.atEnd_eq_false hls rfl) ?_
            exact (Reads.op (by decide) _).next hrest.bind_pure

/-! ## Function types -/

/-- A calling convention in front of the keyword of a function type. -/
theorem reads_convention {qualifiers : Tokens} (h : qualifiers.areConvention = true) (ts : Tokens) :
    Reads convention (qualifiers ++ (Tokens.word "fn" ++ ts)) true qualifiers
      (Tokens.word "fn" ++ ts) := by
  cases qualifiers with
  | nil => exact Reads.of_peek (fun ls hls => Ahead.word_glued hls _) (Reads.pure _ _)
  | cons u us =>
      obtain ⟨i, rfl, hi, hname⟩ := Tokens.exists_of_areConvention h
      have hstring : Reads (whenAhead Ahead.string literal) (us ++ (Tokens.word "fn" ++ ts)) true us
          (Tokens.word "fn" ++ ts) := by
        rcases hname with rfl | ⟨s, rfl, hs⟩
        · have hnone : ∀ ls, Glued (Tokens.word "fn" ++ ts) (Lexeme.tokens ls) →
              Ahead.string ls = false := by
            intro ls hls
            obtain ⟨span, rest, rfl, -⟩ := Glued.exists_ident hls
            rfl
          exact Reads.of_peek hnone (Reads.pure _ _)
        · have hthere : ∀ ls, Glued (.literal s :: (Tokens.word "fn" ++ ts)) (Lexeme.tokens ls) →
              Ahead.string ls = true := by
            intro ls hls
            obtain ⟨span, rest, rfl, -⟩ := hls.exists_same fun _ => rfl
            exact hs
          exact Reads.of_peek hthere (Reads.literal s _)
      have hboth : Reads conventionTokens (.ident i :: (us ++ (Tokens.word "fn" ++ ts))) true
          ([.ident i] ++ (us ++ [])) (Tokens.word "fn" ++ ts) := by
        refine (Reads.word hi _).next ?_
        exact (hstring.next (Reads.pure [] _).bind_pure).bind_pure
      rw [List.append_nil] at hboth
      exact Reads.of_peek (fun ls hls => (Ahead.word_glued hls _).trans hi) hboth

theorem reads_qualifiers {qualifiers : Tokens} (h : qualifiers.areQualifiers = true) (ts : Tokens) :
    Reads (all [wordIf "unsafe", convention]) (qualifiers ++ (Tokens.word "fn" ++ ts)) true
      qualifiers (Tokens.word "fn" ++ ts) := by
  have hparts : ∃ first second, qualifiers = first ++ second ∧ Tokens.areConvention second = true ∧
      Reads (wordIf "unsafe") (first ++ (second ++ (Tokens.word "fn" ++ ts))) true first
        (second ++ (Tokens.word "fn" ++ ts)) := by
    cases qualifiers with
    | nil => exact ⟨[], [], rfl, rfl, Reads.wordIf_missing rfl⟩
    | cons u us =>
        rw [Tokens.areQualifiers] at h
        cases hmarked : u.isWord "unsafe" with
        | false =>
            rw [hmarked, if_neg (by decide)] at h
            exact ⟨[], u :: us, rfl, h, Reads.wordIf_missing hmarked⟩
        | true =>
            rw [hmarked, if_pos rfl] at h
            cases u with
            | ident i => exact ⟨[.ident i], us, rfl, h, Reads.wordIf_there hmarked _⟩
            | punct c joint => cases hmarked
            | literal s => cases hmarked
            | opening d => cases hmarked
            | closing d => cases hmarked
  obtain ⟨first, second, rfl, hsecond, hfirst⟩ := hparts
  have hboth : Reads (all [wordIf "unsafe", convention])
      (first ++ (second ++ (Tokens.word "fn" ++ ts))) true (first ++ (second ++ []))
      (Tokens.word "fn" ++ ts) := by
    refine hfirst.next ?_
    exact ((reads_convention hsecond ts).next (Reads.pure [] _).bind_pure).bind_pure
  rw [List.append_nil] at hboth
  rwa [List.append_assoc]

theorem Knows.fnType (hr : r.Knows depth) {qualifiers : Tokens} {params : List FnParam}
    {plus trailing : Bool} {more : Tokens} {result : Option Ty}
    (h : (Ty.function qualifiers params trailing more result).isPlain plus = true)
    (hlength : (Ty.function qualifiers params trailing more result).tokens.length ≤ depth + 1)
    {rest : Tokens} (hrest : rest.endsType false = true) :
    Reads (Rules.fnType r []) ((Ty.function qualifiers params trailing more result).tokens ++ rest)
      (Ty.function qualifiers params trailing more result).colonsApart
      (.function qualifiers params trailing more result) rest := by
  simp only [Ty.isPlain, Bool.and_eq_true, List.isEmpty_iff] at h
  obtain ⟨⟨⟨⟨hqualifiers, hparams⟩, hempty⟩, rfl⟩, hresult⟩ := h
  have hnil : params = [] → trailing = true := by
    rintro rfl
    simpa using hempty
  have htokens : (Ty.function qualifiers params trailing [] result).tokens =
      qualifiers ++ (Tokens.word "fn" ++ (.opening .paren ::
        (Listed.joined (Tokens.op ",") (params.map FnParam.tokens) trailing ++
          .closing .paren :: Ty.resultTokens result))) := by
    simp [Ty.tokens, FnParam.tokenLists_eq_map, Tokens.enclose]
  rw [htokens] at hlength ⊢
  simp only [List.length_append, List.length_cons] at hlength
  have hlengths : ∀ param ∈ params, param.tokens.length ≤ depth := by
    intro param hparam
    have hle := Reads.length_le_joined_of_mem (Tokens.op ",")
      (List.mem_map_of_mem (f := FnParam.tokens) hparam) trailing
    omega
  rw [Ty.colonsApart]
  simp only [List.append_assoc, List.cons_append]
  refine (reads_qualifiers hqualifiers _).next ?_
  refine (Reads.word (by decide) _).next ?_
  refine (Reads.group (Reads.of_rest fun ls hls => hr.fnParams hparams hnil hlengths
    (Reads.length_lt_of_joined (FnParam.tokens_ne_nil hparams) hls) .paren _)).bind fun _ => ?_
  exact (hr.result? hresult (by omega) hrest).bind_pure

end Rules

end EnumTags

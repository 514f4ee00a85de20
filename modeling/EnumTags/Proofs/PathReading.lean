import EnumTags.Proofs.TypeReading

/-!
# Reading paths and bounds back

The rules for paths, for the inputs and the result of a function, and for bounds, each on the tokens
of something plain. As before, a rule reads what was written unless a label in it stands directly
before the colons of a path, and what the types inside are read as is taken for granted.

## Main results

* `Rules.reads_segments`: a path is read back.
* `Rules.Knows.bound`: a bound is read back.
-/

namespace EnumTags

/-! ## Segments -/

theorem Segment.exists_tokens_eq_cons (segment : Segment) :
    ∃ i us, segment.tokens = .ident i :: us := by
  obtain ⟨i, arguments⟩ := segment
  exact ⟨i, arguments.tokens, rfl⟩

namespace Rules

open EnumTags.Parser

variable {argument : Parser Argument} {depth : Nat}

/-- Whether a path goes on with another segment. -/
def goesOn (ls : List Lexeme) : Bool := Ahead.op "::" ls && !Ahead.opens .paren (Ahead.skipTwo ls)

theorem goesOn_path {i : Ident} {ts : Tokens} {ls : List Lexeme}
    (h : Glued (Tokens.op "::" ++ .ident i :: ts) (Lexeme.tokens ls)) : goesOn ls = true := by
  have hcolons : Ahead.op "::" ls = true := (Ahead.op_written (by decide) h).1
  have hparen : Ahead.opens .paren (Ahead.skipTwo ls) = false :=
    Ahead.opens_glued (Ahead.skipTwo_colons h) .paren
  simp only [goesOn, hcolons, hparen, Bool.not_false, Bool.and_self]

theorem goesOn_eq_false {ts : Tokens} {ls : List Lexeme} (h : Glued ts (Lexeme.tokens ls))
    (hcolon : ts.head?.any (Token.isMark ':') = false) : goesOn ls = false := by
  have hcolons : Ahead.op "::" ls = false := Ahead.op_eq_false h hcolon [':']
  simp only [goesOn, hcolons, Bool.false_and]

/-- A segment is read in front of another one, and of anything that is no argument. -/
theorem startsAngle_behind_segment {rest us : Tokens}
    (hangle : rest.head?.any (Token.isMark '<') = false)
    (hcolon : rest.head?.any (Token.isMark ':') = false)
    (hus : us = rest ∨ ∃ (s : Segment) (vs : Tokens), us = Tokens.op "::" ++ s.tokens ++ vs)
    {ls : List Lexeme} (hls : Glued us (Lexeme.tokens ls)) : startsAngle false ls = false := by
  rcases hus with rfl | ⟨s, vs, rfl⟩
  · exact startsAngle_eq_false hls hangle hcolon
  · obtain ⟨i, ws, hs⟩ := s.exists_tokens_eq_cons
    rw [hs, List.append_assoc] at hls
    exact startsAngle_path hls

/-- The segments behind the first one. -/
theorem reads_moreSegments (hargument : ReadsArguments argument depth) {path : List Segment}
    (h : ∀ s ∈ path, s.isPlain false = true) (hlength : ∀ s ∈ path, s.tokens.length ≤ depth + 1)
    {rest : Tokens} (hangle : rest.head?.any (Token.isMark '<') = false)
    (hcolon : rest.head?.any (Token.isMark ':') = false) :
    Reads (manyWhile goesOn (do let _ ← op "::"; segment argument false))
      ((path.map fun s => Tokens.op "::" ++ s.tokens).flatten ++ rest) (path.all Segment.isApart)
      path rest := by
  refine Reads.manyWhile ⟨?_, ?_, ?_⟩ ?_
  · intro s hs us hus
    rw [List.append_assoc]
    refine (Reads.op (by decide) _).next ?_
    exact reads_segment hargument (h s hs) (hlength s hs) fun ls hls =>
      startsAngle_behind_segment hangle hcolon (hus.imp_right fun ⟨y, _, hy⟩ => ⟨y, hy⟩) hls
  · intro s hs us ls hls
    obtain ⟨i, ws, hi⟩ := s.exists_tokens_eq_cons
    rw [hi, List.append_assoc] at hls
    exact goesOn_path hls
  · intro ls hls
    exact goesOn_eq_false hls hcolon
  · intro s hs
    exact List.append_ne_nil_of_left_ne_nil (by decide) _

theorem reads_segments (hargument : ReadsArguments argument depth) {rooted : Bool}
    {path : List Segment} (hne : path ≠ []) (h : Segment.arePlain false path = true)
    (hlength : (Segment.pathTokens path).length ≤ depth + 1) {rest : Tokens}
    (hangle : rest.head?.any (Token.isMark '<') = false)
    (hcolon : rest.head?.any (Token.isMark ':') = false) :
    Reads (segments argument false)
      ((if rooted then Tokens.op "::" else []) ++ (Segment.pathTokens path ++ rest))
      (Segment.colonsApart path) (rooted, path) rest := by
  obtain ⟨first, more, rfl⟩ := List.exists_cons_of_ne_nil hne
  have hplain : ∀ s ∈ first :: more, s.isPlain false = true := by
    rw [Segment.arePlain_eq_all] at h
    exact List.all_eq_true.mp h
  have hlengths : ∀ s ∈ first :: more, s.tokens.length ≤ depth + 1 := by
    intro s hs
    rw [Segment.pathTokens_eq_joined] at hlength
    have hle := Reads.length_le_joined_of_mem (Tokens.op "::")
      (List.mem_map_of_mem (f := Segment.tokens) hs) false
    omega
  obtain ⟨i, us, hi⟩ := first.exists_tokens_eq_cons
  have hmore := reads_moreSegments hargument (fun s hs => hplain s (List.mem_cons_of_mem first hs))
    (fun s hs => hlengths s (List.mem_cons_of_mem first hs)) hangle hcolon
  have hbehind : ∀ ls, Glued ((more.map fun s => Tokens.op "::" ++ s.tokens).flatten ++ rest)
      (Lexeme.tokens ls) → startsAngle false ls = false := by
    intro ls hls
    refine startsAngle_behind_segment hangle hcolon ?_ hls
    cases more with
    | nil => exact .inl rfl
    | cons s more => exact .inr ⟨s, _, by rw [List.map_cons, List.flatten_cons, List.append_assoc]⟩
  have hfirst := reads_segment hargument (hplain first List.mem_cons_self)
    (hlengths first List.mem_cons_self) hbehind
  rw [Segment.pathTokens_cons, List.append_assoc, Segment.colonsApart_eq_all, List.all_cons]
  refine (Reads.opIf fun _ => by rw [hi]; rfl).next ?_
  refine hfirst.bind fun _ => ?_
  refine hmore.finish ?_
  cases rooted <;> exact Reads.pure _ _

end Rules

/-! ## Types inside -/

theorem Tokens.enclose_append (d : Delimiter) (ts rest : Tokens) :
    Tokens.enclose d ts ++ rest = .opening d :: (ts ++ .closing d :: rest) := by
  simp [Tokens.enclose]

theorem Ty.tokenLists_eq_map (tys : List Ty) : Ty.tokenLists tys = tys.map Ty.tokens := by
  induction tys with
  | nil => simp [Ty.tokenLists]
  | cons t tys ih => simp [Ty.tokenLists, ih]

theorem Ty.arePlain_eq_all (tys : List Ty) : Ty.arePlain tys = tys.all (Ty.isPlain true) := by
  induction tys with
  | nil => simp [Ty.arePlain]
  | cons t tys ih => simp [Ty.arePlain, ih]

theorem Ty.allColonsApart_eq_all (tys : List Ty) :
    Ty.allColonsApart tys = tys.all Ty.colonsApart := by
  induction tys with
  | nil => simp [Ty.allColonsApart]
  | cons t tys ih => simp [Ty.allColonsApart, ih]

theorem Ahead.atEnd_eq_false {t : Token} {ts : Tokens} {ls : List Lexeme}
    (h : Glued (t :: ts) (Lexeme.tokens ls)) (ht : t.isClosing = false) :
    Ahead.atEnd ls = false := by
  rw [Ahead.atEnd_glued h]
  exact ht

theorem Ahead.atEnd_closing {d : Delimiter} {ts : Tokens} {ls : List Lexeme}
    (h : Glued (.closing d :: ts) (Lexeme.tokens ls)) : Ahead.atEnd ls = true :=
  Ahead.atEnd_glued h

namespace Rules

open EnumTags.Parser

variable {r : Rules} {depth : Nat}

/-- What is known of types carries over to arguments. -/
theorem Knows.readsArguments (hr : r.Knows depth) (bound : Parser Bound) :
    ReadsArguments (argumentWith r bound) depth := by
  intro arg us h hlength hus
  exact hr.argument bound h hlength hus

/-- Types with commas between them, up to the end of a group. -/
theorem Knows.tyList (hr : r.Knows depth) {tys : List Ty} (h : Ty.arePlain tys = true)
    {trailing : Bool} (hempty : tys = [] → trailing = true)
    (hlength : (Listed.joined (Tokens.op ",") (tys.map Ty.tokens) trailing).length ≤ depth)
    (d : Delimiter) (rest : Tokens) :
    Reads (listToEnd (r.ty true))
      (Listed.joined (Tokens.op ",") (tys.map Ty.tokens) trailing ++ .closing d :: rest)
      (Ty.allColonsApart tys) ⟨tys, trailing⟩ (.closing d :: rest) := by
  rw [Ty.arePlain_eq_all, List.all_eq_true] at h
  rw [Ty.allColonsApart_eq_all]
  refine Reads.listUntil (by decide) ⟨?_, ?_, ?_, ?_⟩ ?_ hempty
  · intro t ht us hus
    have hle := Reads.length_le_joined_of_mem (Tokens.op ",")
      (List.mem_map_of_mem (f := Ty.tokens) ht) trailing
    refine hr.plain (h t ht) (by omega) ?_
    rcases hus with rfl | ⟨vs, rfl⟩ <;> rfl
  · intro t ht us ls hls
    obtain ⟨u, vs, hu, hstarts⟩ := Ty.exists_tokens_eq_cons t (h t ht)
    rw [hu] at hls
    exact Ahead.atEnd_eq_false hls (Token.not_isClosing_of_startsType hstarts)
  · intro us ls hls
    exact Ahead.atEnd_eq_false hls rfl
  · intro ls hls
    exact Ahead.atEnd_closing hls
  · intro t ht
    obtain ⟨u, vs, hu, -⟩ := Ty.exists_tokens_eq_cons t (h t ht)
    rw [hu]
    exact List.cons_ne_nil u vs

theorem Knows.result? (hr : r.Knows depth) {result : Option Ty}
    (h : Ty.isPlainResult result = true) (hlength : (Ty.resultTokens result).length ≤ depth)
    {rest : Tokens} (hrest : rest.endsType false = true) :
    Reads (Rules.result? r) (Ty.resultTokens result ++ rest) (Ty.resultColonsApart result) result
      rest := by
  cases result with
  | none =>
      have harrow : ∀ ls, Glued rest (Lexeme.tokens ls) → Ahead.op "->" ls = false := fun ls hls =>
        Ahead.op_eq_false hls (Tokens.not_isMark_of_endsType hrest rfl) ['>']
      rw [Ty.resultTokens, Ty.resultColonsApart]
      exact Reads.of_peek harrow (Reads.pure _ _)
  | some t =>
      rw [Ty.isPlainResult] at h
      rw [Ty.resultTokens, List.length_append] at hlength
      rw [Ty.resultTokens, Ty.resultColonsApart, List.append_assoc]
      refine Reads.of_peek (fun ls hls => (Ahead.op_written (by decide) hls).1) ?_
      refine (Reads.op (by decide) _).next ?_
      exact (hr.plain h (by omega) hrest).bind_pure

/-- The inputs and the result of a function as arguments of a trait. -/
theorem Knows.inputs (hr : r.Knows depth) {tys : List Ty} {trailing : Bool} {result : Option Ty}
    (h : (Arguments.paren tys trailing result).isPlain true = true)
    (hlength : (Arguments.paren tys trailing result).tokens.length ≤ depth) {rest : Tokens}
    (hrest : rest.endsType false = true) :
    Reads (Rules.inputs r) ((Arguments.paren tys trailing result).tokens ++ rest)
      (Arguments.paren tys trailing result).colonsApart (.paren tys trailing result) rest := by
  simp only [Arguments.isPlain, Bool.and_eq_true] at h
  obtain ⟨⟨⟨-, htys⟩, hempty⟩, hresult⟩ := h
  have hnil : tys = [] → trailing = true := by
    rintro rfl
    simpa using hempty
  rw [Arguments.tokens, Ty.tokenLists_eq_map] at hlength ⊢
  simp only [List.length_append, Tokens.enclose, List.length_cons] at hlength
  rw [List.append_assoc, Tokens.enclose_append, Arguments.colonsApart]
  refine (Reads.opIf_missing rfl).next ?_
  refine (Reads.group (hr.tyList htys hnil (by omega) .paren _)).bind fun _ => ?_
  exact (hr.result? hresult (by omega) hrest).bind_pure

/-! ## Paths as types -/

/-- A path begins with neither bracket nor punctuation other than its colons. -/
theorem not_isMark_path {rooted inputs : Bool} {path : List Segment} (hne : path ≠ [])
    (h : Segment.arePlain inputs path = true) (rest : Tokens) {c : Char} (hc : c ≠ ':') :
    ((if rooted then Tokens.op "::" else []) ++ (Segment.pathTokens path ++ rest)).head?.any
      (Token.isMark c) = false := by
  cases rooted with
  | true => exact beq_eq_false_iff_ne.mpr hc
  | false =>
      obtain ⟨i, us, htokens, -⟩ := Segment.exists_pathTokens_eq_cons (by simpa using hne) h
      rw [htokens]
      rfl

theorem Knows.typePath_path (hr : r.Knows depth) {rooted : Bool} {path : List Segment}
    (hne : path ≠ []) (h : Segment.arePlain false path = true)
    (hlength : (Segment.pathTokens path).length ≤ depth + 1) {rest : Tokens}
    (hangle : rest.head?.any (Token.isMark '<') = false)
    (hcolon : rest.head?.any (Token.isMark ':') = false) :
    Reads (typePath r false)
      ((if rooted then Tokens.op "::" else []) ++ (Segment.pathTokens path ++ rest))
      (Segment.colonsApart path) (.path rooted path) rest := by
  have hopen : ∀ ls, Glued ((if rooted then Tokens.op "::" else []) ++
      (Segment.pathTokens path ++ rest)) (Lexeme.tokens ls) → Ahead.op "<" ls = false :=
    fun ls hls => Ahead.op_eq_false hls (not_isMark_path hne h rest (by decide)) []
  refine Reads.of_peek hopen ?_
  exact (reads_segments (hr.readsArguments _) hne h hlength hangle hcolon).bind_pure

/-- The segments behind a type in angle brackets. -/
theorem Knows.chainFrom_segment (hr : r.Knows depth) {path : List Segment} (hne : path ≠ [])
    (h : Segment.arePlain false path = true)
    (hlength : (Segment.pathTokens path).length ≤ depth + 1) {rest : Tokens}
    (hangle : rest.head?.any (Token.isMark '<') = false)
    (hcolon : rest.head?.any (Token.isMark ':') = false) :
    Reads (chainFrom (fun _ => true) "::" (segment r.argument false))
      (Segment.pathTokens path ++ rest) (Segment.colonsApart path) ⟨path, false⟩ rest := by
  rw [Segment.arePlain_eq_all, List.all_eq_true] at h
  rw [Segment.pathTokens_eq_joined] at hlength ⊢
  rw [Segment.colonsApart_eq_all]
  refine Reads.chainFrom (by decide) hne ⟨?_, ?_, ?_⟩ ?_
  · intro s hs us hus
    have hle := Reads.length_le_joined_of_mem (Tokens.op "::")
      (List.mem_map_of_mem (f := Segment.tokens) hs) false
    refine reads_segment (hr.readsArguments _) (h s hs) (by omega) fun ls hls => ?_
    refine startsAngle_behind_segment hangle hcolon (hus.imp_right ?_) hls
    rintro ⟨y, -, vs, rfl⟩
    exact ⟨y, vs, (List.append_assoc _ _ _).symm⟩
  · intro s hs us ls hls
    rfl
  · intro ls hls
    exact Ahead.op_eq_false hls hcolon [':']
  · intro s hs
    obtain ⟨i, us, hi⟩ := s.exists_tokens_eq_cons
    rw [hi]
    exact List.cons_ne_nil _ us

/-- The trait in angle brackets, behind its keyword. -/
def traitPart (rooted : Bool) (trait : List Segment) : Tokens :=
  if trait.isEmpty then []
  else Tokens.word "as" Tokens.isSpelling_as ++
    ((if rooted then Tokens.op "::" else []) ++ Segment.pathTokens trait)

theorem qualified_tokens_append (self : Ty) (rooted : Bool) (trait path : List Segment)
    (rest : Tokens) :
    (Ty.qualified self rooted trait path).tokens ++ rest =
      Tokens.op "<" ++ (self.tokens ++ (traitPart rooted trait ++
        (Tokens.op ">" ++ (Tokens.op "::" ++ (Segment.pathTokens path ++ rest))))) := by
  rw [Ty.tokens, traitPart]
  split <;> simp only [List.append_assoc, List.nil_append]

theorem Knows.typePath_qualified (hr : r.Knows depth) {self : Ty} {rooted : Bool}
    {trait path : List Segment} {plus : Bool}
    (h : (Ty.qualified self rooted trait path).isPlain plus = true)
    (hlength : (Ty.qualified self rooted trait path).tokens.length ≤ depth + 1) {rest : Tokens}
    (hangle : rest.head?.any (Token.isMark '<') = false)
    (hcolon : rest.head?.any (Token.isMark ':') = false) :
    Reads (typePath r false) ((Ty.qualified self rooted trait path).tokens ++ rest)
      (Ty.qualified self rooted trait path).colonsApart (.qualified self rooted trait path)
      rest := by
  simp only [Ty.isPlain, Bool.and_eq_true] at h
  obtain ⟨⟨⟨⟨hself, hrooted⟩, htrait⟩, hne⟩, hpath⟩ := h
  have hlengths := congrArg List.length (qualified_tokens_append self rooted trait path [])
  have hopen : (Tokens.op "<").length = 1 := rfl
  simp only [List.append_nil, List.length_append, hopen] at hlengths
  have hends : (traitPart rooted trait ++
      (Tokens.op ">" ++ (Tokens.op "::" ++ (Segment.pathTokens path ++ rest)))).endsType true =
        true := by
    cases trait <;> rfl
  have hbehind : Reads (do
        let _ ← op ">"
        let _ ← op "::"
        let more ← chainFrom (fun _ => true) "::" (segment r.argument false)
        return Ty.qualified self rooted trait more.items)
      (Tokens.op ">" ++ (Tokens.op "::" ++ (Segment.pathTokens path ++ rest)))
      (Segment.colonsApart path) (.qualified self rooted trait path) rest := by
    refine (Reads.op (by decide) _).next ?_
    refine (Reads.op (by decide) _).next ?_
    exact (hr.chainFrom_segment (by simpa using hne) hpath (by omega) hangle hcolon).bind_pure
  rw [qualified_tokens_append, Ty.colonsApart, Bool.and_assoc]
  refine Reads.of_peek (fun ls hls => (Ahead.op_written (by decide) hls).1) ?_
  refine (Reads.op (by decide) _).next ?_
  refine (hr.plain hself (by omega) hends).bind fun _ => ?_
  cases trait with
  | nil =>
      obtain rfl : rooted = false := by simpa using hrooted
      rw [Segment.colonsApart, Bool.true_and]
      exact Reads.of_peek (fun ls hls => Ahead.word_glued hls _) hbehind
  | cons s trait =>
      have hpart : traitPart rooted (s :: trait) = Tokens.word "as" ++
          ((if rooted then Tokens.op "::" else []) ++ Segment.pathTokens (s :: trait)) := rfl
      have has : ∀ ls, Glued (Tokens.word "as" ++ ((if rooted then Tokens.op "::" else []) ++
          (Segment.pathTokens (s :: trait) ++ (Tokens.op ">" ++ (Tokens.op "::" ++
            (Segment.pathTokens path ++ rest)))))) (Lexeme.tokens ls) →
          Ahead.word "as" ls = true := by
        intro ls hls
        rw [Ahead.word_glued hls]
        rfl
      rw [hpart, List.length_append, List.length_append] at hlengths
      rw [hpart, List.append_assoc, List.append_assoc]
      refine Reads.of_peek has ?_
      refine (Reads.word (by decide) _).next ?_
      exact (reads_segments (hr.readsArguments _) (List.cons_ne_nil s trait) htrait (by omega) rfl
        rfl).bind fun _ => hbehind

end Rules

/-! ## Traits -/

/-- A plain path of a trait is one of a type, or its last segment has inputs and a result. -/
theorem Segment.arePlain_true_cases {path : List Segment} (h : Segment.arePlain true path = true) :
    Segment.arePlain false path = true ∨ ∃ init name tys trailing result,
      path = init ++ [.mk name (.paren tys trailing result)] ∧
      Segment.arePlain false (init ++ [.mk name .none]) = true ∧
      (Arguments.paren tys trailing result).isPlain true = true := by
  induction path with
  | nil => exact .inl (by simp [Segment.arePlain])
  | cons segment path ih =>
      obtain ⟨name, arguments⟩ := segment
      rw [Segment.arePlain] at h
      simp only [Bool.and_eq_true] at h
      obtain ⟨⟨⟨hname, harguments⟩, htakes⟩, hpath⟩ := h
      cases path with
      | nil =>
          cases arguments with
          | none => exact .inl (by simp [Segment.arePlain, Arguments.isPlain, hname, htakes])
          | angle colons args trailing =>
              have hangle : (Arguments.angle colons args trailing).isPlain false = true := by
                simpa only [Arguments.isPlain] using harguments
              exact .inl (by simp [Segment.arePlain, hname, hangle, htakes])
          | paren tys trailing result =>
              refine .inr ⟨[], name, tys, trailing, result, rfl, ?_, harguments⟩
              simp [Segment.arePlain, Arguments.isPlain, hname, Arguments.isNone]
      | cons next path =>
          have hfirst : Arguments.isPlain false arguments = true := harguments
          rcases ih hpath with hplain | ⟨init, last, tys, trailing, result, heq, hinit, hlast⟩
          · refine .inl ?_
            rw [Segment.arePlain]
            simp only [Bool.and_eq_true]
            exact ⟨⟨⟨hname, hfirst⟩, htakes⟩, hplain⟩
          · refine .inr ⟨.mk name arguments :: init, last, tys, trailing, result, ?_, ?_, hlast⟩
            · rw [heq, List.cons_append]
            · rw [List.cons_append, Segment.arePlain]
              simp only [Bool.and_eq_true, Bool.false_and]
              exact ⟨⟨⟨hname, hfirst⟩, htakes⟩, hinit⟩

theorem Segment.pathTokens_append_last (init : List Segment) (name : Ident)
    (arguments : Arguments) :
    Segment.pathTokens (init ++ [.mk name arguments]) =
      Segment.pathTokens (init ++ [.mk name .none]) ++ arguments.tokens := by
  cases init with
  | nil => simp [Segment.pathTokens, Arguments.tokens]
  | cons s init =>
      simp [Segment.pathTokens_cons, Segment.tokens, Arguments.tokens]

theorem Segment.colonsApart_append_last (init : List Segment) (name : Ident)
    (arguments : Arguments) :
    Segment.colonsApart (init ++ [.mk name arguments]) =
      (Segment.colonsApart (init ++ [.mk name .none]) && arguments.colonsApart) := by
  simp [Segment.colonsApart_eq_all, Segment.isApart, Arguments.colonsApart]

namespace Rules

open EnumTags.Parser

variable {r : Rules} {depth : Nat}

theorem startsInputs_eq_false {rest : Tokens} {ls : List Lexeme} (h : Glued rest (Lexeme.tokens ls))
    (hrest : rest.endsType false = true) : startsInputs ls = false := by
  have hparen : Ahead.opens .paren ls = false :=
    (Ahead.opens_glued h .paren).trans (Tokens.not_opening_of_endsType hrest .paren)
  have hcolons : Ahead.op "::" ls = false :=
    Ahead.op_eq_false h (Tokens.not_isMark_of_endsType hrest rfl) [':']
  simp only [startsInputs, hparen, hcolons, Bool.false_and, Bool.or_self]

theorem Knows.traitPath (hr : r.Knows depth) (bound : Parser Bound) {rooted : Bool}
    {path : List Segment} (hne : path ≠ []) (h : Segment.arePlain true path = true)
    (hlength : (Segment.pathTokens path).length ≤ depth + 1) {rest : Tokens}
    (hrest : rest.endsType false = true) :
    Reads (Rules.traitPath r (argumentWith r bound))
      ((if rooted then Tokens.op "::" else []) ++ (Segment.pathTokens path ++ rest))
      (Segment.colonsApart path) (rooted, path) rest := by
  rcases Segment.arePlain_true_cases h with hplain | ⟨init, name, tys, trailing, result, rfl, hinit,
    hinputs⟩
  · refine (reads_segments (hr.readsArguments bound) hne hplain hlength
      (Tokens.not_isMark_of_endsType hrest rfl) (Tokens.not_isMark_of_endsType hrest rfl)).finish ?_
    rcases hlast : path.getLast hne with ⟨head, arguments⟩
    simp only [List.getLast?_eq_some_getLast hne, hlast]
    refine Reads.of_peek (fun ls hls => startsInputs_eq_false hls hrest) ?_
    rw [Bool.and_false]
    exact Reads.pure _ _
  · rw [Segment.pathTokens_append_last, List.append_assoc, Segment.colonsApart_append_last]
    rw [Segment.pathTokens_append_last, List.length_append] at hlength
    have hpos : 0 < (Segment.pathTokens (init ++ [.mk name .none])).length := by
      obtain ⟨i, us, htokens, -⟩ := Segment.exists_pathTokens_eq_cons (by simp) hinit
      rw [htokens]
      exact Nat.succ_pos _
    have hstarts : ∀ ls, Glued ((Arguments.paren tys trailing result).tokens ++ rest)
        (Lexeme.tokens ls) → startsInputs ls = true := by
      intro ls hls
      rw [Arguments.tokens, List.append_assoc, Tokens.enclose_append] at hls
      rw [startsInputs, Ahead.opens_glued hls]
      rfl
    refine (reads_segments (hr.readsArguments bound) (by simp) hinit (by omega) rfl rfl).bind
      fun _ => ?_
    simp only [List.getLast?_append, List.getLast?_singleton, Option.some_or, List.dropLast_concat]
    refine Reads.of_peek hstarts ?_
    exact (hr.inputs hinputs (by omega) hrest).bind_pure

end Rules

/-! ## Bounds -/

/-- A trait as a bound, without parentheses. -/
def traitTokens (optional rooted : Bool) (path : List Segment) : Tokens :=
  (if optional then Tokens.op "?" else []) ++
    ((if rooted then Tokens.op "::" else []) ++ Segment.pathTokens path)

namespace Bound

/-- A bound as tokens. -/
def tokens : Bound → Tokens
  | .lifetime l => Tokens.lifetime l
  | .trait paren optional binder rooted segments =>
    let inside := (if optional then Tokens.op "?" else []) ++ binder ++
      (if rooted then Tokens.op "::" else []) ++ Segment.pathTokens segments
    if paren then Tokens.enclose .paren inside else inside
  | .captures tokens => tokens
  | .verbatim tokens => tokens

/-- Whether one bound is plain. -/
def isPlain (b : Bound) : Bool := Bound.arePlain [b]

/-- Whether labels stand apart from paths in one bound. -/
def isApart (b : Bound) : Bool := Bound.colonsApart [b]

theorem tokenLists_eq_map (bounds : List Bound) :
    Bound.tokenLists bounds = bounds.map Bound.tokens := by
  induction bounds with
  | nil => simp [Bound.tokenLists]
  | cons b bounds ih => cases b <;> simp [Bound.tokenLists, tokens, ih]

theorem arePlain_eq_all (bounds : List Bound) :
    Bound.arePlain bounds = bounds.all Bound.isPlain := by
  induction bounds with
  | nil => simp [Bound.arePlain]
  | cons b bounds ih => cases b <;> simp [Bound.arePlain, isPlain, ih]

theorem colonsApart_eq_all (bounds : List Bound) :
    Bound.colonsApart bounds = bounds.all Bound.isApart := by
  induction bounds with
  | nil => simp [Bound.colonsApart]
  | cons b bounds ih => cases b <;> simp [Bound.colonsApart, isApart, ih]

theorem tokens_trait_append (paren optional rooted : Bool) (path : List Segment) (rest : Tokens) :
    (Bound.trait paren optional [] rooted path).tokens ++ rest =
      if paren then .opening .paren :: (traitTokens optional rooted path ++ .closing .paren :: rest)
      else traitTokens optional rooted path ++ rest := by
  cases paren with
  | false => simp [tokens, traitTokens]
  | true => simp [tokens, traitTokens, Tokens.enclose]

end Bound

/-- Whether a trait can begin with this token as a bound. -/
def Token.startsTrait : Token → Bool
  | .ident i => i.isSegment
  | .punct c joint => c == '?' || (c == ':' && joint)
  | .literal _ => false
  | .opening _ => false
  | .closing _ => false

theorem exists_traitTokens_eq_cons {inputs : Bool} {path : List Segment} (hne : path ≠ [])
    (h : Segment.arePlain inputs path = true) (optional rooted : Bool) :
    ∃ u us, traitTokens optional rooted path = u :: us ∧ u.startsTrait = true := by
  cases optional with
  | true => exact ⟨_, _, rfl, rfl⟩
  | false =>
      cases rooted with
      | true => exact ⟨_, _, rfl, by decide⟩
      | false =>
          obtain ⟨i, us, htokens, hi⟩ := Segment.exists_pathTokens_eq_cons (by simpa using hne) h
          exact ⟨.ident i, us, htokens, hi⟩

theorem Token.not_isWord_of_startsTrait {t : Token} (h : t.startsTrait = true) {w : Text}
    (hw : keywords.contains w = true) (hws : Rules.pathWords.contains w = false) :
    t.isWord w = false := by
  cases t with
  | ident i => exact Ident.isPlain_eq_false h hw hws
  | punct c joint => rfl
  | literal s => rfl
  | opening d => rfl
  | closing d => rfl

theorem Token.not_isMark_of_startsTrait {t : Token} (h : t.startsTrait = true) {c : Char}
    (hc : (punct c true).startsTrait = false) : t.isMark c = false := by
  cases t with
  | punct d joint =>
      rw [isMark, beq_eq_false_iff_ne]
      rintro rfl
      simp only [startsTrait, Bool.and_true] at h hc
      simp_all
  | ident i => rfl
  | literal s => rfl
  | opening d => rfl
  | closing d => rfl

theorem Token.not_opening_of_startsTrait {t : Token} (h : t.startsTrait = true) (d : Delimiter) :
    (t == .opening d) = false := by
  cases t with
  | opening d' => cases h
  | ident i => rfl
  | punct c joint => rfl
  | literal s => rfl
  | closing d => rfl

/-- A plain bound begins with something, which is no star. -/
theorem Bound.exists_tokens_eq_cons {b : Bound} (h : b.isPlain = true) :
    ∃ u us, b.tokens = u :: us ∧ u.isMark '*' = false := by
  cases b with
  | lifetime l => exact ⟨_, _, rfl, by decide⟩
  | trait paren optional binder rooted path =>
      simp only [Bound.isPlain, Bound.arePlain, Bool.and_true, Bool.and_eq_true, List.isEmpty_iff]
        at h
      obtain ⟨⟨rfl, hne⟩, hpath⟩ := h
      obtain ⟨u, us, hu, hstarts⟩ :=
        exists_traitTokens_eq_cons (by simpa using hne) hpath optional rooted
      have htokens := Bound.tokens_trait_append paren optional rooted path []
      rw [List.append_nil] at htokens
      cases paren with
      | true => exact ⟨_, _, htokens, rfl⟩
      | false =>
          rw [if_neg (by decide), hu, List.append_nil] at htokens
          exact ⟨u, us, htokens, Token.not_isMark_of_startsTrait hstarts (by decide)⟩
  | captures ts => simp [Bound.isPlain, Bound.arePlain] at h
  | verbatim ts => simp [Bound.isPlain, Bound.arePlain] at h

namespace Rules

open EnumTags.Parser

variable {r : Rules} {depth : Nat}

theorem reads_binder_missing (bound : Parser Bound) {ts : Tokens}
    (h : ts.head?.any (Token.isWord "for") = false) :
    Reads (binderWith r bound) ts true [] ts :=
  Reads.of_peek (fun _ hls => (Ahead.word_glued hls _).trans h) (Reads.pure _ _)

/-- No mark stands before a trait that has none. -/
theorem reads_constMark_missing (place : BoundPlace) {t : Token} {ts : Tokens}
    (h : t.startsTrait = true) : Reads (constMark place) (t :: ts) true false (t :: ts) := by
  refine Reads.of_rest fun ls hls => ?_
  have hbracket : Ahead.opens .bracket ls = false :=
    (Ahead.opens_glued hls _).trans (Token.not_opening_of_startsTrait h .bracket)
  have hconst : Ahead.word "const" ls = false :=
    (Ahead.word_glued hls _).trans (Token.not_isWord_of_startsTrait h (by decide) (by decide))
  simp only [hbracket, hconst, Bool.false_eq_true, if_false]
  exact Reads.pure _ _

theorem Knows.traitBound (hr : r.Knows depth) (bound : Parser Bound) (place : BoundPlace)
    (paren : Bool) {optional rooted : Bool} {path : List Segment} (hne : path ≠ [])
    (h : Segment.arePlain true path = true)
    (hlength : (Segment.pathTokens path).length ≤ depth + 1) {rest : Tokens}
    (hrest : rest.endsType false = true) :
    Reads (Rules.traitBound r (binderWith r bound) (argumentWith r bound) place paren)
      (traitTokens optional rooted path ++ rest) (Segment.colonsApart path)
      (some (.trait paren optional [] rooted path)) rest := by
  obtain ⟨u, us, htokens, hu⟩ := exists_traitTokens_eq_cons hne h optional rooted
  have hfor : (traitTokens optional rooted path ++ rest).head?.any (Token.isWord "for") =
      false := by
    rw [htokens]
    exact Token.not_isWord_of_startsTrait hu (by decide) (by decide)
  have hconst : Reads (constMark place) (traitTokens optional rooted path ++ rest) true false
      (traitTokens optional rooted path ++ rest) := by
    rw [htokens]
    exact reads_constMark_missing place hu
  have hquestion : ((if rooted then Tokens.op "::" else []) ++
      (Segment.pathTokens path ++ rest)).head?.any (Token.isMark '?') = false :=
    not_isMark_path hne h rest (by decide)
  refine (reads_binder_missing bound hfor).next ?_
  refine hconst.next ?_
  rw [traitTokens, List.append_assoc, List.append_assoc]
  refine (Reads.opIf fun _ => hquestion).next ?_
  refine (hr.traitPath bound hne h hlength hrest).finish ?_
  cases optional <;> exact Reads.pure _ _

theorem Knows.boundWith (hr : r.Knows depth) (bound : Parser Bound) (place : BoundPlace)
    {b : Bound} (h : b.isPlain = true) (hlength : b.tokens.length ≤ depth + 1) {rest : Tokens}
    (hrest : rest.endsType false = true) :
    Reads (Rules.boundWith r (binderWith r bound) (argumentWith r bound) place) (b.tokens ++ rest)
      b.isApart b rest := by
  cases b with
  | lifetime l =>
      have happart : (Bound.lifetime l).isApart = true := by simp [Bound.isApart, Bound.colonsApart]
      rw [happart]
      refine Reads.of_rest fun ls hls => ?_
      simp only [Ahead.lifetime_quote hls, if_true]
      exact (Reads.lifetime l rest).bind_pure
  | trait paren optional binder rooted path =>
      simp only [Bound.isPlain, Bound.arePlain, Bool.and_true, Bool.and_eq_true, List.isEmpty_iff]
        at h
      obtain ⟨⟨rfl, hne⟩, hpath⟩ := h
      have hne' : path ≠ [] := by simpa using hne
      have happart : (Bound.trait paren optional [] rooted path).isApart =
          Segment.colonsApart path := by
        simp [Bound.isApart, Bound.colonsApart]
      have hlengths : (Segment.pathTokens path).length ≤ depth + 1 := by
        have hsum := congrArg List.length (Bound.tokens_trait_append paren optional rooted path [])
        cases paren <;> simp [traitTokens] at hsum <;> omega
      obtain ⟨u, us, htokens, hu⟩ := exists_traitTokens_eq_cons hne' hpath optional rooted
      rw [happart, Bound.tokens_trait_append]
      refine Reads.of_rest fun ls hls => ?_
      cases paren with
      | true =>
          have hlifetime : Ahead.lifetime ls = false := Ahead.lifetime_eq_false hls rfl
          have huse : Ahead.word "use" ls = false := Ahead.word_glued hls _
          have hparen : Ahead.opens .paren ls = true := (Ahead.opens_glued hls _).trans rfl
          simp only [hlifetime, huse, hparen, Bool.false_eq_true, if_false, if_true]
          exact (Reads.group (hr.traitBound bound place true hne' hpath hlengths rfl)).finish
            (Reads.pure _ _)
      | false =>
          have hhead : traitTokens optional rooted path ++ rest = u :: (us ++ rest) := by
            rw [htokens, List.cons_append]
          have hls' := hls
          rw [if_neg (by decide), hhead] at hls'
          have hlifetime : Ahead.lifetime ls = false :=
            Ahead.lifetime_eq_false hls' (Token.not_isMark_of_startsTrait hu (by decide))
          have huse : Ahead.word "use" ls = false := (Ahead.word_glued hls' _).trans
            (Token.not_isWord_of_startsTrait hu (by decide) (by decide))
          have hparen : Ahead.opens .paren ls = false :=
            (Ahead.opens_glued hls' _).trans (Token.not_opening_of_startsTrait hu .paren)
          simp only [hlifetime, huse, hparen, Bool.false_eq_true, if_false]
          exact (hr.traitBound bound place false hne' hpath hlengths hrest).finish (Reads.pure _ _)
  | captures ts => simp [Bound.isPlain, Bound.arePlain] at h
  | verbatim ts => simp [Bound.isPlain, Bound.arePlain] at h

/-- **A plain bound is read back.** -/
theorem Knows.bound (hr : r.Knows depth) (place : BoundPlace) {b : Bound} (h : b.isPlain = true)
    (hlength : b.tokens.length ≤ depth + 1) {rest : Tokens} (hrest : rest.endsType false = true) :
    Reads (Rules.bound r place) (b.tokens ++ rest) b.isApart b rest :=
  Reads.of_rest fun _ _ => hr.boundWith _ place h hlength hrest

/-- A bound is seen where a plain one begins. -/
theorem startsBound_tokens {b : Bound} (h : b.isPlain = true) {rest : Tokens} {ls : List Lexeme}
    (hls : Glued (b.tokens ++ rest) (Lexeme.tokens ls)) : startsBound ls = true := by
  cases b with
  | lifetime l =>
      have hlifetime : Ahead.lifetime ls = true := Ahead.lifetime_quote hls
      simp only [startsBound, hlifetime, Bool.or_true, Bool.true_or]
  | trait paren optional binder rooted path =>
      simp only [Bound.isPlain, Bound.arePlain, Bool.and_true, Bool.and_eq_true, List.isEmpty_iff]
        at h
      obtain ⟨⟨rfl, hne⟩, hpath⟩ := h
      rw [Bound.tokens_trait_append] at hls
      cases paren with
      | true =>
          have hparen : Ahead.opens .paren ls = true := (Ahead.opens_glued hls _).trans rfl
          simp only [startsBound, hparen, Bool.or_true, Bool.true_or]
      | false =>
          cases optional with
          | true =>
              have hquestion : Ahead.op "?" ls = true := Ahead.op_glued hls '?'
              simp only [startsBound, hquestion, Bool.or_true, Bool.true_or]
          | false =>
              cases rooted with
              | true =>
                  have hcolons : Ahead.op "::" ls = true := (Ahead.op_written (by decide) hls).1
                  simp only [startsBound, hcolons, Bool.or_true, Bool.true_or]
              | false =>
                  obtain ⟨i, us, htokens, -⟩ := Segment.exists_pathTokens_eq_cons hne hpath
                  have hident : Ahead.anyIdent ls = true := by
                    rw [traitTokens, htokens] at hls
                    obtain ⟨span, rest', rfl, -⟩ := Glued.exists_ident hls
                    rfl
                  simp only [startsBound, hident, Bool.true_or]
  | captures ts => simp [Bound.isPlain, Bound.arePlain] at h
  | verbatim ts => simp [Bound.isPlain, Bound.arePlain] at h

/-- Bounds with plus signs between them where these are allowed, and else a single one. -/
theorem Knows.boundSum (hr : r.Knows depth) (place : BoundPlace) {plus : Bool}
    {bounds : List Bound} (hne : bounds ≠ []) (h : Bound.arePlain bounds = true)
    (hplus : (plus || bounds.length == 1) = true)
    (hlength : (Listed.joined (Tokens.op "+") (bounds.map Bound.tokens) false).length ≤ depth + 1)
    {rest : Tokens} (hrest : rest.endsType plus = true) :
    Reads (Rules.boundSum r place plus)
      (Listed.joined (Tokens.op "+") (bounds.map Bound.tokens) false ++ rest)
      (Bound.colonsApart bounds) ⟨bounds, false⟩ rest := by
  rw [Bound.arePlain_eq_all, List.all_eq_true] at h
  rw [Bound.colonsApart_eq_all]
  have hlengths : ∀ b ∈ bounds, b.tokens.length ≤ depth + 1 := by
    intro b hb
    have hle := Reads.length_le_joined_of_mem (Tokens.op "+")
      (List.mem_map_of_mem (f := Bound.tokens) hb) false
    omega
  cases plus with
  | false =>
      obtain ⟨b, rfl⟩ := List.length_eq_one_iff.mp (by simpa using hplus)
      rw [Reads.joined_singleton, List.all_cons, List.all_nil, Bool.and_true]
      have hread := hr.bound place (h b List.mem_cons_self) (hlengths b List.mem_cons_self) hrest
      exact hread.bind_pure
  | true =>
      refine Reads.chainFrom (by decide) hne ⟨?_, ?_, ?_⟩ ?_
      · intro b hb us hus
        refine hr.bound place (h b hb) (hlengths b hb) ?_
        rcases hus with rfl | ⟨y, -, vs, rfl⟩
        · exact Tokens.endsType_of_plus hrest
        · rfl
      · intro b hb us ls hls
        exact startsBound_tokens (h b hb) hls
      · intro ls hls
        exact Ahead.op_eq_false hls (Tokens.not_isMark_of_endsType hrest rfl) []
      · intro b hb
        obtain ⟨u, us, hu, -⟩ := Bound.exists_tokens_eq_cons (h b hb)
        rw [hu]
        exact List.cons_ne_nil u us

end Rules

end EnumTags

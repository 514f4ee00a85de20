import EnumTags.Proofs.Reading

/-!
# Plain types

Types that hold no tokens of another kind: no array lengths, macro arguments, attributes, binders or
forms that are kept verbatim; nor brackets that are not written. They are built of paths with
arguments, references, pointers, slices, tuples, sums of traits and function types, in the form in
which a parser leaves them.

## Main results

* `Ty.fine_tokens`: a plain type is spelled with whole and balanced tokens.
-/

namespace EnumTags

/-! ## Which types are plain -/

/-- Whether a segment of a path can have this name. -/
def Ident.isSegment (i : Ident) : Bool := i.isName || Rules.pathWords.any (i.isPlain ·)

/-- Whether arguments can follow the name. -/
def Ident.takesArguments (i : Ident) : Bool := i.isName || i.isPlain "Self"

/-- Whether a parameter of a function type can have this label. -/
def Ident.isLabel (isFirst : Bool) (i : Ident) : Bool :=
  i.isName || i.isPlain "_" || (isFirst && i.isPlain "self")

/-- Whether nothing follows the name of a segment. -/
def Arguments.isNone : Arguments → Bool
  | .none => true
  | .angle _ _ _ => false
  | .paren _ _ _ => false

/-- Whether the tokens are a calling convention or nothing. -/
def Tokens.areConvention : Tokens → Bool
  | [] => true
  | [.ident i] => i.isPlain "extern"
  | [.ident i, .literal s] =>
    i.isPlain "extern" && (Token.literal s).isUnbroken && Ahead.isString s
  | _ => false

/-- Whether the tokens are what may stand before `fn` in a plain function type. -/
def Tokens.areQualifiers : Tokens → Bool
  | [] => true
  | t :: ts => if t.isWord "unsafe" then areConvention ts else areConvention (t :: ts)

mutual

/-- Whether the type is plain; `plus` tells whether it may be a sum of bounds. -/
def Ty.isPlain : (plus : Bool) → Ty → Bool
  | _, .slice elem => elem.isPlain true
  | _, .function qualifiers params trailing rest result =>
    qualifiers.areQualifiers && FnParam.arePlain true params && (!params.isEmpty || trailing) &&
      rest.isEmpty && Ty.isPlainResult result
  | plus, .implTrait bounds trailing =>
    Bound.arePlain bounds && Rules.hasTrait bounds && !trailing && (plus || bounds.length == 1)
  | plus, .object keyword bounds trailing =>
    keyword && Bound.arePlain bounds && Rules.hasTrait bounds && !trailing &&
      (plus || bounds.length == 1)
  | _, .infer => true
  | _, .never => true
  | _, .paren inner => inner.isPlain true
  | _, .path _ segments => !segments.isEmpty && Segment.arePlain false segments
  | _, .qualified self rooted trait rest =>
    self.isPlain true && (!trait.isEmpty || !rooted) && Segment.arePlain false trait &&
      !rest.isEmpty && Segment.arePlain false rest
  | _, .pointer _ target => target.isPlain false
  | _, .reference _ _ target => target.isPlain false
  | _, .tuple elems trailing =>
    Ty.arePlain elems && (1 < elems.length || trailing == (elems.length == 1))
  | _, .group _ => false
  | _, .array _ _ => false
  | _, .invocation _ _ _ => false
  | _, .verbatim _ => false

/-- Whether all types of a list are plain. -/
def Ty.arePlain : List Ty → Bool
  | [] => true
  | t :: ts => t.isPlain true && Ty.arePlain ts

/-- Whether the result of a function is plain, if it has one. -/
def Ty.isPlainResult : Option Ty → Bool
  | .none => true
  | .some t => t.isPlain false

/-- Whether all parameters are plain. -/
def FnParam.arePlain : (isFirst : Bool) → List FnParam → Bool
  | _, [] => true
  | isFirst, .mk attributes label ty :: ps =>
    attributes.isEmpty && label.all (Ident.isLabel isFirst) && ty.isPlain true &&
      FnParam.arePlain false ps

/-- Whether all segments are plain; `inputs` tells whether the last one may have arguments in
parentheses. -/
def Segment.arePlain : (inputs : Bool) → List Segment → Bool
  | _, [] => true
  | inputs, .mk name arguments :: rest =>
    name.isSegment && arguments.isPlain (inputs && rest.isEmpty) &&
      (name.takesArguments || arguments.isNone) && Segment.arePlain inputs rest

/-- Whether the arguments are plain; `inputs` tells whether they may be in parentheses. -/
def Arguments.isPlain : (inputs : Bool) → Arguments → Bool
  | _, .none => true
  | _, .angle _ args trailing => Argument.arePlain true args && (!args.isEmpty || trailing)
  | inputs, .paren tys trailing result =>
    inputs && Ty.arePlain tys && (!tys.isEmpty || trailing) && Ty.isPlainResult result

/-- Whether all arguments are plain and lifetimes come first; `lifetimes` tells whether one may
stand here. -/
def Argument.arePlain : (lifetimes : Bool) → List Argument → Bool
  | _, [] => true
  | lifetimes, .lifetime _ :: args => lifetimes && Argument.arePlain true args
  | _, .type ty :: args => ty.isPlain true && Argument.arePlain false args
  | _, .const value :: args =>
    (match value with | [.literal s] => (Token.literal s).isUnbroken | _ => false) &&
      Argument.arePlain false args
  | _, .assocType name generics ty :: args =>
    name.isName && generics.isPlain false && ty.isPlain true && Argument.arePlain false args
  | _, .assocConst _ _ _ :: _ => false
  | _, .constraint _ _ _ _ :: _ => false

/-- Whether all bounds are plain. -/
def Bound.arePlain : List Bound → Bool
  | [] => true
  | .lifetime _ :: bounds => Bound.arePlain bounds
  | .trait _ _ binder _ segments :: bounds =>
    binder.isEmpty && !segments.isEmpty && Segment.arePlain true segments && Bound.arePlain bounds
  | .captures _ :: _ => false
  | .verbatim _ :: _ => false

end

/-! ## Labels before paths -/

/-- Whether the type is spelled with the two colons of a path at its start. -/
def Ty.isRooted : Ty → Bool
  | .path rooted _ => rooted
  | _ => false

mutual

/-- Whether no label of a parameter stands directly before the colons of a path, here or in any
part of the type. -/
def Ty.colonsApart : Ty → Bool
  | .slice elem => elem.colonsApart
  | .function _ params _ _ result => FnParam.colonsApart params && Ty.resultColonsApart result
  | .implTrait bounds _ => Bound.colonsApart bounds
  | .object _ bounds _ => Bound.colonsApart bounds
  | .paren inner => inner.colonsApart
  | .group inner => inner.colonsApart
  | .path _ segments => Segment.colonsApart segments
  | .qualified self _ trait rest =>
    self.colonsApart && Segment.colonsApart trait && Segment.colonsApart rest
  | .pointer _ target => target.colonsApart
  | .reference _ _ target => target.colonsApart
  | .tuple elems _ => Ty.allColonsApart elems
  | .array elem _ => elem.colonsApart
  | .infer => true
  | .never => true
  | .invocation _ _ _ => true
  | .verbatim _ => true

/-- The same for a list of types. -/
def Ty.allColonsApart : List Ty → Bool
  | [] => true
  | t :: ts => t.colonsApart && Ty.allColonsApart ts

/-- The same for the result of a function. -/
def Ty.resultColonsApart : Option Ty → Bool
  | .none => true
  | .some t => t.colonsApart

/-- The same for parameters, where the labels are. -/
def FnParam.colonsApart : List FnParam → Bool
  | [] => true
  | .mk _ label ty :: ps =>
    !(label.isSome && ty.isRooted) && ty.colonsApart && FnParam.colonsApart ps

/-- The same for the segments of a path. -/
def Segment.colonsApart : List Segment → Bool
  | [] => true
  | .mk _ arguments :: rest => arguments.colonsApart && Segment.colonsApart rest

/-- The same for the arguments of a segment. -/
def Arguments.colonsApart : Arguments → Bool
  | .none => true
  | .angle _ args _ => Argument.colonsApart args
  | .paren tys _ result => Ty.allColonsApart tys && Ty.resultColonsApart result

/-- The same for arguments in angle brackets. -/
def Argument.colonsApart : List Argument → Bool
  | [] => true
  | .lifetime _ :: args => Argument.colonsApart args
  | .type ty :: args => ty.colonsApart && Argument.colonsApart args
  | .const _ :: args => Argument.colonsApart args
  | .assocType _ generics ty :: args =>
    generics.colonsApart && ty.colonsApart && Argument.colonsApart args
  | .assocConst _ generics _ :: args => generics.colonsApart && Argument.colonsApart args
  | .constraint _ generics bounds _ :: args =>
    generics.colonsApart && Bound.colonsApart bounds && Argument.colonsApart args

/-- The same for bounds. -/
def Bound.colonsApart : List Bound → Bool
  | [] => true
  | .trait _ _ _ _ segments :: bounds => Segment.colonsApart segments && Bound.colonsApart bounds
  | .lifetime _ :: bounds => Bound.colonsApart bounds
  | .captures _ :: bounds => Bound.colonsApart bounds
  | .verbatim _ :: bounds => Bound.colonsApart bounds

end

/-! ### Lifetimes first -/

/-- The items from number `k` on of `n` items, each with whether a comma stands behind it. -/
def marked (n : Nat) (trailing : Bool) (k : Nat) (items : List (Bool × Tokens)) :
    List (Bool × Tokens × Bool) :=
  (items.zipIdx k).map fun ((isLifetime, ts), i) => (isLifetime, ts, trailing || i + 1 < n)

/-- Items written with their commas. -/
def writtenItems (xs : List (Bool × Tokens × Bool)) : Tokens :=
  (xs.map fun (_, ts, hasComma) => ts ++ (if hasComma then Tokens.op "," else [])).flatten

/-- The comma between lifetimes and other items, where the last lifetime has none. -/
def lifetimeGap (lifetimes others : List (Bool × Tokens × Bool)) : Tokens :=
  match lifetimes.getLast? with
  | some (_, _, false) => if others.isEmpty then [] else Tokens.op ","
  | _ => []

theorem lifetimesFirst_eq (items : List (Bool × Tokens)) (trailing : Bool) :
    lifetimesFirst items trailing =
      writtenItems ((marked items.length trailing 0 items).filter (·.1)) ++
        lifetimeGap ((marked items.length trailing 0 items).filter (·.1))
          ((marked items.length trailing 0 items).filter (!·.1)) ++
        writtenItems ((marked items.length trailing 0 items).filter (!·.1)) :=
  rfl

/-- Whether lifetimes come before other items. -/
def lifetimesLead : List (Bool × Tokens) → Bool
  | [] => true
  | (true, _) :: items => lifetimesLead items
  | (false, _) :: items => items.all (!·.1)

theorem marked_cons (n : Nat) (trailing : Bool) (k : Nat) (item : Bool × Tokens)
    (items : List (Bool × Tokens)) :
    marked n trailing k (item :: items) =
      (item.1, item.2, trailing || k + 1 < n) :: marked n trailing (k + 1) items := by
  simp [marked, List.zipIdx_cons]

theorem writtenItems_marked (trailing : Bool) (k : Nat) (items : List (Bool × Tokens)) :
    writtenItems (marked (k + items.length) trailing k items) =
      Listed.joined (Tokens.op ",") (items.map Prod.snd) trailing := by
  induction items generalizing k with
  | nil => rfl
  | cons item items ih =>
      have hnext := ih (k + 1)
      rw [marked_cons, List.length_cons, ← Nat.add_assoc, Nat.add_right_comm]
      rw [writtenItems] at hnext ⊢
      rw [List.map_cons, List.flatten_cons, hnext]
      cases items with
      | nil => cases trailing <;> simp [Listed.joined]
      | cons item' items => simp [Listed.joined]

theorem writtenItems_cons (x : Bool × Tokens × Bool) (xs : List (Bool × Tokens × Bool)) :
    writtenItems (x :: xs) = writtenItems [x] ++ writtenItems xs := by
  simp [writtenItems]

theorem all_marked {items : List (Bool × Tokens)} (h : items.all (!·.1) = true) (n : Nat)
    (trailing : Bool) (k : Nat) : ∀ x ∈ marked n trailing k items, x.1 = false := by
  induction items generalizing k with
  | nil => exact fun x hx => nomatch hx
  | cons item items ih =>
      simp only [List.all_cons, Bool.and_eq_true, Bool.not_eq_true'] at h
      rw [marked_cons]
      intro x hx
      rcases List.mem_cons.mp hx with rfl | hx
      · exact h.1
      · exact ih (by simpa using h.2) (k + 1) x hx

/-- One more lifetime at the front needs no comma behind the last one, since its own is there unless
nothing follows. -/
theorem lifetimeGap_cons (ts : Tokens) (items : List (Bool × Tokens)) (trailing : Bool) (k : Nat) :
    let xs := marked (k + 1 + items.length) trailing (k + 1) items
    lifetimeGap ((true, ts, trailing || decide (k + 1 < k + 1 + items.length)) :: xs.filter (·.1))
        (xs.filter (!·.1)) = lifetimeGap (xs.filter (·.1)) (xs.filter (!·.1)) := by
  intro xs
  cases hlifetimes : xs.filter (·.1) with
  | cons y ys => rw [lifetimeGap, lifetimeGap, List.getLast?_cons_cons]
  | nil =>
      cases items with
      | nil =>
          have hxs : xs = [] := rfl
          cases trailing <;> simp [lifetimeGap, hxs]
      | cons item items => simp [lifetimeGap]

/-- Where lifetimes lead, putting them first changes nothing. -/
theorem writtenItems_filter {items : List (Bool × Tokens)} (h : lifetimesLead items = true)
    (trailing : Bool) (k : Nat) :
    let xs := marked (k + items.length) trailing k items
    writtenItems (xs.filter (·.1)) ++ lifetimeGap (xs.filter (·.1)) (xs.filter (!·.1)) ++
      writtenItems (xs.filter (!·.1)) = writtenItems xs := by
  induction items generalizing k with
  | nil => rfl
  | cons item items ih =>
      obtain ⟨isLifetime, ts⟩ := item
      rw [marked_cons, List.length_cons, ← Nat.add_assoc, Nat.add_right_comm]
      cases isLifetime with
      | true =>
          have hnext := ih h (k + 1)
          simp only at hnext ⊢
          rw [List.filter_cons_of_pos rfl, List.filter_cons_of_neg (by simp), writtenItems_cons,
            lifetimeGap_cons, List.append_assoc, List.append_assoc, ← List.append_assoc _ _
              (writtenItems (List.filter _ _)), hnext, ← writtenItems_cons]
      | false =>
          have hothers := all_marked h (k + 1 + items.length) trailing (k + 1)
          simp only
          rw [List.filter_cons_of_neg (by simp), List.filter_cons_of_pos rfl,
            List.filter_eq_nil_iff.mpr (by simpa using hothers),
            List.filter_eq_self.mpr (by simpa using hothers)]
          rfl

theorem lifetimesFirst_of_lead {items : List (Bool × Tokens)} (h : lifetimesLead items = true)
    (trailing : Bool) :
    lifetimesFirst items trailing =
      Listed.joined (Tokens.op ",") (items.map Prod.snd) trailing := by
  have hwritten := writtenItems_marked trailing 0 items
  have hfilter := writtenItems_filter h trailing 0
  rw [Nat.zero_add] at hwritten hfilter
  rw [lifetimesFirst_eq, ← hwritten]
  exact hfilter

/-! ## The tokens of a plain type -/

namespace Tokens

/-- Whole and linked tokens in which all brackets are paired. -/
structure Fine (ts : Tokens) : Prop where
  sound : ts.sound = true
  balanced : ∀ opened rest, Lexer.balanced opened (ts ++ rest) = Lexer.balanced opened rest

namespace Fine

theorem nil : Fine [] := ⟨rfl, fun _ _ => rfl⟩

theorem append {ts us : Tokens} (hts : Fine ts) (hus : Fine us) : Fine (ts ++ us) where
  sound := sound_append hts.sound hus.sound
  balanced opened rest := by rw [List.append_assoc, hts.balanced, hus.balanced]

/-- Tokens that are no brackets are balanced. -/
theorem of_leaves {ts : Tokens} (hsound : ts.sound = true)
    (h : ts.all (fun t => !(t matches .opening _ | .closing _)) = true) : Fine ts := by
  refine ⟨hsound, fun opened rest => ?_⟩
  induction ts with
  | nil => rfl
  | cons t ts ih =>
      simp only [Tokens.sound, Bool.and_eq_true, List.all_cons] at hsound h
      have hrest := ih hsound.2 h.2
      cases t with
      | ident i => cases opened <;> exact hrest
      | punct c joint => cases opened <;> exact hrest
      | literal s => cases opened <;> exact hrest
      | opening d => exact absurd h.1 (by simp)
      | closing d => exact absurd h.1 (by simp)

theorem ident (i : Ident) : Fine [.ident i] :=
  of_leaves (by simp [Tokens.sound, Token.isUnbroken_ident, Token.linked]) rfl

theorem literal {s : Text} (h : (Token.literal s).isUnbroken = true) : Fine [.literal s] :=
  of_leaves (by simp [Tokens.sound, h, Token.linked]) rfl

theorem lifetime (i : Ident) : Fine (Tokens.lifetime i) := by
  have hquote : (Token.punct '\'' true).isUnbroken = true := by decide
  have hname : (Token.ident i).followsQuote = true := rfl
  exact of_leaves (by simp [Tokens.lifetime, Tokens.sound, hquote, Token.isUnbroken_ident,
    Token.linked, hname]) rfl

theorem enclose (d : Delimiter) {ts : Tokens} (h : Fine ts) : Fine (Tokens.enclose d ts) where
  sound := by
    have hopening : Tokens.sound [.opening d] = true := by cases d <;> decide
    have hclosing : Tokens.sound [.closing d] = true := by cases d <;> decide
    exact sound_append hopening (sound_append h.sound hclosing)
  balanced opened rest := by
    have hinside := h.balanced (d :: opened) (.closing d :: rest)
    simp only [Tokens.enclose, List.cons_append, List.append_assoc, List.nil_append,
      Lexer.balanced, hinside, beq_self_eq_true, Bool.true_and]

theorem joined {separator : Tokens} (hseparator : Fine separator) {lists : List Tokens}
    (h : ∀ ts ∈ lists, Fine ts) (trailing : Bool) :
    Fine (Listed.joined separator lists trailing) := by
  induction lists with
  | nil => exact nil
  | cons ts rest ih =>
      have hts := h ts List.mem_cons_self
      cases rest with
      | nil => cases trailing <;> simp only [Listed.joined] <;> simp [hts, hts.append hseparator]
      | cons us rest =>
          exact (hts.append hseparator).append (ih fun vs hvs => h vs (List.mem_cons_of_mem ts hvs))

end Fine

end Tokens

/-! ### Every plain type -/

theorem Tokens.fine_op {o : Text} (h : (Tokens.op o).sound = true) : Tokens.Fine (Tokens.op o) := by
  refine .of_leaves h ?_
  clear h
  fun_induction Tokens.op o with
  | case1 => rfl
  | case2 c => rfl
  | case3 c rest _ ih => exact ih

theorem Tokens.fine_convention {ts : Tokens} (h : ts.areConvention = true) : Tokens.Fine ts := by
  rw [Tokens.areConvention.eq_def] at h
  split at h
  · exact .nil
  · exact .ident _
  · simp only [Bool.and_eq_true] at h
    exact (Fine.ident _).append (Fine.literal h.1.2)
  · cases h

theorem Tokens.fine_qualifiers {ts : Tokens} (h : ts.areQualifiers = true) : Tokens.Fine ts := by
  cases ts with
  | nil => exact .nil
  | cons t ts =>
      rw [Tokens.areQualifiers] at h
      split at h
      · rename_i hunsafe
        cases t with
        | ident i => exact (Fine.ident i).append (fine_convention h)
        | punct c joint => cases hunsafe
        | literal s => cases hunsafe
        | opening d => cases hunsafe
        | closing d => cases hunsafe
      · exact fine_convention h

theorem Argument.not_isLifetime_of_arePlain {args : List Argument}
    (h : Argument.arePlain false args = true) :
    (Argument.tokenLists args).all (!·.1) = true := by
  induction args with
  | nil => rw [Argument.tokenLists]; rfl
  | cons arg args ih =>
      cases arg with
      | lifetime l => simp [Argument.arePlain] at h
      | assocConst name generics value => simp [Argument.arePlain] at h
      | constraint name generics bounds trailing => simp [Argument.arePlain] at h
      | type ty | const value | assocType name generics ty =>
          simp only [Argument.arePlain, Bool.and_eq_true] at h
          simpa [Argument.tokenLists] using ih h.2

/-- Plain arguments are written in the order in which they stand. -/
theorem Argument.lifetimesLead_tokenLists {args : List Argument} {lifetimes : Bool}
    (h : Argument.arePlain lifetimes args = true) :
    lifetimesLead (Argument.tokenLists args) = true := by
  induction args generalizing lifetimes with
  | nil => rw [Argument.tokenLists]; rfl
  | cons arg args ih =>
      cases arg with
      | lifetime l =>
          simp only [Argument.arePlain, Bool.and_eq_true] at h
          rw [Argument.tokenLists]
          exact ih h.2
      | assocConst name generics value => simp [Argument.arePlain] at h
      | constraint name generics bounds trailing => simp [Argument.arePlain] at h
      | type ty | const value | assocType name generics ty =>
          simp only [Argument.arePlain, Bool.and_eq_true] at h
          rw [Argument.tokenLists]
          exact Argument.not_isLifetime_of_arePlain h.2

theorem Tokens.Fine.when {ts : Tokens} (h : Tokens.Fine ts) (b : Bool) :
    Tokens.Fine (if b then ts else []) := by
  cases b with
  | false => exact .nil
  | true => exact h

theorem Tokens.fine_word (name : Text) (spelled : isSpelling false name = true) :
    Tokens.Fine (Tokens.word name spelled) :=
  .ident _

mutual

theorem Ty.fine_tokens {plus : Bool} : (t : Ty) → t.isPlain plus = true → Tokens.Fine t.tokens
  | .slice elem, h => by
    simp only [Ty.isPlain] at h
    rw [Ty.tokens]
    exact (Ty.fine_tokens elem h).enclose _
  | .function qualifiers params trailing rest result, h => by
    simp only [Ty.isPlain, Bool.and_eq_true, List.isEmpty_iff] at h
    obtain ⟨⟨⟨⟨hqualifiers, hparams⟩, -⟩, rfl⟩, hresult⟩ := h
    rw [Ty.tokens]
    refine .append (.append ((Tokens.fine_qualifiers hqualifiers).append (Tokens.fine_word _ _))
      (.enclose _ ?_)) (Ty.fine_resultTokens result hresult)
    simpa using Tokens.Fine.joined (Tokens.fine_op (by decide))
      (FnParam.fine_tokenLists params hparams) trailing
  | .implTrait bounds trailing, h => by
    simp only [Ty.isPlain, Bool.and_eq_true] at h
    rw [Ty.tokens]
    exact (Tokens.fine_word _ _).append
      (.joined (Tokens.fine_op (by decide)) (Bound.fine_tokenLists bounds h.1.1.1) _)
  | .object keyword bounds trailing, h => by
    simp only [Ty.isPlain, Bool.and_eq_true] at h
    rw [Ty.tokens]
    exact ((Tokens.fine_word _ _).when keyword).append
      (.joined (Tokens.fine_op (by decide)) (Bound.fine_tokenLists bounds h.1.1.1.2) _)
  | .infer, _ => by
    rw [Ty.tokens]
    exact Tokens.fine_word _ _
  | .never, _ => by
    rw [Ty.tokens]
    exact Tokens.fine_op (by decide)
  | .paren inner, h => by
    simp only [Ty.isPlain] at h
    rw [Ty.tokens]
    exact (Ty.fine_tokens inner h).enclose _
  | .path rooted segments, h => by
    simp only [Ty.isPlain, Bool.and_eq_true] at h
    rw [Ty.tokens]
    exact ((Tokens.fine_op (by decide)).when rooted).append (Segment.fine_pathTokens segments h.2)
  | .qualified self rooted trait rest, h => by
    simp only [Ty.isPlain, Bool.and_eq_true] at h
    obtain ⟨⟨⟨⟨hself, -⟩, htrait⟩, -⟩, hrest⟩ := h
    have hclose : Tokens.Fine (Tokens.op ">" ++ Tokens.op "::") :=
      (Tokens.fine_op (by decide)).append (Tokens.fine_op (by decide))
    rw [Ty.tokens]
    refine .append (.append ((Tokens.fine_op (by decide)).append (Ty.fine_tokens self hself)) ?_)
      (Segment.fine_pathTokens rest hrest)
    split
    · exact hclose
    · rw [List.append_assoc]
      exact .append (.append ((Tokens.fine_word _ _).append
        ((Tokens.fine_op (by decide)).when rooted)) (Segment.fine_pathTokens trait htrait)) hclose
  | .pointer mutable target, h => by
    simp only [Ty.isPlain] at h
    rw [Ty.tokens]
    refine .append ((Tokens.fine_op (by decide)).append ?_) (Ty.fine_tokens target h)
    cases mutable <;> exact Tokens.fine_word _ _
  | .reference lifetime mutable target, h => by
    simp only [Ty.isPlain] at h
    simp only [Ty.tokens]
    refine .append (.append ((Tokens.fine_op (by decide)).append ?_)
      ((Tokens.fine_word _ _).when mutable)) (Ty.fine_tokens target h)
    cases lifetime with
    | none => exact .nil
    | some l => exact .lifetime l
  | .tuple elems trailing, h => by
    simp only [Ty.isPlain, Bool.and_eq_true] at h
    rw [Ty.tokens]
    exact .enclose _ (.joined (Tokens.fine_op (by decide)) (Ty.fine_tokenLists elems h.1) _)

theorem Ty.fine_tokenLists : (tys : List Ty) → Ty.arePlain tys = true →
    ∀ ts ∈ Ty.tokenLists tys, Tokens.Fine ts
  | [], _ => by simp [Ty.tokenLists]
  | t :: tys, h => by
    simp only [Ty.arePlain, Bool.and_eq_true] at h
    simp only [Ty.tokenLists, List.forall_mem_cons]
    exact ⟨Ty.fine_tokens t h.1, Ty.fine_tokenLists tys h.2⟩

theorem Ty.fine_resultTokens : (result : Option Ty) → Ty.isPlainResult result = true →
    Tokens.Fine (Ty.resultTokens result)
  | .none, _ => by
    rw [Ty.resultTokens]
    exact .nil
  | .some t, h => by
    simp only [Ty.isPlainResult] at h
    rw [Ty.resultTokens]
    exact (Tokens.fine_op (by decide)).append (Ty.fine_tokens t h)

theorem Segment.fine_pathTokens {inputs : Bool} : (segments : List Segment) →
    Segment.arePlain inputs segments = true → Tokens.Fine (Segment.pathTokens segments)
  | [], _ => by
    rw [Segment.pathTokens]
    exact .nil
  | [.mk name arguments], h => by
    simp only [Segment.arePlain, Bool.and_eq_true] at h
    rw [Segment.pathTokens]
    exact (Tokens.Fine.ident name).append (Arguments.fine_tokens arguments h.1.1.2)
  | .mk name arguments :: segment :: rest, h => by
    rw [Segment.arePlain] at h
    simp only [Bool.and_eq_true] at h
    simp only [Segment.pathTokens]
    exact (((Tokens.Fine.ident name).append (Arguments.fine_tokens arguments h.1.1.2)).append
      (Tokens.fine_op (by decide))).append (Segment.fine_pathTokens (segment :: rest) h.2)

theorem Arguments.fine_tokens {inputs : Bool} : (arguments : Arguments) →
    arguments.isPlain inputs = true → Tokens.Fine arguments.tokens
  | .none, _ => by
    rw [Arguments.tokens]
    exact .nil
  | .angle colons args trailing, h => by
    simp only [Arguments.isPlain, Bool.and_eq_true] at h
    rw [Arguments.tokens, lifetimesFirst_of_lead (Argument.lifetimesLead_tokenLists h.1)]
    exact .append (.append (((Tokens.fine_op (by decide)).when colons).append
      (Tokens.fine_op (by decide))) (.joined (Tokens.fine_op (by decide))
        (Argument.fine_tokenLists args h.1) trailing)) (Tokens.fine_op (by decide))
  | .paren tys trailing result, h => by
    simp only [Arguments.isPlain, Bool.and_eq_true] at h
    rw [Arguments.tokens]
    exact (Tokens.Fine.enclose _ (.joined (Tokens.fine_op (by decide))
      (Ty.fine_tokenLists tys h.1.1.2) _)).append (Ty.fine_resultTokens result h.2)

theorem FnParam.fine_tokenLists {isFirst : Bool} : (params : List FnParam) →
    FnParam.arePlain isFirst params = true → ∀ ts ∈ FnParam.tokenLists params, Tokens.Fine ts
  | [], _ => by simp [FnParam.tokenLists]
  | .mk attributes label ty :: params, h => by
    simp only [FnParam.arePlain, Bool.and_eq_true, List.isEmpty_iff] at h
    obtain ⟨⟨⟨rfl, -⟩, hty⟩, hparams⟩ := h
    simp only [FnParam.tokenLists, List.forall_mem_cons]
    refine ⟨.append (.append .nil ?_) (Ty.fine_tokens ty hty), FnParam.fine_tokenLists params hparams⟩
    cases label with
    | none => exact .nil
    | some i => exact (Tokens.Fine.ident i).append (Tokens.fine_op (by decide))

theorem Argument.fine_tokenLists {lifetimes : Bool} : (args : List Argument) →
    Argument.arePlain lifetimes args = true →
      ∀ ts ∈ (Argument.tokenLists args).map Prod.snd, Tokens.Fine ts
  | [], _ => by simp [Argument.tokenLists]
  | .lifetime l :: args, h => by
    simp only [Argument.arePlain, Bool.and_eq_true] at h
    simp only [Argument.tokenLists, List.map_cons, List.forall_mem_cons]
    exact ⟨.lifetime l, Argument.fine_tokenLists args h.2⟩
  | .type ty :: args, h => by
    simp only [Argument.arePlain, Bool.and_eq_true] at h
    simp only [Argument.tokenLists, List.map_cons, List.forall_mem_cons]
    exact ⟨Ty.fine_tokens ty h.1, Argument.fine_tokenLists args h.2⟩
  | .const value :: args, h => by
    simp only [Argument.arePlain, Bool.and_eq_true] at h
    simp only [Argument.tokenLists, List.map_cons, List.forall_mem_cons]
    refine ⟨?_, Argument.fine_tokenLists args h.2⟩
    split at h
    · exact .literal h.1
    · exact absurd h.1 (by decide)
  | .assocType name generics ty :: args, h => by
    simp only [Argument.arePlain, Bool.and_eq_true] at h
    simp only [Argument.tokenLists, List.map_cons, List.forall_mem_cons]
    exact ⟨.append (((Tokens.Fine.ident name).append (Arguments.fine_tokens generics h.1.1.2)).append
      (Tokens.fine_op (by decide))) (Ty.fine_tokens ty h.1.2), Argument.fine_tokenLists args h.2⟩
  | .assocConst _ _ _ :: _, h => by simp [Argument.arePlain] at h
  | .constraint _ _ _ _ :: _, h => by simp [Argument.arePlain] at h

theorem Bound.fine_tokenLists : (bounds : List Bound) → Bound.arePlain bounds = true →
    ∀ ts ∈ Bound.tokenLists bounds, Tokens.Fine ts
  | [], _ => by simp [Bound.tokenLists]
  | .lifetime l :: bounds, h => by
    simp only [Bound.arePlain] at h
    simp only [Bound.tokenLists, List.forall_mem_cons]
    exact ⟨.lifetime l, Bound.fine_tokenLists bounds h⟩
  | .trait paren optional binder rooted segments :: bounds, h => by
    simp only [Bound.arePlain, Bool.and_eq_true, List.isEmpty_iff] at h
    obtain ⟨⟨⟨rfl, -⟩, hsegments⟩, hbounds⟩ := h
    simp only [Bound.tokenLists, List.forall_mem_cons]
    refine ⟨?_, Bound.fine_tokenLists bounds hbounds⟩
    have hinside := Tokens.Fine.append (.append (.append
      ((Tokens.fine_op (o := "?") (by decide)).when optional) .nil)
        ((Tokens.fine_op (o := "::") (by decide)).when rooted))
          (Segment.fine_pathTokens segments hsegments)
    cases paren with
    | false => exact hinside
    | true => exact hinside.enclose _
  | .captures _ :: _, h => by simp [Bound.arePlain] at h
  | .verbatim _ :: _, h => by simp [Bound.arePlain] at h

end

/-! ## One part at a time -/

/-- An argument in angle brackets, as tokens. -/
def Argument.tokens : Argument → Tokens
  | .lifetime l => Tokens.lifetime l
  | .type ty => ty.tokens
  | .const value => value
  | .assocType name generics ty =>
    Tokens.ofIdent name ++ generics.tokens ++ Tokens.op "=" ++ ty.tokens
  | .assocConst name generics value =>
    Tokens.ofIdent name ++ generics.tokens ++ Tokens.op "=" ++ value
  | .constraint name generics bounds trailing =>
    Tokens.ofIdent name ++ generics.tokens ++ Tokens.op ":" ++
      Listed.joined (Tokens.op "+") (Bound.tokenLists bounds) trailing

theorem Argument.map_snd_tokenLists (args : List Argument) :
    (Argument.tokenLists args).map Prod.snd = args.map Argument.tokens := by
  induction args with
  | nil => simp [Argument.tokenLists]
  | cons arg args ih => cases arg <;> simp [Argument.tokenLists, Argument.tokens, ih]

/-- Whether one argument is plain. -/
def Argument.isPlain (arg : Argument) : Bool := Argument.arePlain true [arg]

/-- Whether labels stand apart from paths in one argument. -/
def Argument.isApart (arg : Argument) : Bool := Argument.colonsApart [arg]

theorem Argument.colonsApart_eq_all (args : List Argument) :
    Argument.colonsApart args = args.all Argument.isApart := by
  induction args with
  | nil => simp [Argument.colonsApart]
  | cons arg args ih =>
      cases arg <;> simp [Argument.isApart, Argument.colonsApart, ih]

theorem Argument.isPlain_of_arePlain {args : List Argument} {lifetimes : Bool}
    (h : Argument.arePlain lifetimes args = true) : ∀ arg ∈ args, arg.isPlain = true := by
  induction args generalizing lifetimes with
  | nil => exact fun arg harg => nomatch harg
  | cons arg args ih =>
      intro arg' harg
      rcases List.mem_cons.mp harg with rfl | hmem
      · cases arg' <;> simp_all [Argument.isPlain, Argument.arePlain]
      · cases arg <;> simp only [Argument.arePlain, Bool.and_eq_true, Bool.false_eq_true] at h <;>
          exact ih h.2 arg' hmem

/-- A segment as tokens. -/
def Segment.tokens : Segment → Tokens
  | .mk name arguments => Tokens.ofIdent name ++ arguments.tokens

/-- Whether labels stand apart from paths in one segment. -/
def Segment.isApart : Segment → Bool
  | .mk _ arguments => arguments.colonsApart

theorem Segment.pathTokens_cons (segment : Segment) (rest : List Segment) :
    Segment.pathTokens (segment :: rest) =
      segment.tokens ++ (rest.map fun s => Tokens.op "::" ++ s.tokens).flatten := by
  induction rest generalizing segment with
  | nil =>
      obtain ⟨name, arguments⟩ := segment
      simp [Segment.pathTokens, Segment.tokens]
  | cons next rest ih =>
      obtain ⟨name, arguments⟩ := segment
      simp only [Segment.pathTokens, ih next, Segment.tokens, List.map_cons, List.flatten_cons,
        List.append_assoc]

theorem Segment.pathTokens_eq_joined (segments : List Segment) :
    Segment.pathTokens segments =
      Listed.joined (Tokens.op "::") (segments.map Segment.tokens) false := by
  induction segments with
  | nil => simp [Segment.pathTokens, Listed.joined]
  | cons segment rest ih =>
      obtain ⟨name, arguments⟩ := segment
      cases rest with
      | nil => simp [Segment.pathTokens, Segment.tokens, Listed.joined]
      | cons next rest =>
          simp only [Segment.pathTokens, ih, Segment.tokens, List.map_cons, Listed.joined]

theorem Segment.colonsApart_eq_all (segments : List Segment) :
    Segment.colonsApart segments = segments.all Segment.isApart := by
  induction segments with
  | nil => simp [Segment.colonsApart]
  | cons segment segments ih =>
      obtain ⟨name, arguments⟩ := segment
      simp [Segment.colonsApart, Segment.isApart, ih]

/-- Whether one segment is plain; `inputs` tells whether it may have arguments in parentheses. -/
def Segment.isPlain (inputs : Bool) : Segment → Bool
  | .mk name arguments => name.isSegment && arguments.isPlain inputs &&
    (name.takesArguments || arguments.isNone)

theorem Segment.arePlain_eq_all (segments : List Segment) :
    Segment.arePlain false segments = segments.all (Segment.isPlain false) := by
  induction segments with
  | nil => simp [Segment.arePlain]
  | cons segment segments ih =>
      obtain ⟨name, arguments⟩ := segment
      simp [Segment.arePlain, Segment.isPlain, ih]

end EnumTags

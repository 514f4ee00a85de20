import EnumTags.Proofs.AliasParameters
import EnumTags.Proofs.AliasTargets

/-!
# Parameters that a type refers to

The parameters of an alias are found among the tokens of its target, where an identifier may stand
without being looked up: as a label, as an associated item, as a later segment of a path, as a
keyword. Here the places of a type are told apart by its syntax. A parameter that is kept is
referred to, except where its name stands only in such a place, and then the alias declares a
parameter without a use for it.

## Main definitions

* `Ty.sites`: the identifiers in a type, each with its role.
* `Ty.isLegible`: all places of the type are known.

## Main results

* `Ty.sites_tokens`: the identifiers among the tokens of a type are those of its sites.
* `Generics.aliasFor_referenced_iff`: when an alias declares no parameter without a use for it.
-/

namespace EnumTags

/-! ## Sites -/

/-- What an identifier in a type is: something that is looked up by this name alone, as a generic
parameter is, or anything else. -/
inductive Role where
  | reference
  | other
deriving DecidableEq, Repr

/-- Identifiers, each with its role. -/
abbrev Sites := List (Role × Ident)

/-- The identifiers among tokens that are kept as written, lifetimes apart, all in one role. -/
def Tokens.sites (role : Role) (ts : Tokens) : Sites :=
  ((ts.idents false).filter fun site => !site.1).map fun site => (role, site.2)

mutual

/-- The identifiers in the type, lifetimes apart. In constants and in the arguments of a macro all
of them are looked up; of the names in a path only the first, and not behind colons or in a
qualified path. The path of a macro names the macro. -/
def Ty.sites : Ty → Sites
  | .array elem length => elem.sites ++ Tokens.sites .reference length
  | .slice elem => elem.sites
  | .function qualifiers params _ rest result =>
    Tokens.sites .other qualifiers ++ Tokens.sites .other (Tokens.word "fn" Tokens.isSpelling_fn) ++
      (FnParam.sites params ++ Tokens.sites .other rest) ++ Ty.resultSites result
  | .implTrait bounds _ =>
    Tokens.sites .other (Tokens.word "impl" Tokens.isSpelling_impl) ++ Bound.sites bounds
  | .object keyword bounds _ =>
    Tokens.sites .other (if keyword then Tokens.word "dyn" Tokens.isSpelling_dyn else []) ++
      Bound.sites bounds
  | .infer => Tokens.sites .other (Tokens.word "_" Tokens.isSpelling_underscore)
  | .never => []
  | .invocation path _ arguments => Tokens.sites .other path ++ Tokens.sites .reference arguments
  | .paren inner => inner.sites
  | .group inner => inner.sites
  | .path rooted segments => Segment.sites (if rooted then .other else .reference) segments
  | .qualified self _ trait rest =>
    self.sites ++
      Tokens.sites .other (if trait.isEmpty then [] else Tokens.word "as" Tokens.isSpelling_as) ++
      Segment.sites .other trait ++ Segment.sites .other rest
  | .pointer mutable target =>
    Tokens.sites .other (if mutable then Tokens.word "mut" Tokens.isSpelling_mut
      else Tokens.word "const" Tokens.isSpelling_const) ++ target.sites
  | .reference _ mutable target =>
    Tokens.sites .other (if mutable then Tokens.word "mut" Tokens.isSpelling_mut else []) ++
      target.sites
  | .tuple elems _ => Ty.listSites elems
  | .verbatim tokens => Tokens.sites .other tokens

/-- The sites in a list of types. -/
def Ty.listSites : List Ty → Sites
  | [] => []
  | t :: ts => t.sites ++ Ty.listSites ts

/-- The sites in the result of a function. -/
def Ty.resultSites : Option Ty → Sites
  | .none => []
  | .some t => t.sites

/-- The sites in parameters; their labels are looked up nowhere. -/
def FnParam.sites : List FnParam → Sites
  | [] => []
  | .mk attributes label ty :: ps =>
    Tokens.sites .other attributes ++
      Tokens.sites .other (match label with | some i => Tokens.ofIdent i | none => []) ++
      ty.sites ++ FnParam.sites ps

/-- The sites in segments, of which the first has this role. -/
def Segment.sites (first : Role) : List Segment → Sites
  | [] => []
  | .mk name arguments :: rest => (first, name) :: arguments.sites ++ Segment.sites .other rest

/-- The sites in the arguments of one segment. -/
def Arguments.sites : Arguments → Sites
  | .none => []
  | .angle _ args _ => Argument.sites args
  | .paren inputs _ result => Ty.listSites inputs ++ Ty.resultSites result

/-- The sites in arguments in angle brackets. -/
def Argument.sites : List Argument → Sites
  | [] => []
  | .lifetime _ :: args => Argument.sites args
  | .type ty :: args => ty.sites ++ Argument.sites args
  | .const value :: args => Tokens.sites .reference value ++ Argument.sites args
  | .assocType name generics ty :: args =>
    (.other, name) :: generics.sites ++ ty.sites ++ Argument.sites args
  | .assocConst name generics value :: args =>
    (.other, name) :: generics.sites ++ Tokens.sites .reference value ++ Argument.sites args
  | .constraint name generics bounds _ :: args =>
    (.other, name) :: generics.sites ++ Bound.sites bounds ++ Argument.sites args

/-- The sites in bounds; a captured parameter is looked up. -/
def Bound.sites : List Bound → Sites
  | [] => []
  | .lifetime _ :: bounds => Bound.sites bounds
  | .trait _ _ binder rooted segments :: bounds =>
    Tokens.sites .other binder ++ Segment.sites (if rooted then .other else .reference) segments ++
      Bound.sites bounds
  | .captures tokens :: bounds => Tokens.sites .reference tokens ++ Bound.sites bounds
  | .verbatim tokens :: bounds => Tokens.sites .other tokens ++ Bound.sites bounds

end

mutual

/-- Whether all places of the type are known: no form in it is only kept as it is written, and what
is kept for a part of it does not end in a quote, so that a lifetime stands in one part. -/
def Ty.isLegible : Ty → Bool
  | .array elem length => elem.isLegible && !length.endsInQuote
  | .slice elem => elem.isLegible
  | .function qualifiers params _ rest result =>
    !qualifiers.endsInQuote && FnParam.areLegible params && !rest.endsInQuote &&
      Ty.isLegibleResult result
  | .implTrait bounds _ => Bound.areLegible bounds
  | .object _ bounds _ => Bound.areLegible bounds
  | .infer => true
  | .never => true
  | .invocation path _ arguments => !path.endsInQuote && !arguments.endsInQuote
  | .paren inner => inner.isLegible
  | .group inner => inner.isLegible
  | .path _ segments => Segment.areLegible segments
  | .qualified self _ trait rest =>
    self.isLegible && Segment.areLegible trait && Segment.areLegible rest
  | .pointer _ target => target.isLegible
  | .reference _ _ target => target.isLegible
  | .tuple elems _ => Ty.areLegible elems
  | .verbatim _ => false

/-- The same for a list of types. -/
def Ty.areLegible : List Ty → Bool
  | [] => true
  | t :: ts => t.isLegible && Ty.areLegible ts

/-- The same for the result of a function. -/
def Ty.isLegibleResult : Option Ty → Bool
  | .none => true
  | .some t => t.isLegible

/-- The same for parameters. -/
def FnParam.areLegible : List FnParam → Bool
  | [] => true
  | .mk attributes _ ty :: ps => !attributes.endsInQuote && ty.isLegible && FnParam.areLegible ps

/-- The same for segments. -/
def Segment.areLegible : List Segment → Bool
  | [] => true
  | .mk _ arguments :: rest => arguments.isLegible && Segment.areLegible rest

/-- The same for the arguments of one segment. -/
def Arguments.isLegible : Arguments → Bool
  | .none => true
  | .angle _ args _ => Argument.areLegible args
  | .paren inputs _ result => Ty.areLegible inputs && Ty.isLegibleResult result

/-- The same for arguments in angle brackets. -/
def Argument.areLegible : List Argument → Bool
  | [] => true
  | .lifetime _ :: args => Argument.areLegible args
  | .type ty :: args => ty.isLegible && Argument.areLegible args
  | .const value :: args => !value.endsInQuote && Argument.areLegible args
  | .assocType _ generics ty :: args =>
    generics.isLegible && ty.isLegible && Argument.areLegible args
  | .assocConst _ generics value :: args =>
    generics.isLegible && !value.endsInQuote && Argument.areLegible args
  | .constraint _ generics bounds _ :: args =>
    generics.isLegible && Bound.areLegible bounds && Argument.areLegible args

/-- The same for bounds. -/
def Bound.areLegible : List Bound → Bool
  | [] => true
  | .lifetime _ :: bounds => Bound.areLegible bounds
  | .trait _ _ binder _ segments :: bounds =>
    !binder.endsInQuote && Segment.areLegible segments && Bound.areLegible bounds
  | .captures tokens :: bounds => !tokens.endsInQuote && Bound.areLegible bounds
  | .verbatim _ :: _ => false

end

/-! ## Tokens and their sites -/

namespace Tokens

/-- The tokens do not end in a quote, and their identifiers, lifetimes apart, are those of the
sites. -/
structure Hold (ts : Tokens) (s : Sites) : Prop where
  ends : quotedBehind false ts = false
  mem : ∀ i, (false, i) ∈ ts.idents false ↔ ∃ role, (role, i) ∈ s

namespace Hold

variable {ts us : Tokens} {s s' : Sites}

theorem nil : Hold [] [] := ⟨rfl, fun i => by simp [idents]⟩

theorem append (h : Hold ts s) (h' : Hold us s') : Hold (ts ++ us) (s ++ s') where
  ends := by rw [quotedBehind_append, h.ends, h'.ends]
  mem i := by
    rw [idents_append, h.ends, List.mem_append, h.mem, h'.mem]
    simp only [List.mem_append, exists_or]

/-- Tokens without sites may follow. -/
theorem mark (h : Hold ts s) (h' : Hold us []) : Hold (ts ++ us) s := by
  have hall := h.append h'
  rwa [List.append_nil] at hall

/-- Tokens without identifiers. -/
theorem of_none (hends : quotedBehind false ts = false) (hnone : ts.idents false = []) :
    Hold ts [] :=
  ⟨hends, fun i => by simp [hnone]⟩

theorem punct {c : Char} (hc : c ≠ '\'') (joint : Bool) : Hold [.punct c joint] [] :=
  .of_none (by simpa [Token.isQuote] using hc) rfl

/-- An operator, none of which holds a quote. -/
theorem op {o : Text} (h : '\'' ∉ o) : Hold (Tokens.op o) [] := by
  fun_induction Tokens.op o with
  | case1 => exact nil
  | case2 c => exact punct (List.ne_of_not_mem_cons h).symm false
  | case3 c rest _ ih =>
      exact (punct (List.ne_of_not_mem_cons h).symm true).append
        (ih (List.not_mem_of_not_mem_cons h))

theorem ident (role : Role) (i : Ident) : Hold (ofIdent i) [(role, i)] :=
  ⟨rfl, fun j => by simp [ofIdent, idents, eq_comm]⟩

theorem lifetime (l : Ident) : Hold (Tokens.lifetime l) [] :=
  ⟨rfl, fun j => by simp [Tokens.lifetime, idents, Token.isQuote]⟩

/-- Tokens that are kept as written. -/
theorem kept (role : Role) (h : ts.endsInQuote = false) : Hold ts (sites role ts) where
  ends := by rw [quotedBehind_false, h]
  mem i := by
    simp only [sites, List.mem_map, List.mem_filter, Prod.mk.injEq, Bool.not_eq_true']
    constructor
    · exact fun hmem => ⟨role, _, ⟨hmem, rfl⟩, rfl, rfl⟩
    · rintro ⟨role', ⟨quoted, j⟩, ⟨hmem, rfl⟩, -, rfl⟩
      exact hmem

theorem word (role : Role) (name : Text) (spelled : isSpelling false name = true) :
    Hold (Tokens.word name spelled) (sites role (Tokens.word name spelled)) :=
  kept role rfl

theorem whenMark (h : Hold ts []) (b : Bool) : Hold (if b then ts else []) [] := by
  cases b with
  | false => exact nil
  | true => exact h

theorem enclose (d : Delimiter) (h : Hold ts s) : Hold (enclose d ts) s := by
  have hopening : Hold [.opening d] [] := .of_none rfl rfl
  have hclosing : Hold [.closing d] [] := .of_none rfl rfl
  exact hopening.append (h.mark hclosing)

end Hold

/-! ### Lists -/

/-- The token lists hold the sites, one after the other. -/
inductive HoldAll : List Tokens → Sites → Prop
  | nil : HoldAll [] []
  | cons {ts : Tokens} {s : Sites} {lists : List Tokens} {ss : Sites} (h : Hold ts s)
      (hs : HoldAll lists ss) : HoldAll (ts :: lists) (s ++ ss)

namespace HoldAll

variable {lists : List Tokens} {s : Sites}

theorem ends (h : HoldAll lists s) : ∀ ts ∈ lists, quotedBehind false ts = false := by
  induction h with
  | nil => exact List.forall_mem_nil _
  | cons h _ ih => exact List.forall_mem_cons.mpr ⟨h.ends, ih⟩

theorem mem (h : HoldAll lists s) (i : Ident) :
    (∃ ts ∈ lists, (false, i) ∈ ts.idents false) ↔ ∃ role, (role, i) ∈ s := by
  induction h with
  | nil => simp
  | cons h _ ih =>
      simp only [List.mem_cons, exists_eq_or_imp, List.mem_append, exists_or, h.mem, ih]

/-- Separators add nothing. -/
theorem joined {separator : Tokens} (hseparator : Hold separator []) (h : HoldAll lists s)
    (trailing : Bool) : Hold (Listed.joined separator lists trailing) s := by
  induction h with
  | nil => exact .nil
  | @cons ts s lists ss hts hlists ih =>
      cases hlists with
      | nil => exact hts.append (hseparator.whenMark trailing)
      | cons hnext hrest => exact (hts.mark hseparator).append ih

end HoldAll

theorem idents_flatten {lists : List Tokens} (h : ∀ ts ∈ lists, quotedBehind false ts = false) :
    quotedBehind false lists.flatten = false ∧
      idents false lists.flatten = lists.flatMap (idents false) := by
  induction lists with
  | nil => exact ⟨rfl, rfl⟩
  | cons ts lists ih =>
      obtain ⟨hts, hlists⟩ := List.forall_mem_cons.mp h
      obtain ⟨hends, hidents⟩ := ih hlists
      rw [List.flatten_cons, quotedBehind_append, idents_append, hts, hidents]
      exact ⟨hends, rfl⟩

/-- Where lifetimes come first, every item is still there, with a comma or without, and besides
there is at most a comma. -/
theorem exists_flatten_eq_lifetimesFirst (items : List (Bool × Tokens)) (trailing : Bool) :
    ∃ lists : List Tokens, lifetimesFirst items trailing = lists.flatten ∧
      (∀ item ∈ items, item.2 ∈ lists ∨ item.2 ++ op "," ∈ lists) ∧
      ∀ us ∈ lists, us = [] ∨ us = op "," ∨
        ∃ item ∈ items, us = item.2 ∨ us = item.2 ++ op "," := by
  let items' := marked items.length trailing 0 items
  let gap := lifetimeGap (items'.filter (·.1)) (items'.filter (!·.1))
  let written (x : Bool × Tokens × Bool) : Tokens := x.2.1 ++ if x.2.2 then op "," else []
  have hgap : gap = [] ∨ gap = op "," := by
    simp only [gap, lifetimeGap]
    split
    · split
      · exact .inl rfl
      · exact .inr rfl
    · exact .inl rfl
  have hwritten : ∀ x, written x = x.2.1 ∨ written x = x.2.1 ++ op "," := by
    rintro ⟨isLifetime, ts, hasComma⟩
    cases hasComma with
    | false => exact .inl (List.append_nil _)
    | true => exact .inr rfl
  have hmarked : ∀ item ∈ items, ∃ hasComma, (item.1, item.2, hasComma) ∈ items' := by
    intro item hitem
    rw [← List.zipIdx_map_fst 0 items] at hitem
    obtain ⟨⟨item', i⟩, hi, rfl⟩ := List.mem_map.mp hitem
    exact ⟨_, List.mem_map.mpr ⟨_, hi, rfl⟩⟩
  have hitems : ∀ x ∈ items', (x.1, x.2.1) ∈ items := by
    intro x hx
    obtain ⟨⟨item, i⟩, hi, rfl⟩ := List.mem_map.mp hx
    exact List.fst_mem_of_mem_zipIdx hi
  refine ⟨(items'.filter (·.1)).map written ++ [gap] ++ (items'.filter (!·.1)).map written,
    ?_, fun item hitem => ?_, fun us hus => ?_⟩
  · rw [List.flatten_append, List.flatten_append, List.flatten_singleton]
    rfl
  · obtain ⟨hasComma, hx⟩ := hmarked item hitem
    have hmem : written (item.1, item.2, hasComma) ∈ (items'.filter (·.1)).map written ++ [gap] ++
        (items'.filter (!·.1)).map written := by
      simp only [List.mem_append]
      cases hlifetime : item.1 with
      | true =>
          rw [hlifetime] at hx
          exact .inl (.inl (List.mem_map_of_mem (List.mem_filter.mpr ⟨hx, rfl⟩)))
      | false =>
          rw [hlifetime] at hx
          exact .inr (List.mem_map_of_mem (List.mem_filter.mpr ⟨hx, rfl⟩))
    rcases hwritten (item.1, item.2, hasComma) with hbare | hcomma
    · rw [hbare] at hmem
      exact .inl hmem
    · rw [hcomma] at hmem
      exact .inr hmem
  · simp only [List.mem_append, List.mem_map, List.mem_filter, List.mem_singleton] at hus
    have hfrom : ∀ x ∈ items', written x = us →
        ∃ item ∈ items, us = item.2 ∨ us = item.2 ++ op "," := by
      rintro x hx rfl
      exact ⟨_, hitems x hx, hwritten x⟩
    rcases hus with (⟨x, ⟨hx, -⟩, hus⟩ | rfl) | ⟨x, ⟨hx, -⟩, hus⟩
    · exact .inr (.inr (hfrom x hx hus))
    · exact hgap.imp_right .inl
    · exact .inr (.inr (hfrom x hx hus))

/-- The order of the arguments does not matter. -/
theorem HoldAll.lifetimesFirst {items : List (Bool × Tokens)} {s : Sites}
    (h : HoldAll (items.map Prod.snd) s) (trailing : Bool) :
    Hold (lifetimesFirst items trailing) s := by
  obtain ⟨lists, hlists, hitem, hfrom⟩ := exists_flatten_eq_lifetimesFirst items trailing
  have hcomma : Hold (op ",") [] := .op (by decide)
  have hends : ∀ item ∈ items, quotedBehind false item.2 = false := fun item hi =>
    h.ends _ (List.mem_map_of_mem hi)
  have hmore : ∀ item ∈ items, idents false (item.2 ++ op ",") = idents false item.2 := by
    intro item hi
    rw [idents_append, hends item hi]
    exact List.append_nil _
  have hclosed : ∀ us ∈ lists, quotedBehind false us = false := by
    intro us hus
    rcases hfrom us hus with rfl | rfl | ⟨item, hi, rfl | rfl⟩
    · rfl
    · exact hcomma.ends
    · exact hends item hi
    · rw [quotedBehind_append, hends item hi, hcomma.ends]
  obtain ⟨hend, hidents⟩ := idents_flatten hclosed
  rw [hlists]
  refine ⟨hend, fun i => ?_⟩
  simp only [← h.mem, hidents, List.mem_flatMap, List.mem_map, exists_exists_and_eq_and]
  constructor
  · rintro ⟨us, hus, hmem⟩
    rcases hfrom us hus with rfl | rfl | ⟨item, hi, rfl | rfl⟩
    · cases hmem
    · exact absurd hmem (List.not_mem_nil)
    · exact ⟨item, hi, hmem⟩
    · exact ⟨item, hi, hmore item hi ▸ hmem⟩
  · rintro ⟨item, hi, hmem⟩
    rcases hitem item hi with hus | hus
    · exact ⟨_, hus, hmem⟩
    · exact ⟨_, hus, (hmore item hi).symm ▸ hmem⟩

end Tokens

/-! ## The sites of a type -/

section

open Tokens

theorem Tokens.Hold.label (label : Option Ident) :
    Hold (match label with | some i => ofIdent i ++ Tokens.op ":" | none => [])
      (Tokens.sites .other (match label with | some i => ofIdent i | none => [])) := by
  cases label with
  | none => exact .nil
  | some i =>
      have hident : Hold (ofIdent i) (Tokens.sites .other (ofIdent i)) := .kept .other rfl
      exact hident.mark (.op (by decide))

theorem Tokens.Hold.keyword (name : Text) (spelled : isSpelling false name = true) (b : Bool) :
    Hold (if b then Tokens.word name spelled else [])
      (Tokens.sites .other (if b then Tokens.word name spelled else [])) := by
  cases b with
  | false => exact .nil
  | true => exact .word .other name spelled

mutual

theorem Ty.sites_tokens : (t : Ty) → t.isLegible = true → Hold t.tokens t.sites
  | .array elem length, h => by
    simp only [Ty.isLegible, Bool.and_eq_true, Bool.not_eq_true'] at h
    rw [Ty.tokens, Ty.sites]
    exact (((Ty.sites_tokens elem h.1).mark (.op (by decide))).append (.kept _ h.2)).enclose _
  | .slice elem, h => by
    rw [Ty.isLegible] at h
    rw [Ty.tokens, Ty.sites]
    exact (Ty.sites_tokens elem h).enclose _
  | .function qualifiers params trailing rest result, h => by
    simp only [Ty.isLegible, Bool.and_eq_true, Bool.not_eq_true'] at h
    obtain ⟨⟨⟨hqualifiers, hparams⟩, hrest⟩, hresult⟩ := h
    rw [Ty.tokens, Ty.sites]
    refine .append (.append ((Hold.kept _ hqualifiers).append (.word _ _ _)) (.enclose _ ?_))
      (Ty.resultSites_tokens result hresult)
    refine .append ?_ (.kept _ hrest)
    have hlist := (FnParam.sites_tokenLists params hparams).joined
      (.op (o := ",") (by decide)) trailing
    split
    · exact hlist.mark .nil
    · exact hlist.mark (.op (by decide))
  | .implTrait bounds trailing, h => by
    rw [Ty.isLegible] at h
    rw [Ty.tokens, Ty.sites]
    exact (Hold.word _ _ _).append
      ((Bound.sites_tokenLists bounds h).joined (.op (by decide)) trailing)
  | .object keyword bounds trailing, h => by
    rw [Ty.isLegible] at h
    rw [Ty.tokens, Ty.sites]
    exact (Hold.keyword _ _ keyword).append
      ((Bound.sites_tokenLists bounds h).joined (.op (by decide)) trailing)
  | .infer, _ => by
    rw [Ty.tokens, Ty.sites]
    exact .word _ _ _
  | .never, _ => by
    rw [Ty.tokens, Ty.sites]
    exact .op (by decide)
  | .invocation path delimiter arguments, h => by
    simp only [Ty.isLegible, Bool.and_eq_true, Bool.not_eq_true'] at h
    rw [Ty.tokens, Ty.sites]
    exact ((Hold.kept .other h.1).mark (.op (by decide))).append ((Hold.kept _ h.2).enclose _)
  | .paren inner, h => by
    rw [Ty.isLegible] at h
    rw [Ty.tokens, Ty.sites]
    exact (Ty.sites_tokens inner h).enclose _
  | .group inner, h => by
    rw [Ty.isLegible] at h
    rw [Ty.tokens, Ty.sites]
    exact Ty.sites_tokens inner h
  | .path rooted segments, h => by
    rw [Ty.isLegible] at h
    rw [Ty.tokens, Ty.sites]
    exact ((Hold.op (o := "::") (by decide)).whenMark rooted).append
      (Segment.sites_pathTokens _ segments h)
  | .qualified self rooted trait rest, h => by
    simp only [Ty.isLegible, Bool.and_eq_true] at h
    obtain ⟨⟨hself, htrait⟩, hrest⟩ := h
    have hclose : Hold (op ">" ++ op "::") [] := .append (.op (by decide)) (.op (by decide))
    have hopen : Hold (op "<" ++ self.tokens) self.sites :=
      (Hold.op (by decide)).append (Ty.sites_tokens self hself)
    rw [Ty.tokens, Ty.sites]
    refine .append ?_ (Segment.sites_pathTokens .other rest hrest)
    rw [List.append_assoc self.sites]
    refine hopen.append ?_
    split
    · obtain rfl : trait = [] := List.isEmpty_iff.mp ‹_›
      exact hclose
    · have hpath := (Hold.word .other "as" (by decide)).append
        (((Hold.op (o := "::") (by decide)).whenMark rooted).append
          (Segment.sites_pathTokens .other trait htrait))
      simpa using hpath.mark hclose
  | .pointer mutable target, h => by
    rw [Ty.isLegible] at h
    rw [Ty.tokens, Ty.sites]
    refine .append ((Hold.op (by decide)).append ?_) (Ty.sites_tokens target h)
    split <;> exact .word _ _ _
  | .reference lifetime mutable target, h => by
    rw [Ty.isLegible] at h
    simp only [Ty.tokens, Ty.sites]
    refine .append (.append (s := []) ((Hold.op (by decide)).mark ?_) (.keyword _ _ mutable))
      (Ty.sites_tokens target h)
    cases lifetime with
    | none => exact .nil
    | some l => exact .lifetime l
  | .tuple elems trailing, h => by
    rw [Ty.isLegible] at h
    rw [Ty.tokens, Ty.sites]
    exact ((Ty.listSites_tokenLists elems h).joined (.op (by decide)) _).enclose _
  | .verbatim tokens, h => by
    rw [Ty.isLegible] at h
    cases h

theorem Ty.listSites_tokenLists : (tys : List Ty) → Ty.areLegible tys = true →
    HoldAll (Ty.tokenLists tys) (Ty.listSites tys)
  | [], _ => by
    rw [Ty.tokenLists, Ty.listSites]
    exact .nil
  | t :: tys, h => by
    simp only [Ty.areLegible, Bool.and_eq_true] at h
    rw [Ty.tokenLists, Ty.listSites]
    exact .cons (Ty.sites_tokens t h.1) (Ty.listSites_tokenLists tys h.2)

theorem Ty.resultSites_tokens : (result : Option Ty) → Ty.isLegibleResult result = true →
    Hold (Ty.resultTokens result) (Ty.resultSites result)
  | .none, _ => by
    rw [Ty.resultTokens, Ty.resultSites]
    exact .nil
  | .some t, h => by
    rw [Ty.isLegibleResult] at h
    rw [Ty.resultTokens, Ty.resultSites]
    exact (Hold.op (o := "->") (by decide)).append (Ty.sites_tokens t h)

theorem FnParam.sites_tokenLists : (params : List FnParam) → FnParam.areLegible params = true →
    HoldAll (FnParam.tokenLists params) (FnParam.sites params)
  | [], _ => by
    rw [FnParam.tokenLists, FnParam.sites]
    exact .nil
  | .mk attributes label ty :: params, h => by
    simp only [FnParam.areLegible, Bool.and_eq_true, Bool.not_eq_true'] at h
    simp only [FnParam.tokenLists, FnParam.sites]
    exact .cons (.append ((Hold.kept _ h.1.1).append (.label label)) (Ty.sites_tokens ty h.1.2))
      (FnParam.sites_tokenLists params h.2)

theorem Segment.sites_pathTokens (first : Role) : (segments : List Segment) →
    Segment.areLegible segments = true →
    Hold (Segment.pathTokens segments) (Segment.sites first segments)
  | [], _ => by
    rw [Segment.pathTokens, Segment.sites]
    exact .nil
  | [.mk name arguments], h => by
    simp only [Segment.areLegible, Bool.and_eq_true] at h
    rw [Segment.pathTokens, Segment.sites, Segment.sites, List.append_nil]
    exact (Hold.ident first name).append (Arguments.sites_tokens arguments h.1)
  | .mk name arguments :: segment :: rest, h => by
    rw [Segment.areLegible, Bool.and_eq_true] at h
    rw [Segment.pathTokens, Segment.sites]
    · exact (((Hold.ident first name).append (Arguments.sites_tokens arguments h.1)).mark
        (.op (by decide))).append (Segment.sites_pathTokens .other (segment :: rest) h.2)
    · exact nofun

theorem Arguments.sites_tokens : (arguments : Arguments) → arguments.isLegible = true →
    Hold arguments.tokens arguments.sites
  | .none, _ => by
    rw [Arguments.tokens, Arguments.sites]
    exact .nil
  | .angle colons args trailing, h => by
    rw [Arguments.isLegible] at h
    rw [Arguments.tokens, Arguments.sites]
    have hargs := (Argument.sites_tokenLists args h).lifetimesFirst trailing
    exact ((((Hold.op (by decide)).whenMark colons).append (.op (by decide))).append
      hargs).mark (.op (by decide))
  | .paren inputs trailing result, h => by
    simp only [Arguments.isLegible, Bool.and_eq_true] at h
    rw [Arguments.tokens, Arguments.sites]
    exact (((Ty.listSites_tokenLists inputs h.1).joined (.op (by decide)) trailing).enclose
      _).append (Ty.resultSites_tokens result h.2)

theorem Argument.sites_tokenLists : (args : List Argument) → Argument.areLegible args = true →
    HoldAll ((Argument.tokenLists args).map Prod.snd) (Argument.sites args)
  | [], _ => by
    rw [Argument.tokenLists, Argument.sites]
    exact .nil
  | .lifetime l :: args, h => by
    rw [Argument.areLegible] at h
    rw [Argument.tokenLists, Argument.sites]
    exact .cons (.lifetime l) (Argument.sites_tokenLists args h)
  | .type ty :: args, h => by
    simp only [Argument.areLegible, Bool.and_eq_true] at h
    rw [Argument.tokenLists, Argument.sites]
    exact .cons (Ty.sites_tokens ty h.1) (Argument.sites_tokenLists args h.2)
  | .const value :: args, h => by
    simp only [Argument.areLegible, Bool.and_eq_true, Bool.not_eq_true'] at h
    rw [Argument.tokenLists, Argument.sites]
    exact .cons (.kept _ h.1) (Argument.sites_tokenLists args h.2)
  | .assocType name generics ty :: args, h => by
    simp only [Argument.areLegible, Bool.and_eq_true] at h
    rw [Argument.tokenLists, Argument.sites]
    exact .cons ((((Hold.ident _ name).append (Arguments.sites_tokens generics h.1.1)).mark
      (.op (by decide))).append (Ty.sites_tokens ty h.1.2)) (Argument.sites_tokenLists args h.2)
  | .assocConst name generics value :: args, h => by
    simp only [Argument.areLegible, Bool.and_eq_true, Bool.not_eq_true'] at h
    rw [Argument.tokenLists, Argument.sites]
    exact .cons ((((Hold.ident _ name).append (Arguments.sites_tokens generics h.1.1)).mark
      (.op (by decide))).append (.kept _ h.1.2)) (Argument.sites_tokenLists args h.2)
  | .constraint name generics bounds trailing :: args, h => by
    simp only [Argument.areLegible, Bool.and_eq_true] at h
    rw [Argument.tokenLists, Argument.sites]
    exact .cons ((((Hold.ident _ name).append (Arguments.sites_tokens generics h.1.1)).mark
      (.op (by decide))).append ((Bound.sites_tokenLists bounds h.1.2).joined (.op (by decide))
        trailing)) (Argument.sites_tokenLists args h.2)

theorem Bound.sites_tokenLists : (bounds : List Bound) → Bound.areLegible bounds = true →
    HoldAll (Bound.tokenLists bounds) (Bound.sites bounds)
  | [], _ => by
    rw [Bound.tokenLists, Bound.sites]
    exact .nil
  | .lifetime l :: bounds, h => by
    rw [Bound.areLegible] at h
    rw [Bound.tokenLists, Bound.sites]
    exact .cons (.lifetime l) (Bound.sites_tokenLists bounds h)
  | .trait paren optional binder rooted segments :: bounds, h => by
    simp only [Bound.areLegible, Bool.and_eq_true, Bool.not_eq_true'] at h
    simp only [Bound.tokenLists, Bound.sites]
    refine .cons ?_ (Bound.sites_tokenLists bounds h.2)
    have hinside := Hold.append (.mark (.append (s := []) ((Hold.op (o := "?")
      (by decide)).whenMark optional) (.kept .other h.1.1)) ((Hold.op (o := "::")
        (by decide)).whenMark rooted)) (Segment.sites_pathTokens
          (if rooted then .other else .reference) segments h.1.2)
    cases paren with
    | false => exact hinside
    | true => exact hinside.enclose _
  | .captures tokens :: bounds, h => by
    simp only [Bound.areLegible, Bool.and_eq_true, Bool.not_eq_true'] at h
    rw [Bound.tokenLists, Bound.sites]
    exact .cons (.kept _ h.1) (Bound.sites_tokenLists bounds h.2)
  | .verbatim tokens :: bounds, h => by
    rw [Bound.areLegible] at h
    cases h

end

end

/-- The type refers to something of this name, be it a generic parameter or not. -/
def Ty.RefersTo (t : Ty) (i : Ident) : Prop := (Role.reference, i) ∈ t.sites

instance (t : Ty) (i : Ident) : Decidable (t.RefersTo i) :=
  inferInstanceAs (Decidable ((Role.reference, i) ∈ t.sites))

/-! ## Kept parameters -/

namespace Generics

/-- A parameter other than a lifetime occurs wherever its name stands. -/
theorem occursIn_tokens_iff {ty : Ty} (h : ty.isLegible = true) {p : Param}
    (hp : p.isLifetime = false) :
    p.OccursIn ty.tokens ↔ ty.RefersTo p.ident ∨ (Role.other, p.ident) ∈ ty.sites := by
  rw [Param.OccursIn, hp, Ident.occursIn_iff, (Ty.sites_tokens ty h).mem]
  constructor
  · rintro ⟨role, hmem⟩
    cases role with
    | reference => exact .inl hmem
    | other => exact .inr hmem
  · rintro (hmem | hmem)
    · exact ⟨_, hmem⟩
    · exact ⟨_, hmem⟩

/-- **Parameters without a use.** Where all places of a type are known, every parameter that the
type refers to is kept for an alias of it. The alias keeps no others exactly if no name of a
parameter stands only where it is not looked up: as a label, as an associated item, as a later
segment of a path. -/
theorem aliasFor_referenced_iff (g : Generics) {ty : Ty} (h : ty.isLegible = true) :
    (∀ p ∈ g.params, p.isLifetime = false → ty.RefersTo p.ident →
      p.stripped ∈ (g.aliasFor ty).params) ∧
    ((∀ q ∈ (g.aliasFor ty).params, q.isLifetime = false → ty.RefersTo q.ident) ↔
      ∀ p ∈ g.params, p.isLifetime = false → (Role.other, p.ident) ∈ ty.sites →
        ty.RefersTo p.ident) := by
  have hkept : ∀ p ∈ g.params, p.OccursIn ty.tokens → p.stripped ∈ (g.aliasFor ty).params :=
    fun p hp hoccurs => List.mem_map_of_mem (mem_mentionedIn.mpr ⟨hp, hoccurs⟩)
  refine ⟨fun p hp hkind hrefers => hkept p hp ((occursIn_tokens_iff h hkind).mpr (.inl hrefers)),
    fun hall p hp hkind hother => ?_, fun hall q hq hkind => ?_⟩
  · have hreduced := p.isReduced_stripped
    have hmem := hkept p hp ((occursIn_tokens_iff h hkind).mpr (.inr hother))
    exact hreduced.ident ▸ hall _ hmem (hreduced.isLifetime.trans hkind)
  · obtain ⟨p, hp, rfl⟩ := List.mem_map.mp hq
    obtain ⟨hparam, hoccurs⟩ := mem_mentionedIn.mp hp
    have hreduced := p.isReduced_stripped
    rw [hreduced.isLifetime] at hkind
    rw [hreduced.ident]
    rcases (occursIn_tokens_iff h hkind).mp hoccurs with hrefers | hother
    · exact hrefers
    · exact hall p hparam hkind hother

/-- The function type `fn(t: m::n, [u; n]) -> t` for these names. -/
def relabelled (t m n u : Ident) : Ty :=
  .function []
    [.mk [] (some t) (.path false [.mk m .none, .mk n .none]),
    .mk [] none (.array (.path false [.mk u .none]) (Tokens.ofIdent n))]
    false [] (some (.path false [.mk t .none]))

/-- A label and a later segment with the names of parameters do no harm where these are used too. -/
theorem aliasFor_relabelled :
    (relabelled (.plain "T") (.plain "other") (.plain "N") (.plain "u8")).isLegible = true ∧
    ∀ q ∈ (aliasFor ⟨true, [.type [] (.plain "T") [] none, .type [] (.plain "U") [] none,
        .const [] (.plain "N") (Tokens.ofIdent (.plain "usize")) none], false, none⟩
      (relabelled (.plain "T") (.plain "other") (.plain "N") (.plain "u8"))).params,
      q.isLifetime = false →
        (relabelled (.plain "T") (.plain "other") (.plain "N") (.plain "u8")).RefersTo q.ident :=
  ⟨by decide, (aliasFor_referenced_iff _ (by decide)).2.mpr (by decide)⟩

/-- The alias of `fn(T: u8)` is given the parameter `T` of its enum, which it has no use for. -/
theorem label_kept_for_alias :
    ((lex? "enum E<T> \x7b A(fn(T: u8)), B(T) \x7d").bind fun ls => (expand [] ls).emission?).any
      (fun m => m.aliases.any fun a => a.target.isLegible && a.generics.params.any fun p =>
        !p.isLifetime && !decide (a.target.RefersTo p.ident)) = true := by
  decide +kernel

end Generics

end EnumTags

import EnumTags.Proofs.EnumEmission
import Mathlib.Data.List.Forall2

/-!
# The parameters of an alias

An alias is given the parameters whose names occur among the tokens of its target, in the order in
which the enum declares them. Names are found by one walk over the tokens that remembers only
whether a quote was just read: an identifier directly behind a quote is the name of a lifetime, any
other may be a type or a constant. Brackets are tokens of their own, so how deep a name stands does
not matter.

## Main definitions

* `Ident.OccursIn`: an identifier stands among tokens, directly behind a quote or not.
* `Param.IsReduced`: a parameter is another one without attributes, bounds and default.

## Main results

* `Generics.aliasFor_exact`: which parameters an alias has.
* `declared_of_emit`: no generated alias mentions a parameter of the enum without declaring it.
-/

namespace EnumTags

/-! ## Identifiers among tokens -/

/-- Whether the token is a quote. -/
def Token.isQuote : Token → Bool
  | .punct c _ => c == '\''
  | _ => false

namespace Tokens

/-- Whether what follows the tokens stands directly behind a quote. -/
def endsInQuote (ts : Tokens) : Bool := ts.getLast?.any Token.isQuote

/-- The same, where `quoted` tells it for the place before the tokens. -/
def quotedBehind (quoted : Bool) (ts : Tokens) : Bool := ts.foldl (fun _ t => t.isQuote) quoted

@[simp]
theorem quotedBehind_nil (quoted : Bool) : quotedBehind quoted [] = quoted := rfl

@[simp]
theorem quotedBehind_cons (quoted : Bool) (t : Token) (ts : Tokens) :
    quotedBehind quoted (t :: ts) = quotedBehind t.isQuote ts := rfl

theorem quotedBehind_append (quoted : Bool) (ts us : Tokens) :
    quotedBehind quoted (ts ++ us) = quotedBehind (quotedBehind quoted ts) us :=
  List.foldl_append

/-- What stood before the tokens matters only if there are none. -/
theorem quotedBehind_eq (quoted : Bool) (ts : Tokens) :
    quotedBehind quoted ts = if ts.isEmpty then quoted else ts.endsInQuote := by
  induction ts generalizing quoted with
  | nil => rfl
  | cons t ts ih =>
      rw [quotedBehind_cons, ih]
      cases ts with
      | nil => rfl
      | cons u ts => simp [endsInQuote]

theorem quotedBehind_false (ts : Tokens) : quotedBehind false ts = ts.endsInQuote := by
  rw [quotedBehind_eq]
  cases ts <;> rfl

/-- The identifiers among the tokens, each with whether it stands directly behind a quote. -/
def idents (quoted : Bool) : Tokens → List (Bool × Ident)
  | [] => []
  | .ident i :: ts => (quoted, i) :: idents false ts
  | t :: ts => idents t.isQuote ts

theorem idents_append (quoted : Bool) (ts us : Tokens) :
    idents quoted (ts ++ us) = idents quoted ts ++ idents (quotedBehind quoted ts) us := by
  induction ts generalizing quoted with
  | nil => rfl
  | cons t ts ih =>
      cases t with
      | ident i => exact congrArg ((quoted, i) :: ·) (ih false)
      | punct c joint | literal s | opening d | closing d => exact ih _

theorem mem_idents_iff {quoted b : Bool} {i : Ident} {ts : Tokens} :
    (b, i) ∈ idents quoted ts ↔
      ∃ before after, ts = before ++ .ident i :: after ∧ quotedBehind quoted before = b := by
  constructor
  · intro h
    induction ts generalizing quoted with
    | nil => cases h
    | cons t ts ih =>
        -- behind the first token, the walk is the same for the rest
        have hrest : (b, i) ∈ idents t.isQuote ts → ∃ before after,
            t :: ts = before ++ .ident i :: after ∧ quotedBehind quoted before = b := by
          intro hmem
          obtain ⟨before, after, rfl, hb⟩ := ih hmem
          exact ⟨t :: before, after, rfl, hb⟩
        cases t with
        | ident j =>
            rcases List.mem_cons.mp h with hfirst | hmem
            · obtain ⟨rfl, rfl⟩ := Prod.mk.inj hfirst
              exact ⟨[], ts, rfl, rfl⟩
            · exact hrest hmem
        | punct c joint | literal s | opening d | closing d => exact hrest h
  · rintro ⟨before, after, rfl, rfl⟩
    rw [idents_append]
    exact List.mem_append_right _ List.mem_cons_self

end Tokens

/-- The identifier stands among the tokens; `quoted` tells whether directly behind a quote. -/
def Ident.OccursIn (i : Ident) (quoted : Bool) (ts : Tokens) : Prop :=
  ∃ before after, ts = before ++ .ident i :: after ∧ Tokens.endsInQuote before = quoted

theorem Ident.occursIn_iff {i : Ident} {quoted : Bool} {ts : Tokens} :
    i.OccursIn quoted ts ↔ (quoted, i) ∈ ts.idents false := by
  simp only [Tokens.mem_idents_iff, Tokens.quotedBehind_false, OccursIn]

instance (i : Ident) (quoted : Bool) (ts : Tokens) : Decidable (i.OccursIn quoted ts) :=
  decidable_of_iff _ Ident.occursIn_iff.symm

/-! ## Names as texts -/

namespace Ident

/-- The text of an identifier tells the identifier: no word holds the sign of the raw mark. -/
theorem text_injective {i j : Ident} (h : i.text = j.text) : i = j := by
  have hmark : ∀ w s : Text, Text.isWord w = true → w ≠ 'r' :: '#' :: s := by
    rintro w s hw rfl
    have hhash : Text.isWordChar '#' = true :=
      Text.isWordChar_of_mem_isWord hw (List.mem_cons_of_mem _ List.mem_cons_self)
    exact absurd hhash (by decide)
  obtain ⟨raw, name, hspelled⟩ := i
  obtain ⟨raw', name', hspelled'⟩ := j
  cases raw <;> cases raw' <;> simp only [text, Bool.false_eq_true, if_true, if_false] at h
  · obtain rfl := h
    rfl
  · exact absurd h (hmark _ _ (isWord_name ⟨_, _, hspelled⟩))
  · exact absurd h.symm (hmark _ _ (isWord_name ⟨_, _, hspelled'⟩))
  · obtain rfl : name = name' := (List.cons.inj (List.cons.inj h).2).2
    rfl

theorem text_ne_quote_cons (i : Ident) (s : Text) : i.text ≠ '\'' :: s := by
  obtain ⟨raw, name, hspelled⟩ := i
  intro h
  cases raw with
  | true => exact absurd (List.cons.inj h).1 (by decide)
  | false =>
      obtain rfl : name = '\'' :: s := h
      have hword : Text.isWord ('\'' :: s) = true := isWord_name ⟨false, _, hspelled⟩
      have hstart : Text.isWordStart '\'' = false := by decide
      rw [Text.isWord, hstart] at hword
      cases hword

/-- The name of a lifetime or of anything else, as text. -/
def written (quoted : Bool) (i : Ident) : Text := if quoted then '\'' :: i.text else i.text

/-- A lifetime is not written like anything else. -/
theorem written_injective {quoted quoted' : Bool} {i j : Ident}
    (h : written quoted i = written quoted' j) : quoted = quoted' ∧ i = j := by
  cases quoted <;> cases quoted' <;>
    simp only [written, Bool.false_eq_true, if_true, if_false] at h
  · exact ⟨rfl, text_injective h⟩
  · exact absurd h (text_ne_quote_cons _ _)
  · exact absurd h.symm (text_ne_quote_cons _ _)
  · exact ⟨rfl, text_injective (List.cons.inj h).2⟩

end Ident

/-! ## Parameters -/

namespace Param

/-- The identifier that names the parameter. -/
def ident : Param → Ident
  | lifetime _ name _ => name
  | type _ name _ _ => name
  | const _ name _ _ => name

/-- The attributes of the parameter. -/
def attributes : Param → Tokens
  | lifetime attributes _ _ => attributes
  | type attributes _ _ _ => attributes
  | const attributes _ _ _ => attributes

/-- The bounds of the parameter; a constant has none. -/
def bounds : Param → Tokens
  | lifetime _ _ bounds => bounds
  | type _ _ bounds _ => bounds
  | const .. => []

/-- The default of the parameter; a lifetime has none. -/
def default? : Param → Option Tokens
  | lifetime .. => none
  | type _ _ _ default => default
  | const _ _ _ default => default

/-- The type of a constant, which no other parameter has. -/
def constType? : Param → Option Tokens
  | const _ _ ty _ => some ty
  | _ => none

/-- The parameter `q` is `p` without attributes, bounds and default: of the same kind and with the
same name, and as a constant with the same type. -/
structure IsReduced (q p : Param) : Prop where
  isLifetime : q.isLifetime = p.isLifetime
  ident : q.ident = p.ident
  constType : q.constType? = p.constType?
  attributes : q.attributes = []
  bounds : q.bounds = []
  noDefault : q.default? = none

theorem isReduced_stripped (p : Param) : IsReduced p.stripped p := by
  cases p <;> exact ⟨rfl, rfl, rfl, rfl, rfl, rfl⟩

theorem text_eq_written (p : Param) : p.text = Ident.written p.isLifetime p.ident := by
  cases p <;> rfl

@[simp]
theorem text_stripped (p : Param) : p.stripped.text = p.text := by cases p <;> rfl

/-- The name of the parameter occurs among the tokens: that of a lifetime directly behind a quote,
any other name elsewhere. -/
def OccursIn (p : Param) (ts : Tokens) : Prop := p.ident.OccursIn p.isLifetime ts

instance (p : Param) (ts : Tokens) : Decidable (p.OccursIn ts) :=
  inferInstanceAs (Decidable (p.ident.OccursIn p.isLifetime ts))

end Param

/-! ## The parameters of an alias -/

namespace Generics

theorem mentions_eq (quoted : Bool) (ts : Tokens) :
    mentions quoted ts = (ts.idents quoted).map fun (quoted, i) => i.written quoted := by
  induction ts generalizing quoted with
  | nil => rfl
  | cons t ts ih =>
      cases t with
      | ident i => exact congrArg (_ :: ·) (ih false)
      | punct c joint | literal s | opening d | closing d => exact ih _

/-- The texts that the walk collects decide whether a parameter occurs. -/
theorem text_mem_mentions_iff {p : Param} {ts : Tokens} :
    p.text ∈ mentions false ts ↔ p.OccursIn ts := by
  rw [mentions_eq, p.text_eq_written, List.mem_map, Param.OccursIn, Ident.occursIn_iff]
  constructor
  · rintro ⟨⟨quoted, i⟩, hmem, hwritten⟩
    obtain ⟨rfl, rfl⟩ := Ident.written_injective hwritten
    exact hmem
  · intro hmem
    exact ⟨_, hmem, rfl⟩

theorem mentionedIn_eq (g : Generics) (ty : Ty) :
    g.mentionedIn ty = g.params.filter fun p => decide (p.OccursIn ty.tokens) := by
  refine List.filter_congr fun p _ => ?_
  rw [Bool.eq_iff_iff, List.contains_iff_mem, text_mem_mentions_iff, decide_eq_true_eq]

theorem mem_mentionedIn {g : Generics} {ty : Ty} {p : Param} :
    p ∈ g.mentionedIn ty ↔ p ∈ g.params ∧ p.OccursIn ty.tokens := by
  rw [mentionedIn_eq, List.mem_filter, decide_eq_true_eq]

theorem map_text_aliasFor (g : Generics) (ty : Ty) :
    (g.aliasFor ty).params.map Param.text = (g.mentionedIn ty).map Param.text := by
  simp [aliasFor, Function.comp_def]

theorem mem_map_text_aliasFor {g : Generics} {ty : Ty} {name : Text} :
    name ∈ (g.aliasFor ty).params.map Param.text ↔
      ∃ p ∈ g.params, p.OccursIn ty.tokens ∧ p.text = name := by
  simp only [map_text_aliasFor, List.mem_map, mem_mentionedIn, and_assoc]

/-- **The parameters of an alias.** They are those of the enum whose names occur in the target, in
their order and reduced to their names, in angle brackets if there are any, and without a `where`
clause. Their names are those that the target is said to use, and among them is that of every
parameter which the target mentions. -/
theorem aliasFor_exact (g : Generics) (ty : Ty) :
    (g.aliasFor ty).whereClause = none ∧
    List.Forall₂ Param.IsReduced (g.aliasFor ty).params
      (g.params.filter fun p => p.OccursIn ty.tokens) ∧
    ((g.aliasFor ty).angles = true ↔ (g.aliasFor ty).params ≠ []) ∧
    (∀ name, name ∈ g.usedBy ty ↔ name ∈ (g.aliasFor ty).params.map Param.text) ∧
    (∀ name, name ∈ (g.aliasFor ty).params.map Param.text ↔
      ∃ p ∈ g.params, p.OccursIn ty.tokens ∧ p.text = name) := by
  refine ⟨rfl, ?_, ?_, fun name => ?_, fun name => mem_map_text_aliasFor⟩
  · rw [← mentionedIn_eq, aliasFor, List.forall₂_map_left_iff, List.forall₂_same]
    exact fun p _ => p.isReduced_stripped
  · simp [aliasFor]
  · rw [usedBy, List.mem_eraseDups, map_text_aliasFor]

/-- A type and a lifetime of the same letters are told apart, in brackets too. -/
example : (aliasFor
    ⟨true, [.lifetime [] (.plain "a") [], .type [] (.plain "a") [] none], false, none⟩
    (.slice (.reference (some (.plain "a")) false .infer))).params =
      [.lifetime [] (.plain "a") []] := by decide

end Generics

/-! ## Generated aliases -/

theorem generics_of_alias_emit {item : EnumItem} {a : Alias} {code : AliasCode}
    (h : a.emit item = .ok code) : code.generics = item.generics.aliasFor code.target := by
  simp only [Alias.emit, bind, Except.bind] at h
  split at h
  · cases h
  · split at h
    · cases h
      rfl
    · cases h

/-- A planned declaration leaves the enum as it is, and adds only aliases with the parameters that
their targets mention. -/
theorem generics_of_add {o : Options} {m m' : Emission} {d : Planned}
    (h : Emission.add o m d = .ok m')
    (hm : ∀ a ∈ m.aliases, a.generics = m.item.generics.aliasFor a.target) :
    m'.item = m.item ∧ ∀ a ∈ m'.aliases, a.generics = m'.item.generics.aliasFor a.target := by
  cases d with
  | «alias» a =>
      obtain ⟨code, hcode, hm'⟩ := (bind_eq_ok_iff _ _ _).mp h
      cases hm'
      refine ⟨rfl, fun b hb => ?_⟩
      rcases List.mem_append.mp hb with hb | hb
      · exact hm b hb
      · obtain rfl := List.mem_singleton.mp hb
        exact generics_of_alias_emit hcode
  | tags e =>
      obtain ⟨code, -, hm'⟩ := (bind_eq_ok_iff _ _ _).mp h
      cases hm'
      exact ⟨rfl, hm⟩
  | projection p =>
      obtain ⟨code, -, hm'⟩ := (bind_eq_ok_iff _ _ _).mp h
      cases hm'
      exact ⟨rfl, hm⟩

theorem generics_of_foldlM_add {o : Options} {m m' : Emission} {decls : List Planned}
    (h : decls.foldlM (Emission.add o) m = .ok m')
    (hm : ∀ a ∈ m.aliases, a.generics = m.item.generics.aliasFor a.target) :
    m'.item = m.item ∧ ∀ a ∈ m'.aliases, a.generics = m'.item.generics.aliasFor a.target := by
  induction decls generalizing m with
  | nil =>
      cases h
      exact ⟨rfl, hm⟩
  | cons d decls ih =>
      rw [List.foldlM_cons] at h
      obtain ⟨m₁, hfirst, hrest⟩ := (bind_eq_ok_iff _ _ _).mp h
      obtain ⟨hitem, hm₁⟩ := generics_of_add hfirst hm
      obtain ⟨hitem', hm'⟩ := ih hrest hm₁
      exact ⟨hitem'.trans hitem, hm'⟩

/-- Whatever is generated for an enum, its aliases declare the parameters of the enum that their
targets mention. -/
theorem declared_of_emit {item : EnumItem} {o : Options} {decls : List Planned} {m : Emission}
    (h : emit item o decls = .ok m) {a : AliasCode} (ha : a ∈ m.aliases) {p : Param}
    (hp : p ∈ item.generics.params) (hoccurs : p.OccursIn a.target.tokens) :
    ∃ q ∈ a.generics.params, q.IsReduced p := by
  obtain ⟨module, hdecls⟩ : ∃ module,
      decls.foldlM (Emission.add o) ⟨item, module, [], none, none⟩ = .ok m := by
    rw [emit] at h
    split at h
    · exact ⟨_, h⟩
    · obtain ⟨module, -, hdecls⟩ := (bind_eq_ok_iff _ _ _).mp h
      exact ⟨module, hdecls⟩
  obtain ⟨hitem, hgenerics⟩ := generics_of_foldlM_add hdecls (List.forall_mem_nil _)
  have hmem : p ∈ m.item.generics.mentionedIn a.target :=
    Generics.mem_mentionedIn.mpr ⟨by rwa [hitem], hoccurs⟩
  rw [hgenerics a ha]
  exact ⟨p.stripped, List.mem_map_of_mem hmem, p.isReduced_stripped⟩

end EnumTags

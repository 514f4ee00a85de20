import EnumTags.Proofs.TypeRoundTrip
import Mathlib.Data.List.Forall2

/-!
# Reading an enum made up from names

An enum can be made up from names alone: its own, those of its variants, and for each variant the
name of one type. Such a sketch is read back from its tokens. What is read has places in the source
as well, of which the sketch says nothing; so `Parser.Yields` leaves open what exactly a parser
gives, and says only which property it has.

## Main definitions

* `Parser.Yields`: on lexemes that spell these tokens, the parser gives something with a property.
* `Sketch`: an enum made up from names.
* `Sketch.Describes`: an enum is what the sketch says, wherever it stands.
-/

namespace EnumTags

/-! ## Parsers -/

namespace Parser

variable {α β : Type}

/-- On lexemes that spell `ts`, the parser gives something with the property and leaves `us`. -/
def Yields (p : Parser α) (ts : Tokens) (P : α → Prop) (us : Tokens) : Prop :=
  ∀ ls spill, Glued ts (Lexeme.tokens ls) → ∃ a rest, P a ∧ Glued us (Lexeme.tokens rest) ∧
    p ⟨ls, spill⟩ = .ok (a, ⟨rest, spill⟩)

namespace Yields

variable {ts us vs : Tokens} {P : α → Prop} {Q : β → Prop}

theorem of_reads {p : Parser α} {a : α} (h : Reads p ts true a us) (ha : P a) :
    Yields p ts P us := by
  intro ls spill hls
  obtain ⟨rest, hrest, heq⟩ := h ls spill hls
  exact ⟨a, rest, ha, hrest, heq⟩

theorem pure {a : α} (ha : P a) : Yields (Pure.pure a) ts P ts := of_reads (Reads.pure a ts) ha

/-- One parser after the other. -/
theorem bind {p : Parser α} {f : α → Parser β} (hp : Yields p ts P us)
    (hf : ∀ a, P a → Yields (f a) us Q vs) : Yields (p >>= f) ts Q vs := by
  intro ls spill hls
  obtain ⟨a, rest, ha, hrest, heq⟩ := hp ls spill hls
  obtain ⟨b, rest', hb, hrest', heq'⟩ := hf a ha rest spill hrest
  exact ⟨b, rest', hb, hrest', (bind_of_ok heq).trans heq'⟩

/-- Going on behind a parser of which it is known what it gives. -/
theorem next {p : Parser α} {f : α → Parser β} {a : α} (hp : Reads p ts true a us)
    (hf : Yields (f a) us Q vs) : Yields (p >>= f) ts Q vs :=
  bind (of_reads (P := (· = a)) hp rfl) fun _ ha => ha ▸ hf

/-- Looking at what is left. -/
theorem of_rest {k : List Lexeme → Parser α}
    (h : ∀ ls, Glued ts (Lexeme.tokens ls) → Yields (k ls) ts P us) : Yields (rest >>= k) ts P us :=
  fun ls spill hls => h ls hls ls spill hls

/-- A test whose answer is known. -/
theorem of_peek {test : List Lexeme → Bool} {answer : Bool} {k : Bool → Parser α}
    (htest : ∀ ls, Glued ts (Lexeme.tokens ls) → test ls = answer)
    (h : Yields (k answer) ts P us) : Yields (peek test >>= k) ts P us := by
  intro ls spill hls
  rw [peek_bind, htest ls hls]
  exact h ls spill hls

/-- Keeping the source makes no difference to what is given. -/
theorem withSource {p : Parser α} {f : α × List Lexeme → Parser β} (hp : Yields p ts P us)
    (hf : ∀ a source, P a → Yields (f (a, source)) us Q vs) :
    Yields (withSource p >>= f) ts Q vs := by
  have hsource : Yields (Parser.withSource p) ts (fun x => P x.1) us :=
    of_rest fun _ _ => hp.bind fun _ ha => of_rest fun _ _ => pure ha
  exact hsource.bind fun x hx => hf x.1 x.2 hx

/-- A group is read if its inside is read to its end. -/
theorem group {p : Parser α} {d d' : Delimiter} (hp : Yields p ts P (.closing d' :: us)) :
    Yields (group d p) (.opening d :: ts) P us := by
  refine of_rest fun ls h => ?_
  obtain ⟨span, rest, rfl, hrest⟩ := h.exists_opening
  simp only [beq_self_eq_true, if_true]
  exact next (Reads.goOn hrest _) (hp.bind fun _ ha => next (Reads.leave d d' us) (pure ha))

/-! ### Lists -/

/-- What a list with commas in a group needs to be read: each item is read in front of a comma and
of the bracket, and none begins with a bracket that closes a group. -/
structure ItemRule {γ : Type} (p : Parser α) (f : γ → Tokens) (R : γ → α → Prop) (xs : List γ)
    (rest : Tokens) : Prop where
  item : ∀ x ∈ xs, ∀ us, us = rest ∨ (∃ vs, us = Tokens.op "," ++ vs) →
    Yields p (f x ++ us) (R x) us
  start : ∀ x ∈ xs, ∃ t ts, f x = t :: ts ∧ t.isClosing = false

section

variable {γ : Type} {p : Parser α} {f : γ → Tokens} {R : γ → α → Prop} {x : γ} {xs : List γ}
  {rest : Tokens}

theorem ItemRule.tail (h : ItemRule p f R (x :: xs) rest) : ItemRule p f R xs rest where
  item y hy := h.item y (List.mem_cons_of_mem x hy)
  start y hy := h.start y (List.mem_cons_of_mem x hy)

/-- The list has not ended where an item begins. -/
theorem ItemRule.not_atEnd (h : ItemRule p f R xs rest) (hx : x ∈ xs) {ls : List Lexeme}
    (hls : Glued (f x ++ us) (Lexeme.tokens ls)) : Ahead.atEnd ls = false := by
  obtain ⟨t, ts, htokens, ht⟩ := h.start x hx
  rw [htokens] at hls
  rw [Ahead.atEnd_glued hls]
  exact ht

theorem listLoop {d : Delimiter} (h : ItemRule p f R xs (.closing d :: us)) {fuel : Nat}
    (hfuel : xs.length < fuel) {trailing : Bool} (hempty : xs = [] → trailing = true) :
    Yields (listLoop Ahead.atEnd "," p fuel)
      (Listed.joined (Tokens.op ",") (xs.map f) trailing ++ .closing d :: us)
      (fun l => List.Forall₂ R xs l.items ∧ l.trailing = trailing) (.closing d :: us) := by
  have hend : ∀ ls, Glued (.closing d :: us) (Lexeme.tokens ls) → Ahead.atEnd ls = true :=
    fun ls hls => Ahead.atEnd_glued hls
  induction xs generalizing fuel with
  | nil =>
      cases fuel with
      | zero => cases hfuel
      | succ fuel =>
          rw [hempty rfl]
          exact of_peek hend (pure ⟨.nil, rfl⟩)
  | cons x xs ih =>
      cases fuel with
      | zero => cases hfuel
      | succ fuel =>
          have hless : xs.length < fuel := Nat.lt_of_succ_lt_succ hfuel
          have hitem := h.item x List.mem_cons_self
          have hstart : ∀ vs ls, Glued (f x ++ vs) (Lexeme.tokens ls) → Ahead.atEnd ls = false :=
            fun vs ls hls => h.not_atEnd List.mem_cons_self hls
          by_cases hlast : xs = [] ∧ trailing = false
          · obtain ⟨rfl, rfl⟩ := hlast
            rw [Reads.joined_singleton]
            refine of_peek (hstart _) ((hitem _ (.inl rfl)).bind fun a ha => ?_)
            exact of_peek hend (pure ⟨.cons ha .nil, rfl⟩)
          · have hmore : xs = [] → trailing = true := fun hxs =>
              (Bool.not_eq_false _).mp fun hfalse => hlast ⟨hxs, hfalse⟩
            rw [Reads.joined_cons hmore]
            refine of_peek (hstart _) ((hitem _ (.inr ⟨_, rfl⟩)).bind fun a ha => ?_)
            refine of_peek (fun ls hls => Ahead.atEnd_glued hls) ?_
            refine next (Reads.op (by decide) _) ?_
            exact (ih h.tail hless hmore).bind fun more hitems =>
              pure ⟨.cons ha hitems.1, hitems.2⟩

/-- A list with commas is read item by item. -/
theorem listToEnd {d : Delimiter} (h : ItemRule p f R xs (.closing d :: us)) {trailing : Bool}
    (hempty : xs = [] → trailing = true) :
    Yields (listToEnd p) (Listed.joined (Tokens.op ",") (xs.map f) trailing ++ .closing d :: us)
      (fun l => List.Forall₂ R xs l.items ∧ l.trailing = trailing) (.closing d :: us) := by
  have hne : ∀ x ∈ xs, f x ≠ [] := by
    intro x hx
    obtain ⟨t, ts, htokens, -⟩ := h.start x hx
    exact htokens ▸ List.cons_ne_nil t ts
  exact of_rest fun ls hls => listLoop h (Reads.length_lt_of_joined hne hls) hempty

end

end Yields

theorem exists_run_of_yields {p : Parser α} {ts : Tokens} {P : α → Prop} (h : Yields p ts P [])
    {ls : List Lexeme} (hls : Glued ts (Lexeme.tokens ls)) :
    ∃ a, Parser.run p ls = .ok a ∧ P a := by
  obtain ⟨a, rest, ha, hrest, heq⟩ := h ls none hls
  obtain rfl := hrest.eq_nil
  refine ⟨a, ?_, ha⟩
  simp only [Parser.run, heq]
  rfl

end Parser

/-- A name is no keyword. -/
theorem Ident.isPlain_of_isName {i : Ident} (hi : i.isName = true) {w : Text}
    (hw : keywords.contains w = true) : i.isPlain w = false := by
  have hname : (i.isName || ([] : List Text).any (i.isPlain ·)) = true := by
    rw [hi, Bool.true_or]
  exact Ident.isPlain_eq_false hname hw rfl

/-! ## Sketches -/

/-- A variant made up from its name and that of the type of its one field. -/
structure SketchedVariant where
  name : Ident
  named : name.isName = true
  payload : Ident
  known : payload.isName = true

/-- An enum made up from names. -/
structure Sketch where
  name : Ident
  named : name.isName = true
  variants : List SketchedVariant

namespace SketchedVariant

/-- The type of the field. -/
def ty (s : SketchedVariant) : Ty := .path false [.mk s.payload .none]

/-- The sketched variant as tokens. -/
def tokens (s : SketchedVariant) : Tokens :=
  .ident s.name :: Tokens.enclose .paren [.ident s.payload]

/-- The variant is what the sketch says, and nothing else. -/
structure Describes (s : SketchedVariant) (v : Variant) : Prop where
  name : v.name.ident = s.name
  attributes : v.attributes = []
  discriminant : v.discriminant = none
  fields : ∃ f span, v.fields = .tuple ⟨[f], false⟩ span ∧ f.attributes = [] ∧
    f.visibility = [] ∧ f.label = none ∧ f.ty = s.ty

theorem tokens_ty (s : SketchedVariant) : s.ty.tokens = [.ident s.payload] := by
  simp [ty, Ty.tokens, Segment.pathTokens, Arguments.tokens, Tokens.ofIdent]

theorem isPlain_ty (s : SketchedVariant) : s.ty.isPlain true = true := by
  have hsegment : s.payload.isSegment = true := by rw [Ident.isSegment, s.known, Bool.true_or]
  simp [ty, Ty.isPlain, Segment.arePlain, Arguments.isPlain, Arguments.isNone, hsegment]

theorem colonsApart_ty (s : SketchedVariant) : s.ty.colonsApart = true := by
  simp [ty, Ty.colonsApart, Segment.colonsApart, Arguments.colonsApart]

end SketchedVariant

namespace Sketch

/-- The sketch as tokens, with a comma behind each variant. -/
def tokens (s : Sketch) : Tokens :=
  Tokens.word "enum" Tokens.isSpelling_enum ++ .ident s.name ::
    Tokens.enclose .brace
      (Listed.joined (Tokens.op ",") (s.variants.map SketchedVariant.tokens) true)

/-- The enum is what the sketch says, and nothing else. -/
structure Describes (s : Sketch) (e : EnumItem) : Prop where
  name : e.name.ident = s.name
  attributes : e.attributes = []
  visibility : e.visibility = []
  generics : e.generics = .empty
  variants : List.Forall₂ SketchedVariant.Describes s.variants e.variants.items

end Sketch

/-! ## Rules -/

namespace Rules

open EnumTags.Parser

variable {r : Rules} {depth : Nat} {ts us : Tokens}

/-! ### What is not there -/

theorem reads_attributes_missing (h : ts.head?.any (Token.isMark '#') = false) :
    Reads r.attributes ts true [] ts :=
  (Reads.manyWhile_nil fun _ hls => Ahead.op_eq_false hls h []).bind_pure

theorem reads_visibility_missing (h : ts.head?.any (Token.isWord "pub") = false) :
    Reads visibility ts true [] ts :=
  Reads.of_peek (fun _ hls => (Ahead.word_glued hls _).trans h) (Reads.pure _ _)

theorem reads_generics_missing (h : ts.head?.any (Token.isMark '<') = false) :
    Reads r.generics ts true .empty ts :=
  Reads.of_peek (fun _ hls => Ahead.op_eq_false hls h []) (Reads.pure _ _)

theorem reads_whereClause_missing (h : ts.head?.any (Token.isWord "where") = false) :
    Reads r.whereClause ts true none ts :=
  Reads.of_peek (fun _ hls => (Ahead.word_glued hls _).trans h) (Reads.pure _ _)

/-! ### Variants -/

theorem yields_placedName {i : Ident} (hi : i.isName = true) (ts : Tokens) :
    Yields placedName (.ident i :: ts) (fun p => p.1.ident = i) ts :=
  (Yields.of_reads (P := fun j => j.1 = i) (Reads.someName hi ts) rfl).withSource fun _ _ hj =>
    .pure hj

/-- A field of a plain type is read without attributes and visibility. -/
theorem Knows.yields_tupleField (hr : r.Knows depth) {t : Ty} (hplain : t.isPlain true = true)
    (happart : t.colonsApart = true) (hlength : t.tokens.length ≤ depth)
    (hus : us.endsType true = true) :
    Yields (tupleField r) (t.tokens ++ us) (fun f => f.attributes = [] ∧ f.visibility = [] ∧
      f.label = none ∧ f.ty = t) us := by
  obtain ⟨u, more, htokens, hu⟩ := Ty.exists_tokens_eq_cons t hplain
  have hty := hr.plain hplain hlength hus
  rw [happart] at hty
  have hattributes : (t.tokens ++ us).head?.any (Token.isMark '#') = false := by
    rw [htokens]
    exact Token.not_isMark_of_startsType hu (by decide)
  have hvisibility : (t.tokens ++ us).head?.any (Token.isWord "pub") = false := by
    rw [htokens]
    exact Token.not_isWord_of_startsType hu (by decide) (by decide)
  have hparts : Yields (do
      let attributes ← r.attributes
      let visibility ← visibility
      return (attributes, visibility, ← r.ty true)) (t.tokens ++ us) (· = ([], [], t)) us :=
    .next (reads_attributes_missing hattributes)
      (.next (reads_visibility_missing hvisibility) (.next hty (.pure rfl)))
  refine hparts.withSource ?_
  rintro parts source rfl
  exact .pure ⟨rfl, rfl, rfl, rfl⟩

/-- The one field of a sketched variant is read in its parentheses. -/
theorem Knows.yields_tupleFields (hr : r.Knows depth) (hdepth : 1 ≤ depth) (s : SketchedVariant)
    (us : Tokens) :
    Yields (tupleFields r) (Tokens.enclose .paren [.ident s.payload] ++ us)
      (fun fields => ∃ f span, fields = .tuple ⟨[f], false⟩ span ∧ f.attributes = [] ∧
        f.visibility = [] ∧ f.label = none ∧ f.ty = s.ty) us := by
  have hrule : Yields.ItemRule (tupleField r) Ty.tokens (fun t f => f.attributes = [] ∧
      f.visibility = [] ∧ f.label = none ∧ f.ty = t) [s.ty] (.closing .paren :: us) := by
    refine ⟨fun t ht vs hvs => ?_, fun t ht => ?_⟩
    · obtain rfl := List.mem_singleton.mp ht
      refine hr.yields_tupleField s.isPlain_ty s.colonsApart_ty (s.tokens_ty ▸ hdepth) ?_
      rcases hvs with rfl | ⟨ws, rfl⟩ <;> rfl
    · obtain rfl := List.mem_singleton.mp ht
      exact ⟨_, _, s.tokens_ty, rfl⟩
  have hempty : [s.ty] = [] → false = true := nofun
  have hlist := Yields.listToEnd hrule hempty
  rw [Reads.joined_singleton, s.tokens_ty] at hlist
  refine hlist.group.withSource fun l source hl => .pure ?_
  obtain ⟨items, trailing⟩ := l
  obtain ⟨hitems, rfl⟩ := hl
  obtain ⟨f, rest, hf, hrest, rfl⟩ := List.forall₂_cons_left_iff.mp hitems
  obtain rfl := List.forall₂_nil_left_iff.mp hrest
  exact ⟨f, _, rfl, hf⟩

/-- A sketched variant is read in front of a comma and of the end. -/
theorem Knows.yields_variant (hr : r.Knows depth) (hdepth : 1 ≤ depth) (s : SketchedVariant)
    (hequals : us.head?.any (Token.isMark '=') = false) :
    Yields (variant r) (s.tokens ++ us) s.Describes us := by
  have hpub : (Token.ident s.name).isWord "pub" = false :=
    Ident.isPlain_of_isName s.named (by decide)
  have hparts : Yields (do
      let head ← placedName
      let fields ← if ← peek (Ahead.opens .brace) then recordFields r
        else if ← peek (Ahead.opens .paren) then tupleFields r
        else pure .unit
      let discriminant ← if ← peek (Ahead.op "=") then do
          let _ ← op "="
          some <$> r.exprTokens true
        else pure none
      return (head, fields, discriminant)) (s.tokens ++ us)
      (fun parts => parts.1.1.ident = s.name ∧ (∃ f span, parts.2.1 = .tuple ⟨[f], false⟩ span ∧
        f.attributes = [] ∧ f.visibility = [] ∧ f.label = none ∧ f.ty = s.ty) ∧
          parts.2.2 = none) us := by
    refine (yields_placedName s.named _).bind fun head hhead => ?_
    refine .of_peek (fun ls hls => Ahead.opens_glued hls _) ?_
    refine .of_peek (fun ls hls => Ahead.opens_glued hls _) ?_
    refine (hr.yields_tupleFields hdepth s us).bind fun fields hfields => ?_
    refine .of_peek (fun ls hls => Ahead.op_eq_false hls hequals []) ?_
    exact .pure ⟨hhead, hfields, rfl⟩
  refine Yields.withSource (.of_reads (P := (· = [])) (reads_attributes_missing rfl) rfl) ?_
  rintro attributes before rfl
  refine .next (reads_visibility_missing hpub) (hparts.withSource ?_)
  rintro ⟨head, fields, discriminant⟩ behind ⟨hhead, hfields, rfl⟩
  exact .pure ⟨hhead, rfl, rfl, hfields⟩

/-! ### Enums -/

/-- The enum of a draft is what the sketch says. -/
def Draft.IsSketched (s : Sketch) (d : Draft) : Prop := ∃ e, d = .enum e ∧ s.Describes e

theorem Knows.yields_enumItem (hr : r.Knows depth) (hdepth : 1 ≤ depth) (s : Sketch) :
    Yields (enumItem r []) s.tokens (Draft.IsSketched s) [] := by
  have hrule : Yields.ItemRule (variant r) SketchedVariant.tokens SketchedVariant.Describes
      s.variants [.closing .brace] := by
    refine ⟨fun v _ vs hvs => hr.yields_variant hdepth v ?_, fun v _ => ⟨_, _, rfl, rfl⟩⟩
    rcases hvs with rfl | ⟨ws, rfl⟩ <;> rfl
  have hempty : s.variants = [] → true = true := fun _ => rfl
  have hlist := (Yields.listToEnd hrule hempty).group (d := .brace)
  refine .next (reads_visibility_missing rfl) (.next (Reads.word (by decide) _) ?_)
  refine (yields_placedName s.named _).bind fun head hhead => ?_
  refine .next (reads_generics_missing rfl) (.next (reads_whereClause_missing rfl) ?_)
  exact hlist.bind fun variants hvariants =>
    .pure ⟨_, rfl, ⟨hhead, rfl, rfl, rfl, hvariants.1⟩⟩

theorem Knows.yields_anyItem (hr : r.Knows depth) (hdepth : 1 ≤ depth) (s : Sketch) :
    Yields (anyItem r) s.tokens (fun item => ∃ e, item = .enum e ∧ s.Describes e) [] := by
  have hbehind : Yields (do
      let attributes ← r.attributes
      let before ← get
      let v ← visibility
      let ls ← rest
      set before
      itemBehind r attributes (!v.isEmpty) ls) s.tokens (Draft.IsSketched s) [] := by
    refine .next (reads_attributes_missing rfl) fun ls spill hls => ?_
    -- no visibility is read, and the first word says that this is an enum
    obtain ⟨span, more, rfl, -⟩ := hls.exists_ident
    exact hr.yields_enumItem hdepth s _ spill hls
  refine hbehind.withSource ?_
  rintro draft source ⟨e, rfl, hname, hattributes, hvisibility, hgenerics, hvariants⟩
  exact .pure ⟨_, rfl, ⟨hname, hattributes, hvisibility, hgenerics, hvariants⟩⟩

end Rules

/-- **A sketch is read back** as an enum that is what the sketch says. -/
theorem Sketch.exists_read (s : Sketch) {ls : List Lexeme}
    (hls : Glued s.tokens (Lexeme.tokens ls)) :
    ∃ e, Item.read ls = .ok (.enum e) ∧ s.Describes e := by
  have hyields := (Rules.knows_nested (2 * ls.length + 2)).yields_anyItem (by omega) s
  obtain ⟨item, hread, e, rfl, hdescribes⟩ := Parser.exists_run_of_yields hyields hls
  exact ⟨e, hread, hdescribes⟩

end EnumTags

import EnumTags.Proofs.Diagnoses

/-!
# What is read of an item

Some properties of an item hold whatever it was read from, since the parsers give nothing else.
`Parser.Gives p P` says that everything `p` gives has the property `P`; one lemma per combinator says
how this is put together, and parsers are then followed along their own definitions.

Two properties of enums matter here. Labels go with brackets: a field in parentheses never has one,
and a field in curly brackets always does. And the brackets around the type of a field are written,
since others cannot be read.

## Main definitions

* `Parser.Gives`: everything that a parser gives has a property.
* `Ty.Written`: the brackets around a type are written.
* `Fields.Labelled`: the fields have labels exactly if they are in curly brackets.
-/

namespace EnumTags

/-! ## Parsers -/

namespace Parser

variable {α β : Type}

/-- Everything that the parser gives has the property. -/
def Gives (p : Parser α) (P : α → Prop) : Prop := ∀ c a c', p c = .ok (a, c') → P a

namespace Gives

variable {P : α → Prop} {Q : β → Prop}

theorem pure {a : α} (h : P a) : Gives (Pure.pure a) P := by
  intro c b c' hrun
  cases hrun
  exact h

theorem throw (e : SyntaxError) : Gives (MonadExcept.throw e : Parser α) P := by
  intro c a c' hrun
  cases hrun

/-- One parser after the other. -/
theorem bind {p : Parser α} {f : α → Parser β} (hp : Gives p P) (hf : ∀ a, P a → Gives (f a) Q) :
    Gives (p >>= f) Q := by
  intro c b c' hrun
  obtain ⟨a, c₁, hfirst, hrest⟩ := exists_of_bind_eq_ok hrun
  exact hf a (hp c a c₁ hfirst) c₁ b c' hrest

/-- One parser after another that can give anything. -/
theorem next {p : Parser α} {f : α → Parser β} (hf : ∀ a, Gives (f a) Q) : Gives (p >>= f) Q := by
  intro c b c' hrun
  obtain ⟨a, c₁, -, hrest⟩ := exists_of_bind_eq_ok hrun
  exact hf a c₁ b c' hrest

theorem ite {c : Prop} [Decidable c] {p q : Parser α} (hp : Gives p P) (hq : Gives q P) :
    Gives (if c then p else q) P := by
  by_cases h : c
  · rwa [if_pos h]
  · rwa [if_neg h]

/-- A failure gives nothing. -/
theorem expected (options : List Text) : Gives (expected options : Parser α) P :=
  next fun _ => throw _

/-- Going on behind a parser whose source is kept. -/
theorem withSource {p : Parser α} {f : α × List Lexeme → Parser β} (hp : Gives p P)
    (hf : ∀ a source, P a → Gives (f (a, source)) Q) : Gives (withSource p >>= f) Q := by
  have hsource : Gives (Parser.withSource p) fun x => P x.1 :=
    next fun _ => hp.bind fun _ ha => next fun _ => pure ha
  exact hsource.bind fun x hx => hf x.1 x.2 hx

theorem group {d : Delimiter} {p : Parser α} (hp : Gives p P) : Gives (group d p) P := by
  refine next fun ls => ?_
  cases ls with
  | nil => exact expected _
  | cons l ls =>
      by_cases hopens : (l.token == .opening d) = true
      · simp only [hopens, if_true]
        exact next fun _ => hp.bind fun a ha => next fun _ => pure ha
      · simp only [hopens]
        exact expected _

theorem listLoop {stop : List Lexeme → Bool} {separator : Text} {p : Parser α} (hp : Gives p P)
    (fuel : Nat) : Gives (listLoop stop separator p fuel) fun l => ∀ a ∈ l.items, P a := by
  induction fuel with
  | zero => exact throw _
  | succ fuel ih =>
      refine next fun ended => ?_
      cases ended with
      | true => exact pure (by simp)
      | false =>
          refine hp.bind fun a ha => next fun ended => ?_
          cases ended with
          | true => exact pure (by simpa using ha)
          | false =>
              refine next fun _ => ih.bind fun more hmore => pure ?_
              exact List.forall_mem_cons.mpr ⟨ha, hmore⟩

/-- Every item of a list has the property that every item has. -/
theorem listToEnd {p : Parser α} (hp : Gives p P) :
    Gives (listToEnd p) fun l => ∀ a ∈ l.items, P a :=
  next fun _ => hp.listLoop _

end Gives

end Parser

/-! ## Types -/

/-- All brackets around the type are written. -/
def Ty.Written : Ty → Prop
  | .paren inner => inner.Written
  | .group _ => False
  | _ => True

namespace Rules
open EnumTags.Parser

/-- The types that the rules give are in no other brackets than written ones. -/
def GivesWritten (r : Rules) : Prop := ∀ plus, Gives (r.ty plus) Ty.Written

/-- The type that is read in parentheses is in no other brackets than written ones. -/
def ParenInside.Written : ParenInside → Prop
  | .whole ty => ty.Written
  | .bound _ => True
  | .single ty => ty.Written

variable {r : Rules}

theorem gives_fnType (r : Rules) (binder : Tokens) :
    Gives (fnType r binder) Ty.Written :=
  .next fun _ => .next fun _ => .next fun ⟨_, _, _⟩ => .next fun _ => .pure trivial

theorem gives_bareObject (r : Rules) : Gives (bareObject r) Ty.Written :=
  .next fun _ => .pure trivial

theorem gives_implType (r : Rules) (plus : Bool) :
    Gives (implType r plus) Ty.Written :=
  .next fun _ => .next fun _ => .ite (.pure trivial) (.throw _)

theorem gives_pathSum (r : Rules) (plus : Bool) (first : Bound) :
    Gives (pathSum r plus first) Ty.Written :=
  .next fun _ => .ite (.next fun _ => .next fun _ => .pure trivial) (.pure trivial)

theorem gives_parenSum (r : Rules) (first : Bound) :
    Gives (parenSum r first) Ty.Written :=
  .next fun _ => .pure trivial

theorem gives_parenInside (h : r.GivesWritten) :
    Gives (parenInside r) ParenInside.Written := by
  refine .next fun ls => .ite (.pure trivial) (.ite ?_ (.ite ?_ ?_))
  · exact (gives_bareObject r).bind fun _ hwritten => .pure hwritten
  · refine .next fun bound => ?_
    cases bound with
    | none => exact .expected _
    | some b => exact .pure trivial
  · refine (h true).bind fun first hfirst => .next fun _ => .ite ?_ (.pure hfirst)
    exact .next fun _ => .next fun _ => .pure trivial

theorem gives_parenType (h : r.GivesWritten) (plus : Bool) :
    Gives (parenType r plus) Ty.Written := by
  refine (gives_parenInside h).group.bind fun inside hinside => ?_
  cases inside with
  | whole ty => exact .pure hinside
  | bound b => exact gives_parenSum r b
  | single inner =>
      refine .next fun _ => .ite ?_ (.pure hinside)
      cases boundOfParen inner with
      | none => exact .pure hinside
      | some b => exact gives_parenSum r b

theorem gives_typePath (r : Rules) (inExpr : Bool) :
    Gives (typePath r inExpr) Ty.Written := by
  refine .next fun _ => .ite (.next fun _ => .next fun _ => .next fun _ => ?_)
    (.next fun ⟨_, _⟩ => .pure trivial)
  have hbehind : ∀ (self : Ty) (rooted : Bool) (trait : List Segment), Gives (do
      let _ ← op ">"
      let _ ← op "::"
      let more ← chainFrom (fun _ => true) "::" (segment r.argument inExpr)
      return Ty.qualified self rooted trait more.items) Ty.Written :=
    fun _ _ _ => .next fun _ => .next fun _ => .next fun _ => .pure trivial
  exact .ite (.next fun _ => .next fun ⟨_, _⟩ => hbehind _ _ _)
    (.next fun ⟨_, _⟩ => hbehind _ _ _)

theorem gives_pathType (r : Rules) (plus : Bool) (binder : Option Tokens) :
    Gives (pathType r plus binder) Ty.Written := by
  refine (gives_typePath r false).bind fun t ht => ?_
  split
  · refine .next fun _ => .ite (.next fun _ => .next fun ⟨_, _⟩ => .pure trivial) ?_
    exact .ite (gives_pathSum r plus _) (.pure trivial)
  · exact .pure ht

theorem gives_typeBehind (r : Rules) (plus : Bool) (before : List Lexeme) (binder : Tokens) :
    Gives (typeBehind r plus before binder) Ty.Written :=
  .next fun _ => .ite (gives_fnType r binder) (.ite (.next fun _ => .next fun _ => .pure trivial)
    (.ite (gives_pathType r plus _) (.expected _)))

theorem gives_dynType (r : Rules) (plus : Bool) :
    Gives (dynType r plus) Ty.Written :=
  .next fun _ => .next fun _ => .next fun _ => .next fun _ =>
    .ite (.pure trivial) (.next fun _ => .pure trivial)

theorem gives_bracketType (r : Rules) : Gives (bracketType r) Ty.Written :=
  .group (.next fun _ => .next fun _ =>
    .ite (.next fun _ => .next fun _ => .pure trivial) (.pure trivial))

theorem gives_pointerType (r : Rules) : Gives (pointerType r) Ty.Written :=
  .next fun _ => .next fun _ => .ite (.next fun _ => .next fun _ => .pure trivial)
    (.next fun _ => .ite (.next fun _ => .next fun _ => .pure trivial) (.expected _))

theorem gives_referenceType (r : Rules) : Gives (referenceType r) Ty.Written := by
  refine .next fun _ => .next fun _ => ?_
  repeat' first
    | exact .pure trivial
    | refine .next fun _ => ?_
    | refine .ite ?_ ?_

theorem gives_anyType (h : r.GivesWritten) (plus : Bool) :
    Gives (anyType r plus) Ty.Written := by
  refine .next fun ls => .ite (.next fun _ => gives_typeBehind r plus ls _) ?_
  refine .ite (gives_parenType h plus) (.ite (gives_fnType r []) ?_)
  refine .ite (.next fun _ => .next fun _ => .pure trivial) (.ite (gives_pathType r plus none) ?_)
  refine .ite (gives_dynType r plus) (.ite (gives_bracketType r) ?_)
  refine .ite (gives_pointerType r) (.ite (gives_referenceType r) ?_)
  refine .ite (.next fun _ => .pure trivial) (.ite (gives_implType r plus) ?_)
  exact .ite (.next fun _ => .pure trivial) (.ite (gives_bareObject r) (.expected _))

theorem givesWritten_nested (depth : Nat) : (nested depth).GivesWritten := by
  induction depth with
  | zero => exact fun plus => .throw _
  | succ depth ih => exact gives_anyType ih

end Rules

/-! ## Fields -/

/-- The fields have labels exactly if they are in curly brackets. -/
def Fields.Labelled : Fields → Prop
  | .unit => True
  | .tuple fields _ => ∀ f ∈ fields.items, f.label = none
  | .record fields _ => ∀ f ∈ fields.items, f.label.isSome

/-- All brackets around the types of the fields are written. -/
def Fields.Written (fields : Fields) : Prop := ∀ f ∈ fields.items, f.ty.Written

/-- Every variant of the enum is labelled in this way. -/
def EnumItem.Labelled (e : EnumItem) : Prop := ∀ v ∈ e.variants.items, v.fields.Labelled

/-- All brackets around the types in the enum are written. -/
def EnumItem.Written (e : EnumItem) : Prop := ∀ v ∈ e.variants.items, v.fields.Written

/-- If the item is an enum, it is labelled in this way. -/
def Item.Labelled (item : Item) : Prop := ∀ e, item = .enum e → e.Labelled

/-- If the item is an enum, all brackets around the types in it are written. -/
def Item.Written (item : Item) : Prop := ∀ e, item = .enum e → e.Written

namespace Rules

/-- If this is an enum, labels go with its brackets, and those around its types are written. -/
def Draft.Proper : Draft → Prop
  | .enum e => e.Labelled ∧ e.Written
  | .product _ _ => True
  | .module _ _ _ => True
  | .named _ _ => True
  | .unnamed _ => True
  | .verbatim => True

open EnumTags.Parser

variable {r : Rules}

theorem gives_tupleFields (h : r.GivesWritten) :
    Gives (tupleFields r) fun fields => fields.Labelled ∧ fields.Written := by
  have hfield : Gives (tupleField r) fun f => f.label = none ∧ f.ty.Written := by
    refine .withSource (P := fun parts => parts.2.2.Written) ?_ fun ⟨_, _, _⟩ _ hty =>
      .pure ⟨rfl, hty⟩
    exact .next fun _ => .next fun _ => (h true).bind fun _ hty => .pure hty
  exact hfield.listToEnd.group.withSource fun _ _ hfields =>
    .pure ⟨fun f hf => (hfields f hf).1, fun f hf => (hfields f hf).2⟩

theorem gives_recordFields (h : r.GivesWritten) :
    Gives (recordFields r) fun fields => fields.Labelled ∧ fields.Written := by
  have hfield : Gives (recordField r) fun f => f.label.isSome ∧ f.ty.Written := by
    refine .next fun before => .withSource (P := fun parts => parts.2.2.2.Written) ?_
      fun ⟨_, _, _, _⟩ _ hty => .pure ⟨rfl, hty⟩
    -- the type comes last, however the label is read
    refine .next fun attributes => .next fun visibility => .next fun isBlank => ?_
    have htype : ∀ (label : Ident) (ls : List Lexeme), Gives
        (if isBlank && startsNameless ls then do
          let _ ← anyIdent
          passFields r (before.length + 1)
          return (attributes, visibility, label, Ty.verbatim (← since ls))
        else do return (attributes, visibility, label, ← r.ty true))
        fun parts => parts.2.2.2.Written :=
      fun label ls => .ite (.next fun _ => .next fun _ => .next fun _ => .pure trivial)
        ((h true).bind fun _ hty => .pure hty)
    exact .ite (.next fun label => .next fun _ => .next fun ls => htype label ls)
      (.next fun label => .next fun _ => .next fun ls => htype label ls)
  exact hfield.listToEnd.group.withSource fun _ _ hfields =>
    .pure ⟨fun f hf => (hfields f hf).1, fun f hf => (hfields f hf).2⟩

theorem gives_variant (h : r.GivesWritten) :
    Gives (variant r) fun v => v.fields.Labelled ∧ v.fields.Written := by
  refine .next fun _ => .next fun _ =>
    .withSource (P := fun parts => parts.2.1.Labelled ∧ parts.2.1.Written) ?_
      fun _ _ hfields => .pure hfields
  -- the fields come first, whatever is read behind them
  have hbehind : ∀ (i : { p : Placed // p.ident.isName = true }) (fields : Fields),
      fields.Labelled ∧ fields.Written → Gives (do
        let discriminant ← if ← peek (Ahead.op "=") then do
            let _ ← op "="
            some <$> r.exprTokens true
          else pure none
        return (i, fields, discriminant)) fun parts => parts.2.1.Labelled ∧ parts.2.1.Written :=
    fun i fields hfields =>
      .next fun _ => .ite (.next fun _ => .next fun _ => .pure hfields) (.pure hfields)
  refine .next fun i => .next fun _ => .next fun _ => .ite ?_ (.ite ?_ ?_)
  · exact (gives_recordFields h).bind (hbehind i)
  · exact (gives_tupleFields h).bind (hbehind i)
  · exact (Gives.pure ⟨trivial, fun _ hf => nomatch hf⟩).bind (hbehind i)

/-- The variants of an enum are proper. -/
theorem gives_enumItem (h : r.GivesWritten) (attributes : Tokens) :
    Gives (enumItem r attributes) Draft.Proper :=
  .next fun _ => .next fun _ => .next fun _ => .next fun _ => .next fun _ =>
    (gives_variant h).listToEnd.group.bind fun _ hvariants =>
      .pure ⟨fun v hv => (hvariants v hv).1, fun v hv => (hvariants v hv).2⟩

/-! ## Other items -/

variable (r)

theorem gives_fnItem (attributes : Tokens) : Gives (fnItem r attributes) Draft.Proper :=
  .next fun _ => .next fun _ => .next fun _ =>
    .ite (.next fun _ => .pure trivial) (.next fun _ => .pure trivial)

theorem gives_constItem (attributes : Tokens) : Gives (constItem r attributes) Draft.Proper := by
  refine .next fun _ => .next fun _ => .ite (.next fun _ => ?_) ?_ <;>
    exact .next fun _ => .ite (.pure trivial) (.pure trivial)

theorem gives_staticItem (attributes : Tokens) : Gives (staticItem r attributes) Draft.Proper :=
  .next fun _ => .next fun _ => .next fun _ => .ite (.next fun _ => .pure trivial)
    (.next fun _ => .next fun _ => .ite (.next fun _ => .pure trivial) (.next fun _ => .pure trivial))

theorem gives_typeItem (attributes : Tokens) : Gives (typeItem r attributes) Draft.Proper := by
  refine .next fun _ => .next fun t => ?_
  split <;> exact .pure trivial

theorem gives_qualifiedTraitItem (attributes : Tokens) :
    Gives (qualifiedTraitItem r attributes) Draft.Proper :=
  .next fun _ => .next fun _ => .next fun _ => .next fun _ => .pure trivial

theorem gives_traitItem (attributes : Tokens) : Gives (traitItem r attributes) Draft.Proper :=
  .next fun _ => .next fun _ => .next fun _ => .next fun _ =>
    .ite (.next fun _ => .pure trivial)
      (.ite (.next fun _ => .next fun _ => .next fun _ => .pure trivial) (.expected _))

theorem gives_implItem (attributes : Tokens) : Gives (implItem r attributes) Draft.Proper := by
  unfold implItem
  repeat' first
    | exact .pure trivial
    | refine .next fun _ => ?_
    | refine .ite ?_ ?_

theorem gives_moduleItem (attributes : Tokens) : Gives (moduleItem r attributes) Draft.Proper :=
  .next fun _ => .next fun _ => .next fun _ =>
    .ite (.next fun _ => .pure trivial)
      (.next fun _ => .ite (.next fun ⟨_, _⟩ => .pure trivial) (.expected _))

theorem gives_useItem (attributes : Tokens) : Gives (useItem attributes) Draft.Proper :=
  .next fun _ => .next fun _ => .next fun _ => .next fun ⟨_, _⟩ => .next fun _ =>
    .ite (.pure trivial) (.pure trivial)

theorem gives_declaredMacro : Gives declaredMacro Draft.Proper := by
  refine .next fun _ => .next fun _ => .next fun _ => .ite (.next fun _ => ?_) ?_ <;>
    exact .next fun _ => .ite (.next fun _ => .pure trivial) (.ite (.expected _) (.expected _))

theorem gives_structItem (attributes : Tokens) : Gives (structItem r attributes) Draft.Proper :=
  .next fun _ => .next fun _ => .next fun _ => .next fun _ => .pure trivial

theorem gives_unionItem (attributes : Tokens) : Gives (unionItem r attributes) Draft.Proper :=
  .next fun _ => .next fun _ => .next fun _ => .pure trivial

theorem gives_externItem (attributes : Tokens) (ls : List Lexeme) :
    Gives (externItem r attributes ls) Draft.Proper := by
  have hforeign : Gives (foreignItem r attributes) Draft.Proper :=
    .next fun _ => .next fun _ => .pure trivial
  exact .ite (.next fun _ => .pure trivial)
    (.ite hforeign (.ite (.ite hforeign (.throw _)) (.throw _)))

theorem gives_unsafeItem (attributes : Tokens) (ls : List Lexeme) :
    Gives (unsafeItem r attributes ls) Draft.Proper := by
  refine .ite (gives_qualifiedTraitItem r attributes) (.ite (gives_implItem r attributes) ?_)
  refine .ite (.next fun _ => .next fun _ => .pure trivial) ?_
  exact .ite (gives_moduleItem r attributes) (.throw _)

theorem gives_itemBehind (h : r.GivesWritten) (attributes : Tokens) (isPublic : Bool)
    (ls : List Lexeme) :
    Gives (itemBehind r attributes isPublic ls) Draft.Proper := by
  unfold itemBehind
  refine .ite (gives_fnItem r attributes) (.ite (gives_externItem r attributes _) ?_)
  refine .ite (gives_useItem attributes) (.ite (gives_staticItem r attributes) ?_)
  refine .ite (gives_constItem r attributes) (.ite (gives_unsafeItem r attributes _) ?_)
  refine .ite (gives_moduleItem r attributes) (.ite (gives_typeItem r attributes) ?_)
  refine .ite (gives_structItem r attributes) (.ite (gives_enumItem h attributes) ?_)
  refine .ite (gives_unionItem r attributes) (.ite (gives_traitItem r attributes) ?_)
  refine .ite (gives_qualifiedTraitItem r attributes) (.ite (gives_implItem r attributes) ?_)
  refine .ite gives_declaredMacro (.ite ?_ (.throw _))
  exact .next fun _ => .pure trivial

end Rules

/-- **Labels go with brackets** in every item that was read, and the brackets around types are
written. -/
theorem Item.proper_of_read {ls : List Lexeme} {item : Item} (h : Item.read ls = .ok item) :
    item.Labelled ∧ item.Written := by
  have hgives : Parser.Gives (Rules.anyItem (Rules.nested (2 * ls.length + 2))) fun item =>
      item.Labelled ∧ item.Written := by
    refine .withSource (P := Rules.Draft.Proper) ?_ fun draft source hproper => .pure ⟨?_, ?_⟩
    · exact .next fun _ => .next fun _ => .next fun _ => .next fun _ => .next fun _ =>
        Rules.gives_itemBehind _ (Rules.givesWritten_nested _) _ _ _
    · intro e he
      cases draft <;> cases he
      exact hproper.1
    · intro e he
      cases draft <;> cases he
      exact hproper.2
  exact hgives _ _ _ (Parser.run_eq_ok h)

end EnumTags

import EnumTags.Proofs.EnumEmission

/-!
# What is accepted

An attribute keeps the item that it stands before and adds either all that is generated for it or a
single error. Which of the two it is depends on the item and the arguments alone, and `Accepted`
says how: it collects what the checks, the plan and the emission each ask for.

## Main definitions

* `EnumItem.Accepted`: an enum for which everything is generated.
* `IsRendered`: tokens that are all that is generated for an item.
-/

namespace EnumTags

/-- An enum for which everything is generated, under the given arguments. -/
structure EnumItem.Accepted (e : EnumItem) (o : Options) : Prop extends e.Simplifiable where
  /-- The module has a name. -/
  named : o.module.isSome ∨ ∃ module, e.name.ident.moduleName = .ok module
  /-- The text of every inline function can be read as a type. -/
  readable : ∀ t ∈ inlineFunctions e.variants.items, (Ty.ofText? t.tokens.compact).isSome
  /-- No variant hides an associated item. -/
  free : ∀ v ∈ e.variants.items, v.name.ident.text ∉ reservedNames

theorem EnumItem.exists_moduleFor (e : EnumItem) (o : Options) :
    (∃ module, e.moduleFor o = .ok module) ↔
      o.module.isSome ∨ ∃ module, e.name.ident.moduleName = .ok module := by
  cases hm : o.module <;> simp [moduleFor, hm]

/-- The plan of an enum is emitted exactly if the enum is accepted. -/
theorem exists_emit_iff (e : EnumItem) (o : Options) :
    (∃ decls m, (Outline.ofEnum e).generate = .ok (.planned decls) ∧ emit e o decls = .ok m) ↔
      e.Accepted o := by
  simp only [generate_ofEnum_eq_planned]
  constructor
  · rintro ⟨decls, m, ⟨hsimplifiable, rfl⟩, hemit⟩
    obtain ⟨module, hmodule, hread, hfree, -⟩ := (emit_planned_eq_ok_iff e o m).mp hemit
    exact ⟨hsimplifiable, (e.exists_moduleFor o).mp ⟨module, hmodule⟩, hread, hfree⟩
  · rintro ⟨hsimplifiable, hnamed, hread, hfree⟩
    obtain ⟨module, hmodule⟩ := (e.exists_moduleFor o).mpr hnamed
    exact ⟨_, _, ⟨hsimplifiable, rfl⟩,
      (emit_planned_eq_ok_iff e o _).mpr ⟨module, hmodule, hread, hfree, rfl⟩⟩

/-! ## The output is whole -/

open Tokens

/-- The tokens are a module. -/
def IsModule (ts : Tokens) : Prop :=
  ∃ visibility name inside, ts = visibility ++ code "mod" ++ ofIdent name ++ enclose .brace inside

/-- The tokens are an implementation. -/
def IsImpl (ts : Tokens) : Prop :=
  ∃ head body, ts = code "impl" ++ head ++ enclose .brace body

/-- The tokens are all that is generated for an item: what its plan is emitted as, with both the
enum without payloads and the projection in it. These are one module and two implementations. -/
def IsRendered (o : Options) (item : Item) (ts : Tokens) : Prop :=
  ∃ e decls m module methods conversion, item = .enum e ∧
    (Outline.ofItem item).generate = .ok (.planned decls) ∧ emit e o decls = .ok m ∧
    m.tags.isSome ∧ m.projection.isSome ∧ ts = m.tokens ∧
    ts = module ++ methods ++ conversion ∧ IsModule module ∧ IsImpl methods ∧ IsImpl conversion

theorem isRendered_of_emit {e : EnumItem} {o : Options} {decls : List Planned} {m : Emission}
    (hplan : (Outline.ofEnum e).generate = .ok (.planned decls)) (hemit : emit e o decls = .ok m) :
    IsRendered o (.enum e) m.tokens := by
  obtain ⟨-, rfl⟩ := (generate_ofEnum_eq_planned e decls).mp hplan
  obtain ⟨module, -, -, -, rfl⟩ := (emit_planned_eq_ok_iff e o m).mp hemit
  refine ⟨e, _, _, (e.emission o module).moduleTokens, (e.projectionCode o).methods e module,
    (e.projectionCode o).conversion e module, rfl, hplan, hemit, rfl, rfl, rfl, ?_,
    ⟨_, _, _, rfl⟩, ⟨_, _, rfl⟩, ⟨_, _, rfl⟩⟩
  rw [Emission.tokens, List.append_assoc]
  rfl

theorem IsRendered.ne_nil {o : Options} {item : Item} {ts : Tokens} (h : IsRendered o item ts) :
    ts ≠ [] := by
  obtain ⟨-, -, -, module, methods, conversion, -, -, -, -, -, -, rfl, -, -, ⟨head, body, rfl⟩⟩ := h
  simp [enclose]

/-- An error is nothing of what is generated, since it holds no module. -/
theorem not_isRendered_compileError (o : Options) (item : Item) (message : Text) :
    ¬ IsRendered o item (compileError message) := by
  rintro ⟨-, -, -, module, methods, conversion, -, -, -, -, -, -, heq,
    ⟨visibility, name, inside, rfl⟩, -, -⟩
  have hmod : Token.ident (.plain "mod") ∈ code "mod" := by decide
  have hcode : Token.ident (.plain "mod") ∉ code ":: core :: compile_error !" := by decide
  have hmem : Token.ident (.plain "mod") ∈ compileError message := by
    rw [heq]
    simp only [List.mem_append, hmod, true_or, or_true]
  simp only [compileError, enclose, quoted, List.mem_append, hcode, List.mem_cons, reduceCtorEq,
    List.not_mem_nil, or_self] at hmem

/-! ## One error or all of it -/

theorem Diagnosis.compileErrors_singleton {σ : Type} (d : Diagnosis σ) :
    Diagnosis.compileErrors [d] = compileError d.rendered := by
  simp [compileErrors]

/-- A rejection is reported as one error. -/
theorem Expansion.exists_tokens_reject (source : Tokens) (t : Outline Span) (r : Rejection) :
    ∃ message, (Expansion.reject source t r).tokens = source ++ compileError message := by
  cases r with
  | tooDeep => exact ⟨_, rfl⟩
  | _ => exact ⟨_, congrArg _ (Diagnosis.compileErrors_singleton _)⟩

/-- Whatever is not planned is reported as one error. -/
theorem Outline.generate_cases {σ : Type} [Inhabited σ] (t : Outline σ) :
    (∃ decls, t.generate = .ok (.planned decls)) ∨ (∃ d, t.generate = .ok (.diagnosed [d])) ∨
      ∃ m, t.generate = .error m := by
  rw [generate]
  cases t.declaration.bind Declaration.plan with
  | ok decls => exact .inl ⟨decls, rfl⟩
  | error r =>
      cases r with
      | tooDeep => exact .inr (.inr ⟨_, rfl⟩)
      | _ => exact .inr (.inl ⟨_, rfl⟩)

/-- Everything is generated for an accepted enum, and for anything else there is one error. -/
theorem expandItem_cases (o : Options) (source : Tokens) (item : Item) :
    ((∃ e, item = .enum e ∧ e.Accepted o) ∧
      ∃ ts, (expandItem o source item).tokens = source ++ ts ∧ IsRendered o item ts) ∨
    ((¬ ∃ e, item = .enum e ∧ e.Accepted o) ∧
      ∃ message, (expandItem o source item).tokens = source ++ compileError message) := by
  by_cases haccepted : ∃ e, item = .enum e ∧ e.Accepted o
  · refine .inl ⟨haccepted, ?_⟩
    obtain ⟨e, rfl, he⟩ := haccepted
    obtain ⟨decls, m, hplan, hemit⟩ := (exists_emit_iff e o).mpr he
    refine ⟨m.tokens, ?_, isRendered_of_emit hplan hemit⟩
    have hitem : (Outline.ofItem (.enum e)).generate = .ok (.planned decls) := hplan
    simp only [expandItem, hitem, hemit, Expansion.tokens]
  · refine .inr ⟨haccepted, ?_⟩
    obtain ⟨decls, hplan⟩ | ⟨d, hdiagnosed⟩ | ⟨m, hmalformed⟩ :=
      (Outline.ofItem item).generate_cases
    · cases item with
      | enum e =>
          cases hemit : emit e o decls with
          | ok m => exact absurd ⟨e, rfl, (exists_emit_iff e o).mp ⟨decls, m, hplan, hemit⟩⟩ haccepted
          | error r =>
              simp only [expandItem, hplan, hemit]
              exact Expansion.exists_tokens_reject source _ r
      | _ =>
          simp only [expandItem, hplan]
          exact Expansion.exists_tokens_reject source _ _
    · refine ⟨d.rendered, ?_⟩
      simp only [expandItem, hdiagnosed, Expansion.tokens, Diagnosis.compileErrors_singleton]
    · refine ⟨m.message, ?_⟩
      simp only [expandItem, hmalformed, Expansion.tokens]

/-- **An attribute adds all that it generates or one error.** Arguments that cannot be read give the
item and an error, an item that cannot be read gives an error alone. Otherwise the item is kept and
something follows it: all that is generated if the item is an accepted enum, and one error if it is
anything else. -/
theorem expand_all_or_error (arguments item : List Lexeme) :
    match Options.read arguments with
    | .error e => (expand arguments item).tokens = Lexeme.tokens item ++ compileError e.message
    | .ok o =>
      match Item.read item with
      | .error e => (expand arguments item).tokens = compileError e.message
      | .ok parsed =>
        ∃ added, (expand arguments item).tokens = Lexeme.tokens item ++ added ∧ added ≠ [] ∧
          (IsRendered o parsed added ↔ ∃ e, parsed = .enum e ∧ e.Accepted o) ∧
          ((∃ message, added = compileError message) ↔
            ¬ ∃ e, parsed = .enum e ∧ e.Accepted o) := by
  cases ho : Options.read arguments with
  | error r => simp only [expand, ho, Expansion.tokens]
  | ok o =>
      cases hi : Item.read item with
      | error r => simp only [expand, ho, hi, Expansion.tokens]
      | ok parsed =>
          simp only [expand, ho, hi]
          obtain ⟨haccepted, ts, htokens, hrendered⟩ | ⟨hrejected, message, htokens⟩ :=
            expandItem_cases o (Lexeme.tokens item) parsed
          · refine ⟨ts, htokens, hrendered.ne_nil, iff_of_true hrendered haccepted,
              iff_of_false ?_ (not_not.mpr haccepted)⟩
            rintro ⟨message, rfl⟩
            exact not_isRendered_compileError o parsed message hrendered
          · refine ⟨compileError message, htokens, ?_, ?_, iff_of_true ⟨message, rfl⟩ hrejected⟩
            · simp [compileError, enclose]
            · exact iff_of_false (not_isRendered_compileError o parsed message) hrejected

end EnumTags

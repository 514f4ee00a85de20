import EnumTags.Proofs.Acceptance
import EnumTags.Proofs.TypeRoundTrip

/-!
# The targets of aliases

An inline function reaches its alias through text: it is written, squeezed, and read again as a type
in another place. What is read is the function itself, unless a label in it stands directly before
the colons of a path, and then the alias is not made at all. The paths of the function arrive as
they are written; none of their first names is changed, though some of them mean something else
inside the generated module.

## Main definitions

* `Ty.anyHead`: whether some path in a type begins with a name that passes a test.
* `Emission.captures`: whether a name means something else inside the generated module.

## Main results

* `planned_alias_of_plain`: what becomes of the alias of an inline function.
* `any_captures_of_expand`: which targets hold a name that means something else.
-/

namespace EnumTags

/-! ## First names of paths -/

/-- Whether the name of the first segment passes the test. -/
def Segment.leads (p : Ident → Bool) : List Segment → Bool
  | [] => false
  | .mk name _ :: _ => p name

mutual

/-- Whether some path in the type begins with a name that passes the test, and not with colons. -/
def Ty.anyHead (p : Ident → Bool) : Ty → Bool
  | .array elem _ => elem.anyHead p
  | .slice elem => elem.anyHead p
  | .function _ params _ _ result => FnParam.anyHead p params || Ty.resultAnyHead p result
  | .implTrait bounds _ => Bound.anyHead p bounds
  | .object _ bounds _ => Bound.anyHead p bounds
  | .infer => false
  | .never => false
  | .invocation _ _ _ => false
  | .paren inner => inner.anyHead p
  | .group inner => inner.anyHead p
  | .path rooted segments => (!rooted && Segment.leads p segments) || Segment.anyHead p segments
  | .qualified self rooted trait rest =>
    self.anyHead p || (!rooted && Segment.leads p trait) || Segment.anyHead p trait ||
      Segment.anyHead p rest
  | .pointer _ target => target.anyHead p
  | .reference _ _ target => target.anyHead p
  | .tuple elems _ => Ty.allAnyHead p elems
  | .verbatim _ => false

/-- The same for a list of types. -/
def Ty.allAnyHead (p : Ident → Bool) : List Ty → Bool
  | [] => false
  | t :: ts => t.anyHead p || Ty.allAnyHead p ts

/-- The same for the result of a function. -/
def Ty.resultAnyHead (p : Ident → Bool) : Option Ty → Bool
  | .none => false
  | .some t => t.anyHead p

/-- The same for parameters. -/
def FnParam.anyHead (p : Ident → Bool) : List FnParam → Bool
  | [] => false
  | .mk _ _ ty :: ps => ty.anyHead p || FnParam.anyHead p ps

/-- The same for the arguments of segments. -/
def Segment.anyHead (p : Ident → Bool) : List Segment → Bool
  | [] => false
  | .mk _ arguments :: rest => arguments.anyHead p || Segment.anyHead p rest

/-- The same for the arguments of one segment. -/
def Arguments.anyHead (p : Ident → Bool) : Arguments → Bool
  | .none => false
  | .angle _ args _ => Argument.anyHead p args
  | .paren tys _ result => Ty.allAnyHead p tys || Ty.resultAnyHead p result

/-- The same for arguments in angle brackets. -/
def Argument.anyHead (p : Ident → Bool) : List Argument → Bool
  | [] => false
  | .lifetime _ :: args => Argument.anyHead p args
  | .type ty :: args => ty.anyHead p || Argument.anyHead p args
  | .const _ :: args => Argument.anyHead p args
  | .assocType _ generics ty :: args =>
    generics.anyHead p || ty.anyHead p || Argument.anyHead p args
  | .assocConst _ generics _ :: args => generics.anyHead p || Argument.anyHead p args
  | .constraint _ generics bounds _ :: args =>
    generics.anyHead p || Bound.anyHead p bounds || Argument.anyHead p args

/-- The same for bounds. -/
def Bound.anyHead (p : Ident → Bool) : List Bound → Bool
  | [] => false
  | .trait _ _ _ rooted segments :: bounds =>
    (!rooted && Segment.leads p segments) || Segment.anyHead p segments || Bound.anyHead p bounds
  | .lifetime _ :: bounds => Bound.anyHead p bounds
  | .captures _ :: bounds => Bound.anyHead p bounds
  | .verbatim _ :: bounds => Bound.anyHead p bounds

end

/-- Whether a path that begins with this name means something else inside the generated module: the
name is relative to where it stands, or something of that name is generated. -/
def Emission.captures (m : Emission) (i : Ident) : Bool :=
  ["Self".toList, "self", "super", simplifiedName].contains i.name ||
    m.aliases.any fun a => a.name.name == i.name

/-- What was generated, if anything was. -/
def Expansion.emission? : Expansion → Option Emission
  | .generated _ m => some m
  | .badArguments _ _ => none
  | .badItem _ => none
  | .rejected _ _ => none
  | .malformed _ _ => none

/-! ## Aliases -/

theorem getElem?_numberedFrom (functions : List Ty) (k : Nat) :
    (numberedFrom 0 functions)[k]? =
      functions[k]?.map fun t => ⟨Alias.nameOf k, t.classify⟩ := by
  rw [numberedFrom, List.getElem?_map, List.getElem?_zipIdx]
  cases functions[k]? <;> simp

/-- **What becomes of an inline function.** Its alias has its number, and the text of the alias is
read as the function itself, unless a label in the function stands directly before the colons of a
path: then the text is no type, and the alias is not emitted. -/
theorem planned_alias_of_plain {e : EnumItem} {decls : List Planned}
    (hplan : (Outline.ofItem (.enum e)).generate = .ok (.planned decls)) {k : Nat} {t : Ty}
    (ht : (inlineFunctions e.variants.items)[k]? = some t) (hplain : t.isPlain true = true) :
    ∃ a : Alias, decls[k]? = some (.alias a) ∧ a.name = Alias.nameOf k ∧
      a.target.text = t.tokens.compact ∧
      Ty.ofText? a.target.text = (if t.colonsApart then some t else none) ∧
      Alias.emit e a = if t.colonsApart then .ok ⟨Alias.ident k, e.generics.aliasFor t, t⟩
        else .error (.synthesisFailed a.name) := by
  obtain ⟨-, rfl⟩ := (generate_ofEnum_eq_planned e decls).mp hplan
  have hfunction : t.isFunction = true := (List.mem_filter.mp (List.mem_of_getElem? ht)).2
  have htext := Ty.text_classify_of_isFunction hfunction
  have hread := Ty.ofText?_compact hplain
  refine ⟨⟨Alias.nameOf k, t.classify⟩, ?_, rfl, htext, htext ▸ hread, ?_⟩
  · have halias : ((Outline.registeredFrom [] e.variants.items).map Planned.alias)[k]? =
        some (.alias ⟨Alias.nameOf k, t.classify⟩) := by
      rw [Outline.registeredFrom_eq, List.nil_append, List.length_nil, List.getElem?_map,
        getElem?_numberedFrom, ht]
      rfl
    rw [EnumItem.planned, List.getElem?_append_left (List.getElem?_eq_some_iff.mp halias).1, halias]
  · simp only [Alias.emit, Ident.revive, Alias.revive?_nameOf, htext, hread]
    cases t.colonsApart <;> rfl

/-- The function type `fn(x: ::T)` or `fn(x: T)`. -/
def dialed (rooted : Bool) : Ty :=
  .function [] [.mk [] (some (.plain "x")) (.path rooted [.mk (.plain "T") .none])] false [] none

/-- An enum named `Dial` with the variants `Early(fn(x: ::T))` and `Late(fn(x: T))`. -/
def dial : EnumItem where
  attributes := []
  visibility := []
  name := ⟨.plain "Dial", default⟩
  named := by decide
  generics := .empty
  variants :=
    ⟨[⟨[], ⟨.plain "Early", default⟩, by decide,
        .tuple ⟨[⟨[], [], none, dialed true, default⟩], false⟩ default, none, default⟩,
      ⟨[], ⟨.plain "Late", default⟩, by decide,
        .tuple ⟨[⟨[], [], none, dialed false, default⟩], false⟩ default, none, default⟩], false⟩
  span := default

/-- Only the second of two aliases is emitted. -/
theorem dial_aliases :
    (∃ a, dial.planned[0]? = some (.alias a) ∧
      Alias.emit dial a = .error (.synthesisFailed (Alias.nameOf 0))) ∧
    ∃ a, dial.planned[1]? = some (.alias a) ∧
      Alias.emit dial a =
        .ok ⟨Alias.ident 1, dial.generics.aliasFor (dialed false), dialed false⟩ := by
  have hplan : (Outline.ofItem (.enum dial)).generate = .ok (.planned dial.planned) :=
    (generate_ofEnum_eq_planned dial dial.planned).mpr
      ⟨⟨by decide, by decide, by decide, by decide⟩, rfl⟩
  obtain ⟨a, ha, hname, -, -, hemit⟩ :=
    planned_alias_of_plain hplan (k := 0) (t := dialed true) rfl (by decide)
  obtain ⟨b, hb, -, -, -, hemit'⟩ :=
    planned_alias_of_plain hplan (k := 1) (t := dialed false) rfl (by decide)
  exact ⟨⟨a, ha, hname ▸ hemit⟩, b, hb, hemit'⟩

/-- The alias of `fn(x: ::std::string::String)` is not made, and so nothing is generated. -/
theorem rooted_label_rejected :
    (lex? "enum E \x7b A(fn(x: ::std::string::String)) \x7d").map
        (fun ls => Tokens.text (expand [] ls).tokens) =
      some (("enum E \x7b A (fn (x : :: std :: string :: String)) \x7d " ++
        ":: core :: compile_error ! \x7b \"simplified_enum failed creating a simplified enum for " ++
        "`AnonymousFunc_0`\" \x7d").toList) := by
  decide +kernel

/-! ## Names that mean something else -/

/-- Where all texts can be read, the targets are the inline functions. -/
theorem targets_aliasCodes {e : EnumItem}
    (hplain : ∀ t ∈ inlineFunctions e.variants.items, t.isPlain true = true)
    (hread : ∀ t ∈ inlineFunctions e.variants.items, (Ty.ofText? t.tokens.compact).isSome) :
    e.aliasCodes.map AliasCode.target = inlineFunctions e.variants.items := by
  have hsame : ∀ t ∈ inlineFunctions e.variants.items, Ty.ofText? t.tokens.compact = some t := by
    intro t ht
    have hsome := hread t ht
    rw [Ty.ofText?_compact (hplain t ht)] at hsome ⊢
    cases happart : t.colonsApart with
    | true => rfl
    | false => rw [happart] at hsome; cases hsome
  rw [EnumItem.aliasCodes, List.map_filterMap]
  conv_rhs =>
    rw [← List.zipIdx_map_fst 0 (inlineFunctions e.variants.items), ← List.filterMap_eq_map]
  refine List.filterMap_congr fun p hp => ?_
  simp only [hsame p.1 (List.fst_mem_of_mem_zipIdx hp), Option.map_some, Function.comp_apply]

theorem Expansion.emission?_reject (source : Tokens) (t : Outline Span) (r : Rejection) :
    (Expansion.reject source t r).emission? = none := by
  rw [Expansion.reject]
  cases t.report r <;> rfl

/-- Whatever is generated was planned and emitted for the enum and the arguments that were read. -/
theorem exists_read_of_expand {arguments item : List Lexeme} {m : Emission}
    (h : (expand arguments item).emission? = some m) :
    ∃ e o decls, Options.read arguments = .ok o ∧ Item.read item = .ok (.enum e) ∧
      (Outline.ofItem (.enum e)).generate = .ok (.planned decls) ∧ emit e o decls = .ok m := by
  cases ho : Options.read arguments with
  | error r => simp [expand, ho, Expansion.emission?] at h
  | ok o =>
      cases hi : Item.read item with
      | error r => simp [expand, ho, hi, Expansion.emission?] at h
      | ok parsed =>
          simp only [expand, ho, hi] at h
          obtain ⟨decls, hplan⟩ | ⟨d, hdiagnosed⟩ | ⟨m', hmalformed⟩ :=
            (Outline.ofItem parsed).generate_cases
          · cases parsed with
            | enum e =>
                cases hemit : emit e o decls with
                | ok m' =>
                    simp only [expandItem, hplan, hemit, Expansion.emission?,
                      Option.some.injEq] at h
                    exact ⟨e, o, decls, rfl, rfl, hplan, h ▸ hemit⟩
                | error r => simp [expandItem, hplan, hemit, Expansion.emission?_reject] at h
            | _ => simp [expandItem, hplan, Expansion.emission?_reject] at h
          · simp [expandItem, hdiagnosed, Expansion.emission?] at h
          · simp [expandItem, hmalformed, Expansion.emission?] at h

/-- Whatever is generated was planned and emitted for an enum. -/
theorem exists_emit_of_expand {arguments item : List Lexeme} {m : Emission}
    (h : (expand arguments item).emission? = some m) :
    ∃ e o decls, (Outline.ofItem (.enum e)).generate = .ok (.planned decls) ∧
      emit e o decls = .ok m := by
  obtain ⟨e, o, decls, -, -, hplan, hemit⟩ := exists_read_of_expand h
  exact ⟨e, o, decls, hplan, hemit⟩

/-- **Paths are copied as they are.** A target holds a path whose first name means something else
inside the module exactly if one of the inline functions does. -/
theorem any_captures_of_expand {arguments item : List Lexeme} {m : Emission}
    (h : (expand arguments item).emission? = some m)
    (hplain : ∀ t ∈ inlineFunctions m.item.variants.items, t.isPlain true = true) :
    m.aliases.any (fun a => a.target.anyHead m.captures) =
      (inlineFunctions m.item.variants.items).any (Ty.anyHead m.captures) := by
  obtain ⟨e, o, decls, hplan, hemit⟩ := exists_emit_of_expand h
  obtain ⟨-, rfl⟩ := (generate_ofEnum_eq_planned e decls).mp hplan
  obtain ⟨module, -, hread, -, rfl⟩ := (emit_planned_eq_ok_iff e o m).mp hemit
  have htargets : e.aliasCodes.map AliasCode.target = inlineFunctions e.variants.items :=
    targets_aliasCodes hplain hread
  change e.aliasCodes.any _ = (inlineFunctions e.variants.items).any _
  rw [← htargets, List.any_map]
  rfl

theorem captures_super_path :
    ∃ ls m, lex? "enum E \x7b A(fn(&super::T) -> Simplified), B \x7d" = some ls ∧
      (expand [] ls).emission? = some m ∧
      m.aliases.any (fun a => a.target.anyHead m.captures) = true := by
  have hcomputed : ((lex? "enum E \x7b A(fn(&super::T) -> Simplified), B \x7d").bind
      fun ls => (expand [] ls).emission?).any (fun m =>
        (inlineFunctions m.item.variants.items).all (Ty.isPlain true) &&
          (inlineFunctions m.item.variants.items).any (Ty.anyHead m.captures)) = true := by
    decide +kernel
  obtain ⟨m, hm, hfacts⟩ := (Option.any_eq_true _ _).mp hcomputed
  obtain ⟨ls, hls, hemission⟩ := Option.bind_eq_some_iff.mp hm
  rw [Bool.and_eq_true] at hfacts
  refine ⟨ls, m, hls, hemission, ?_⟩
  rw [any_captures_of_expand hemission (List.all_eq_true.mp hfacts.1)]
  exact hfacts.2

/-- The alias of `fn(Self)` holds a name that means nothing inside the module. -/
theorem self_captured :
    ((lex? "enum E \x7b A(fn(Self)) \x7d").bind fun ls => (expand [] ls).emission?).any
      (fun m => m.aliases.any fun a => a.target.anyHead m.captures) = true := by
  decide +kernel

end EnumTags

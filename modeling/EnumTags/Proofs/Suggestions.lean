import EnumTags.Proofs.Ancestors
import EnumTags.Proofs.EnumReading
import EnumTags.Proofs.Layout

/-!
# Suggestions that can be followed

Some diagnoses suggest what to write instead. The program only shows the text and never looks at it
again, but whoever follows it hands it back: the text is lexed, read and given to the generator once
more. Two of the suggestions are whole enums, for an enum without payloads and for what is no enum
at all. Both are sketches written down, so what becomes of them is known from the sketch.

## Main definitions

* `Sketch.text`: a sketch written down.
* `EnumItem.filled`: the variants of an enum with a payload each.

## Main results

* `Sketch.exists_read_text`: a sketch that was written down is read back.
* `Item.suggestion_usable`: what the generator makes of its own suggestions.
-/

namespace EnumTags

/-! ## Sketches written down -/

/-- The sketched variant as a line of source. -/
def SketchedVariant.line (v : SketchedVariant) : Text :=
  ("    " : Text) ++ v.name.text ++ ['('] ++ v.payload.text ++ ("),\n" : Text)

/-- The sketch as source, with a line for each variant. -/
def Sketch.text (s : Sketch) : Text :=
  ("enum " : Text) ++ s.name.text ++ (" \x7b\n" : Text) ++
    (s.variants.map SketchedVariant.line).flatten ++ ['}']

/-- A line in front of other source, character by character. -/
theorem SketchedVariant.line_append (v : SketchedVariant) (s : Text) :
    v.line ++ s = ' ' :: ' ' :: ' ' :: ' ' :: (v.name.text ++
      '(' :: (v.payload.text ++ ')' :: ',' :: '\n' :: s)) := by
  have hline : v.line = ("    " : Text) ++ v.name.text ++ ['('] ++ v.payload.text ++
      ("),\n" : Text) := rfl
  rw [hline, List.append_assoc, List.append_assoc, List.append_assoc, List.append_assoc]
  rfl

theorem Sketch.text_eq (s : Sketch) :
    s.text = (Ident.plain "enum").text ++ ' ' :: (s.name.text ++ ' ' :: '{' :: '\n' ::
      ((s.variants.map SketchedVariant.line).flatten ++ ['}'])) := by
  have htext : s.text = ("enum " : Text) ++ s.name.text ++ (" \x7b\n" : Text) ++
      (s.variants.map SketchedVariant.line).flatten ++ ['}'] := rfl
  rw [htext, List.append_assoc, List.append_assoc, List.append_assoc]
  rfl

namespace Lexer

variable {s : Text} {ts : Tokens}

theorem Scans.ident (h : Scans s ts) (i : Ident) (hs : endsWord s = true) :
    Scans (i.text ++ s) (.ident i :: ts) :=
  .append i.text_ne_nil (step_ident i hs) h

theorem Scans.opening (h : Scans s ts) (d : Delimiter) (hs : Trivia.startsComment s = false) :
    Scans (d.opener :: s) (.opening d :: ts) :=
  .of_step (step_opening d hs) (Nat.lt_succ_self s.length) h

theorem Scans.closing (h : Scans s ts) (d : Delimiter) :
    Scans (d.closer :: s) (.closing d :: ts) :=
  .of_step (step_closing d s) (Nat.lt_succ_self s.length) h

theorem Scans.lineEnd (h : Scans s ts) : Scans ('\n' :: s) ts := by
  have hblank : Trivia.isSeparator '\n' = true := by decide
  have hstep : step ('\n' :: s) = some ([], s) := by simp only [step, hblank, if_true]
  exact .of_step hstep (Nat.lt_succ_self s.length) h

/-- A comma at the end of a line. -/
theorem Scans.commaLine (h : Scans s ts) : Scans (',' :: '\n' :: s) (.punct ',' false :: ts) :=
  .of_step (step_punct (by decide) (by decide) rfl) (Nat.lt_succ_self _) h.lineEnd

theorem not_startsComment_text (i : Ident) (s : Text) :
    Trivia.startsComment (i.text ++ s) = false := by
  obtain ⟨c, name, htext, hstart⟩ := i.exists_text_eq_cons
  have hslash : c ≠ '/' := by
    rintro rfl
    exact absurd hstart (by decide)
  rw [htext, List.cons_append, Trivia.startsComment.eq_def]
  split
  · rename_i heq
    exact absurd (List.cons.inj heq).1 hslash
  · rename_i heq
    exact absurd (List.cons.inj heq).1 hslash
  · rfl

/-- A line is a variant and a comma. -/
theorem Scans.line (h : Scans s ts) (v : SketchedVariant) :
    Scans (v.line ++ s) (v.tokens ++ (Tokens.op "," ++ ts)) := by
  have htype := (h.commaLine.closing .paren).ident v.payload rfl
  have hname := (htype.opening .paren (not_startsComment_text _ _)).ident v.name rfl
  rw [v.line_append]
  exact hname.blank.blank.blank.blank

/-- All lines, up to the closing bracket. -/
theorem scans_lines (vs : List SketchedVariant) :
    Scans ((vs.map SketchedVariant.line).flatten ++ ['}'])
      (Listed.joined (Tokens.op ",") (vs.map SketchedVariant.tokens) true ++
        [.closing .brace]) := by
  induction vs with
  | nil => exact scans_nil.closing .brace
  | cons v vs ih =>
      rw [List.map_cons, List.flatten_cons, List.append_assoc, Reads.joined_cons fun _ => rfl]
      exact ih.line v

theorem scans_text (s : Sketch) : Scans s.text s.tokens := by
  have hbody := (scans_lines s.variants).lineEnd.opening .brace rfl
  have hname := hbody.blank.ident s.name rfl
  rw [s.text_eq]
  exact hname.blank.ident _ rfl

end Lexer

/-- Tokens without colons can stay as they are. -/
theorem Glued.refl {ts : Tokens} (h : ∀ t ∈ ts, t.isMark ':' = false) : Glued ts ts := by
  induction ts with
  | nil => exact .nil
  | cons t ts ih =>
      refine .cons ?_ ?_ (ih fun u hu => h u (List.mem_cons_of_mem t hu))
      · cases t <;> simp [Token.glues]
      · rintro rfl -
        exact absurd (h _ List.mem_cons_self) (by decide)

/-- A token among separated tokens is one of a separator or of an item. -/
theorem Listed.of_mem_joined {separator : Tokens} {lists : List Tokens} {trailing : Bool}
    {t : Token} (h : t ∈ joined separator lists trailing) :
    t ∈ separator ∨ ∃ ts ∈ lists, t ∈ ts := by
  induction lists with
  | nil => cases h
  | cons ts rest ih =>
      cases rest with
      | nil =>
          rw [joined, List.mem_append] at h
          rcases h with h | h
          · exact .inr ⟨ts, List.mem_cons_self, h⟩
          · cases trailing with
            | true => exact .inl h
            | false => cases h
      | cons us rest =>
          simp only [joined, List.mem_append] at h
          rcases h with (h | h) | h
          · exact .inr ⟨ts, List.mem_cons_self, h⟩
          · exact .inl h
          · obtain h | ⟨vs, hvs, h⟩ := ih h
            · exact .inl h
            · exact .inr ⟨vs, List.mem_cons_of_mem ts hvs, h⟩

namespace Sketch

theorem fine_tokens (s : Sketch) : s.tokens.Fine := by
  have hvariant : ∀ ts ∈ s.variants.map SketchedVariant.tokens, Tokens.Fine ts := by
    intro ts hts
    obtain ⟨v, -, rfl⟩ := List.mem_map.mp hts
    exact (Tokens.Fine.ident v.name).append (.enclose .paren (.ident v.payload))
  have hvariants := Tokens.Fine.joined (Tokens.fine_op (o := ",") (by decide)) hvariant true
  exact (Tokens.fine_word _ _).append
    ((Tokens.Fine.ident s.name).append (.enclose .brace hvariants))

theorem not_isMark_tokens (s : Sketch) : ∀ t ∈ s.tokens, t.isMark ':' = false := by
  intro t ht
  simp only [tokens, Tokens.word, Tokens.enclose, List.mem_append, List.mem_cons,
    List.not_mem_nil, or_false] at ht
  rcases ht with rfl | rfl | rfl | ht | rfl
  · rfl
  · rfl
  · rfl
  · obtain ht | ⟨ts, hts, ht⟩ := Listed.of_mem_joined ht
    · obtain rfl := List.mem_singleton.mp ht
      decide
    · obtain ⟨v, -, rfl⟩ := List.mem_map.mp hts
      simp only [SketchedVariant.tokens, Tokens.enclose, List.mem_append, List.mem_cons,
        List.not_mem_nil, or_false] at ht
      rcases ht with rfl | rfl | rfl | rfl <;> rfl
  · rfl

/-- **A sketch that was written down is read back.** -/
theorem exists_read_text (s : Sketch) :
    ∃ ls e, lex? s.text = some ls ∧ Item.read ls = .ok (.enum e) ∧ s.Describes e := by
  have hbalanced := s.fine_tokens.balanced [] []
  rw [List.append_nil] at hbalanced
  obtain ⟨ls, hls, htokens⟩ := (Lexer.scans_text s).exists_lex? hbalanced
  have hglued : Glued s.tokens (Lexeme.tokens ls) := by
    rw [htokens]
    exact .refl s.not_isMark_tokens
  obtain ⟨e, hread, hdescribes⟩ := s.exists_read hglued
  exact ⟨ls, e, hls, hread, hdescribes⟩

end Sketch

/-! ## Names in an outline -/

/-- The text of a layout that is a name. -/
def Layout.name? : Layout → Option Text
  | .node kind text _ => if kind = .name then some text else none

namespace Outline

/-- The first name among nodes is the first among their layouts. -/
theorem Show.findSome?_name {σ : Type} {t : Outline σ} {levels : Nat} {ids : List Nat}
    {layouts : List Layout} (h : t.Show levels ids layouts) :
    ((ids.filterMap t.node?).findSome? fun n => if n.kind = .name then some n.text else none) =
      layouts.findSome? Layout.name? := by
  induction h with
  | nil => rfl
  | cons hfirst _ ih =>
      cases levels with
      | zero => cases hfirst
      | succ levels =>
          obtain ⟨n, below, hn, -, rfl⟩ := layout?_eq_some_iff.mp hfirst
          rw [List.filterMap_cons_some hn, List.findSome?_cons, List.findSome?_cons, ih]
          rfl

/-- The name of a node is the first name right below it. -/
theorem nameOf?_of_layout? {σ : Type} {t : Outline σ} {levels id : Nat} {kind : NodeKind}
    {text : Text} {layouts : List Layout}
    (h : t.layout? (levels + 1) id = some (.node kind text layouts)) :
    t.nameOf? id = layouts.findSome? Layout.name? := by
  obtain ⟨n, below, hn, hshow, heq⟩ := layout?_eq_some_iff.mp h
  obtain ⟨-, -, rfl⟩ := Layout.node.inj heq
  rw [nameOf?, children_eq_of_node? hn]
  exact hshow.findSome?_name

/-- Neither the items of a module nor anything but a name tells the name of what holds them. -/
theorem findSome?_name_plain (p : Plain) (items : List Plain) :
    ((p.name.map Placed.layout).toList ++ items.map (Plain.layout .nested [])).findSome?
        Layout.name? = p.name.map fun name => name.ident.text := by
  have hitems : (items.map (Plain.layout .nested [])).findSome? Layout.name? = none := by
    simp [Plain.layout, Layout.name?]
  rw [List.findSome?_append, hitems, Option.or_none]
  cases p.name <;> rfl

/-- The outline of an item knows its name. -/
theorem nameOf?_ofItem (item : Item) :
    (ofItem item).nameOf? root = item.plain.name.map fun name => name.ident.text := by
  have hlayout := layout?_ofItem item
  cases item with
  | enum e => exact nameOf?_ofEnum e
  | product p =>
      rw [nameOf?_of_layout? (hlayout nofun)]
      exact findSome?_name_plain p []
  | module p items =>
      rw [nameOf?_of_layout? (hlayout nofun)]
      exact findSome?_name_plain p items
  | other p =>
      rw [nameOf?_of_layout? (hlayout nofun)]
      exact findSome?_name_plain p []

theorem exists_hasRoot_ofItem (item : Item) :
    ∃ kind, (ofItem item).HasRoot kind item.plain.span := by
  cases item with
  | enum e => exact ⟨.sum, _, node?_root_ofEnum e, rfl, rfl⟩
  | product p => exact ⟨_, hasRoot_ofPlain .product p⟩
  | module p items => exact ⟨_, (hasRoot_ofPlain .other p).foldl_pushNested items⟩
  | other p => exact ⟨_, hasRoot_ofPlain .other p⟩

/-- The outermost declaration around an item is the item. -/
theorem declarationName_ofItem (item : Item) :
    (ofItem item).declarationName root =
      (item.plain.name.map fun name => name.ident.text).getD ("MyEnum" : Text) := by
  obtain ⟨kind, n, hn, hkind, -⟩ := exists_hasRoot_ofItem item
  have hroot := (built_ofItem item).linked.root_parent
  have hup : (ofItem item).parents root (fun n _ => isDeclaration n.kind) = .ok [root] := by
    rw [parents, maxDepth, searchUp_of_parent?_eq_none hn hroot, hkind]
    rfl
  have htop : (ofItem item).topmostParent? root (fun n _ => isDeclaration n.kind) =
      .ok (some root) := by
    rw [topmostParent?, hup]
    rfl
  rw [declarationName, htop, found?, Option.bind_some, nameOf?_ofItem]

/-- The variants of an enum that have a name are all of them. -/
theorem variantNames_ofEnum (e : EnumItem) :
    (ofEnum e).variantNames root = e.variants.items.map fun v => v.name.ident.text := by
  have hkind : (fun id => (ofEnum e).kind? id == some .variant) =
      fun id => ((ofEnum e).node? id).any fun n => n.kind == .variant := by
    funext id
    rw [kind?]
    cases (ofEnum e).node? id <;> rfl
  have hname : ∀ p ∈ variantsFrom 2 e.variants.items,
      (ofEnum e).nameOf? p.1 = some p.2.name.ident.text :=
    fun p hp => (hasVariant_ofEnum e p hp).nameOf?
  rw [variantNames, hkind, variants_ofEnum, List.filterMap_map]
  conv_rhs => rw [← map_snd_variantsFrom 2 e.variants.items, List.map_map]
  rw [← List.filterMap_eq_map]
  exact List.filterMap_congr hname

end Outline

/-! ## Suggestions as sketches -/

theorem isSpelling_placeholder (index : Nat) : isSpelling false (placeholder index) = true := by
  rw [placeholder]
  split <;> decide

/-- A placeholder as an identifier. -/
def placeholderIdent (index : Nat) : Ident :=
  .plain (placeholder index) (isSpelling_placeholder index)

theorem isName_placeholderIdent (index : Nat) : (placeholderIdent index).isName = true := by
  rw [placeholderIdent, Ident.isName, Ident.plain]
  simp only [placeholder]
  split <;> decide

/-- The variants of an enum in order, each with the next placeholder as its payload. -/
def EnumItem.filled (e : EnumItem) : List SketchedVariant :=
  e.variants.items.zipIdx.map fun p =>
    ⟨p.1.name.ident, p.1.named, placeholderIdent p.2, isName_placeholderIdent p.2⟩

/-- The variants suggested for what is no enum. -/
def recastVariants : List SketchedVariant :=
  [⟨.plain "First", by decide, placeholderIdent 0, isName_placeholderIdent 0⟩,
   ⟨.plain "Second", by decide, placeholderIdent 1, isName_placeholderIdent 1⟩]

/-- Filling in payloads keeps the names. -/
theorem EnumItem.map_name_filled (e : EnumItem) :
    (e.filled.map fun v => v.name.text) = e.variants.items.map fun v => v.name.ident.text := by
  conv_rhs => rw [← List.zipIdx_map_fst 0 e.variants.items, List.map_map]
  rw [filled, List.map_map]
  rfl

namespace Outline

theorem replacement_fillIn (e : EnumItem) :
    ((ofItem (.enum e)).fillIn root).replacement =
      (⟨e.name.ident, e.named, e.filled⟩ : Sketch).text := by
  have htext : ((ofItem (.enum e)).fillIn root).replacement =
      ("enum " : Text) ++ (ofItem (.enum e)).declarationName root ++ (" \x7b\n" : Text) ++
        (((ofEnum e).variantNames root).zipIdx.map fun p =>
          ("    " : Text) ++ p.1 ++ ['('] ++ placeholder p.2 ++ ("),\n" : Text)).flatten ++
        ['}'] := rfl
  have hlines : (((ofEnum e).variantNames root).zipIdx.map fun p =>
      ("    " : Text) ++ p.1 ++ ['('] ++ placeholder p.2 ++ ("),\n" : Text)) =
        e.filled.map SketchedVariant.line := by
    rw [variantNames_ofEnum, List.zipIdx_map, List.map_map, EnumItem.filled, List.map_map]
    rfl
  rw [htext, declarationName_ofItem, hlines]
  rfl

theorem replacement_recast (item : Item) {i : Ident} (hi : i.isName = true)
    (h : (item.plain.name.map fun name => name.ident.text).getD ("MyEnum" : Text) = i.text) :
    ((ofItem item).recast root).replacement = (⟨i, hi, recastVariants⟩ : Sketch).text := by
  have htext : ((ofItem item).recast root).replacement =
      ("enum " : Text) ++ (ofItem item).declarationName root ++ (" \x7b\n    First(" : Text) ++
        placeholder 0 ++ ("),\n    Second(" : Text) ++ placeholder 1 ++ ("),\n\x7d" : Text) := rfl
  have hlines : (" \x7b\n    First(" : Text) ++ (placeholder 0 ++ (("),\n    Second(" : Text) ++
      (placeholder 1 ++ ("),\n\x7d" : Text)))) =
        ' ' :: '{' :: '\n' ::
          ((recastVariants.map SketchedVariant.line).flatten ++ ['}']) := by
    decide +kernel
  rw [htext, declarationName_ofItem, h, Sketch.text_eq]
  simp only [List.append_assoc, hlines]
  rfl

end Outline

/-! ## What is generated from a sketch -/

namespace SketchedVariant

/-- The variant without its payload, which is noted. -/
def tag (s : SketchedVariant) : TagVariant := ⟨s.name.text, s.ty.tokens.compact⟩

/-- The arm of the projection that belongs to the variant. -/
def arm (s : SketchedVariant) : Arm := ⟨s.name.text, .tuple, s.name.text, s.ty.tokens.compact⟩

namespace Describes

variable {s : SketchedVariant} {v : Variant}

theorem length_items (h : s.Describes v) : v.fields.items.length = 1 := by
  obtain ⟨f, span, hfields, -⟩ := h.fields
  rw [hfields]
  rfl

/-- A sketched payload is no inline function, so it is noted as it is written. -/
theorem signature_eq (h : s.Describes v) (aliases : List Alias) :
    v.fields.signature aliases = .named s.ty.tokens.compact := by
  obtain ⟨f, span, hfields, -, -, -, hty⟩ := h.fields
  have hclassify : f.ty.classify = .named s.ty.tokens.compact := congrArg Ty.classify hty
  rw [hfields]
  simp only [Fields.signature, Fields.items, hclassify, Signature.ofType]

theorem register_eq (h : s.Describes v) (aliases : List Alias) :
    v.fields.register aliases = aliases := by
  obtain ⟨f, span, hfields, -, -, -, hty⟩ := h.fields
  rw [hfields, Fields.register, Fields.items, List.map_singleton, hty]
  rfl

theorem tag_eq (h : s.Describes v) (aliases : List Alias) :
    v.tag (v.fields.signature aliases) = s.tag := by
  rw [h.signature_eq, Variant.tag, h.name]
  rfl

theorem arm_eq (h : s.Describes v) (aliases : List Alias) :
    v.arm (v.fields.signature aliases) = s.arm := by
  obtain ⟨f, span, hfields, -⟩ := h.fields
  rw [h.signature_eq, Variant.arm, h.name, hfields]
  rfl

end Describes

/-- Sketched variants need no aliases, and each gives its tag and its arm. -/
theorem signedFrom_of_describes {ss : List SketchedVariant} {vs : List Variant}
    (h : List.Forall₂ Describes ss vs) (aliases : List Alias) :
    Outline.registeredFrom aliases vs = aliases ∧
      ((signedFrom aliases vs).map fun p => p.1.tag p.2) = ss.map tag ∧
      ((signedFrom aliases vs).map fun p => p.1.arm p.2) = ss.map arm := by
  induction h with
  | nil => exact ⟨rfl, rfl, rfl⟩
  | cons hfirst _ ih =>
      obtain ⟨hregistered, htags, harms⟩ := ih
      refine ⟨?_, ?_, ?_⟩
      · rw [Outline.registeredFrom, List.foldl_cons, hfirst.register_eq]
        exact hregistered
      · rw [signedFrom, hfirst.register_eq, List.map_cons, List.map_cons, htags, hfirst.tag_eq]
      · rw [signedFrom, hfirst.register_eq, List.map_cons, List.map_cons, harms, hfirst.arm_eq]

end SketchedVariant

namespace Sketch.Describes

variable {s : Sketch} {e : EnumItem}

theorem map_name (h : s.Describes e) :
    (e.variants.items.map fun v => v.name.ident.text) = s.variants.map fun v => v.name.text := by
  obtain ⟨-, -, -, -, hvariants⟩ := h
  generalize s.variants = ss at hvariants
  generalize e.variants.items = vs at hvariants
  induction hvariants with
  | nil => rfl
  | cons hfirst _ ih => rw [List.map_cons, List.map_cons, ih, hfirst.name]

/-- Every variant has one field. -/
theorem length_fields (h : s.Describes e) : ∀ v ∈ e.variants.items, v.fields.items.length = 1 := by
  obtain ⟨-, -, -, -, hvariants⟩ := h
  generalize s.variants = ss at hvariants
  generalize e.variants.items = vs at hvariants
  induction hvariants with
  | nil => exact nofun
  | cons hfirst _ ih => exact List.forall_mem_cons.mpr ⟨hfirst.length_items, ih⟩

/-- What is planned for a sketched enum. -/
theorem planned_eq (h : s.Describes e) :
    e.planned =
      [.tags ⟨simplifiedName, s.variants.map SketchedVariant.tag⟩,
       .projection ⟨projectionName, simplifiedName, s.variants.map SketchedVariant.arm⟩] := by
  obtain ⟨hregistered, htags, harms⟩ := SketchedVariant.signedFrom_of_describes h.variants []
  have hplanned : e.planned = (Outline.registeredFrom [] e.variants.items).map .alias ++
      [.tags ⟨simplifiedName, (signedFrom [] e.variants.items).map fun p => p.1.tag p.2⟩,
       .projection ⟨projectionName, simplifiedName,
        (signedFrom [] e.variants.items).map fun p => p.1.arm p.2⟩] := rfl
  rw [hplanned, hregistered, htags, harms]
  rfl

/-- A sketched enum can be simplified if it has variants, of which no two have the same name and
none that of the enum to be made. -/
theorem simplifiable_iff (h : s.Describes e) :
    e.Simplifiable ↔ (∀ v ∈ s.variants, v.name.text ≠ simplifiedName) ∧ s.variants ≠ [] ∧
      (s.variants.map fun v => v.name.text).Nodup := by
  have htaken : (∀ v ∈ e.variants.items, v.name.ident.text ≠ simplifiedName) ↔
      ∀ v ∈ s.variants, v.name.text ≠ simplifiedName := by
    rw [← List.forall_mem_map (P := (· ≠ simplifiedName)), h.map_name, List.forall_mem_map]
  have hempty : e.variants.items = [] ↔ s.variants = [] := by
    rw [← List.map_eq_nil_iff, h.map_name, List.map_eq_nil_iff]
  rw [← htaken, ← h.map_name, ne_eq, ← hempty]
  constructor
  · rintro ⟨huntaken, -, ⟨v, hv, -⟩, hdistinct⟩
    exact ⟨huntaken, List.ne_nil_of_mem hv, hdistinct⟩
  · rintro ⟨huntaken, hne, hdistinct⟩
    obtain ⟨v, hv⟩ := List.exists_mem_of_ne_nil _ hne
    have hfields := h.length_fields
    exact ⟨huntaken, fun w hw => (hfields w hw).le, ⟨v, hv, hfields v hv⟩, hdistinct⟩

end Sketch.Describes

theorem Fault.explains_notAnEnum_iff {e : Rejection} :
    notAnEnum.explains e = true ↔ e = .notASum Outline.root := by
  cases e <;> simp [explains]

theorem Fault.explains_noField_iff {e : Rejection} :
    noField.explains e = true ↔ e = .noPayload Outline.root := by
  cases e <;> simp [explains]

theorem Fault.eq_noField {fault : Option Fault}
    (h : fault.any (·.explains (.noPayload Outline.root)) = true) : fault = some .noField := by
  cases fault with
  | none => cases h
  | some fault =>
      cases fault with
      | noField => rfl
      | _ => cases h

namespace Outline

theorem exists_planned_iff (e : EnumItem) :
    (∃ decls, (ofItem (.enum e)).generate = .ok (.planned decls)) ↔ e.Simplifiable := by
  constructor
  · rintro ⟨decls, h⟩
    exact ((generate_ofEnum_eq_planned e decls).mp h).1
  · intro h
    exact ⟨_, (generate_ofEnum_eq_planned e _).mpr ⟨h, rfl⟩⟩

/-- A diagnosis is made from its cause. -/
theorem eq_diagnose {t : Outline Span} {ds : List (Diagnosis Span)} {d : Diagnosis Span}
    (h : t.generate = .ok (.diagnosed ds)) (hd : d ∈ ds) : d = t.diagnose d.cause := by
  rw [generate] at h
  cases hplan : t.declaration.bind Declaration.plan with
  | ok decls =>
      rw [hplan] at h
      cases h
  | error e =>
      rw [hplan] at h
      cases e with
      | tooDeep => cases h
      | _ =>
        cases h
        obtain rfl := List.mem_singleton.mp hd
        rfl

/-- An enum that lacks payloads has no variant with the name of the enum to be made. -/
theorem untaken_of_noPayload {e : EnumItem} {ds : List (Diagnosis Span)} {d : Diagnosis Span}
    {decl : Nat} (h : (ofEnum e).generate = .ok (.diagnosed ds)) (hd : d ∈ ds)
    (hcause : d.cause = .noPayload decl) :
    decl = root ∧ ∀ v ∈ e.variants.items, v.name.ident.text ≠ simplifiedName := by
  have hmade := generate_ofEnum e
  cases hfault : e.fault? with
  | none =>
      rw [hfault, h] at hmade
      cases hmade
  | some fault =>
      rw [hfault] at hmade
      obtain ⟨d', hd', hexplains, -⟩ := hmade
      rw [h] at hd'
      cases hd'
      obtain rfl := List.mem_singleton.mp hd
      rw [hcause] at hexplains
      cases fault with
      | noField =>
          refine ⟨beq_iff_eq.mp hexplains, fun v hv => ?_⟩
          rw [EnumItem.fault?] at hfault
          cases htaken : e.variants.items.find? Variant.takesName with
          | some taken =>
              rw [htaken] at hfault
              cases hfault
          | none => simpa [Variant.takesName] using List.find?_eq_none.mp htaken v hv
      | _ => cases hexplains

/-- What is no enum is diagnosed as that. -/
theorem exists_notASum {item : Item} (h : ∀ e, item ≠ .enum e) :
    ∃ d, (ofItem item).generate = .ok (.diagnosed [d]) ∧ d.cause = .notASum root := by
  have hdiagnosed : (ofItem item).Diagnosed .notAnEnum item.plain.span := by
    have hmade := generate_ofItem item
    cases item with
    | enum e => exact absurd rfl (h e)
    | _ => exact hmade
  obtain ⟨d, hmade, hexplains, -⟩ := hdiagnosed
  exact ⟨d, hmade, Fault.explains_notAnEnum_iff.mp hexplains⟩

/-- An enum whose fault is that no variant has a field is diagnosed as that. -/
theorem exists_noPayload {e : EnumItem} (h : e.fault? = some .noField) :
    ∃ d, (ofItem (.enum e)).generate = .ok (.diagnosed [d]) ∧ d.cause = .noPayload root := by
  have hmade := generate_ofEnum e
  rw [h] at hmade
  obtain ⟨d, hmade, hexplains, -⟩ := hmade
  exact ⟨d, hmade, Fault.explains_noField_iff.mp hexplains⟩

end Outline

/-- An enum with its payloads filled in can be simplified if it has variants, of which no two have
the same name. -/
theorem EnumItem.simplifiable_filled_iff {e e' : EnumItem}
    (h : (⟨e.name.ident, e.named, e.filled⟩ : Sketch).Describes e')
    (huntaken : ∀ v ∈ e.variants.items, v.name.ident.text ≠ simplifiedName) :
    e'.Simplifiable ↔
      e.variants.items ≠ [] ∧ (e.variants.items.map fun v => v.name.ident.text).Nodup := by
  have huntaken' : ∀ v ∈ e.filled, v.name.text ≠ simplifiedName := by
    rw [← List.forall_mem_map (P := (· ≠ simplifiedName)), e.map_name_filled, List.forall_mem_map]
    exact huntaken
  have hempty : e.filled = [] ↔ e.variants.items = [] := by
    rw [← List.map_eq_nil_iff, e.map_name_filled, List.map_eq_nil_iff]
  rw [h.simplifiable_iff, e.map_name_filled]
  exact (and_iff_right huntaken').trans (and_congr_left' hempty.not)

/-- The name that is suggested for an item can be that of an enum. -/
theorem Item.exists_suggestedName {item : Item}
    (h : ∀ name, item.plain.name = some name → name.ident.isName = true) :
    ∃ i : Ident, i.isName = true ∧
      (item.plain.name.map fun name => name.ident.text).getD ("MyEnum" : Text) = i.text := by
  cases hplain : item.plain.name with
  | none => exact ⟨.plain "MyEnum", by decide, rfl⟩
  | some name => exact ⟨name.ident, h name hplain, rfl⟩

/-- **Suggestions can be followed.** If an enum is diagnosed as lacking payloads, the suggestion is
read as an enum of the same name and with the same variants in order, each with a placeholder as its
payload, and declarations are made for it exactly if there are variants and no two of them have the
same name. Any other item that has a proper name or none is diagnosed with a suggestion that is read
as an enum of that name, and declarations are made for its two variants. -/
theorem Item.suggestion_usable :
    (∀ e ds d decl, (Outline.ofItem (.enum e)).generate = .ok (.diagnosed ds) → d ∈ ds →
      d.cause = .noPayload decl →
      ∃ s ls e', d.suggestion = some s ∧ lex? s.replacement = some ls ∧
        Item.read ls = .ok (.enum e') ∧ e'.name.ident = e.name.ident ∧
        List.Forall₂ SketchedVariant.Describes e.filled e'.variants.items ∧
        ((∃ decls, (Outline.ofItem (.enum e')).generate = .ok (.planned decls)) ↔
          e.variants.items ≠ [] ∧ (e.variants.items.map fun v => v.name.ident.text).Nodup)) ∧
    ∀ item : Item, (∀ e, item ≠ .enum e) →
      (∀ name, item.plain.name = some name → name.ident.isName = true) →
      ∃ d s ls e', (Outline.ofItem item).generate = .ok (.diagnosed [d]) ∧
        d.cause = .notASum Outline.root ∧ d.suggestion = some s ∧
        lex? s.replacement = some ls ∧ Item.read ls = .ok (.enum e') ∧
        e'.name.ident.text =
          (item.plain.name.map fun name => name.ident.text).getD ("MyEnum" : Text) ∧
        List.Forall₂ SketchedVariant.Describes recastVariants e'.variants.items ∧
        (Outline.ofItem (.enum e')).generate = .ok (.planned
          [.tags ⟨simplifiedName, [⟨"First", "i32"⟩, ⟨"Second", "String"⟩]⟩,
           .projection ⟨projectionName, simplifiedName,
            [⟨"First", .tuple, "First", "i32"⟩, ⟨"Second", .tuple, "Second", "String"⟩]⟩]) := by
  refine ⟨fun e ds d decl hmade hd hcause => ?_, fun item hitem hname => ?_⟩
  · obtain ⟨rfl, huntaken⟩ := Outline.untaken_of_noPayload hmade hd hcause
    have hdiagnose := Outline.eq_diagnose hmade hd
    rw [hcause] at hdiagnose
    let sketch : Sketch := ⟨e.name.ident, e.named, e.filled⟩
    obtain ⟨ls, e', hls, hread, hdescribes⟩ := sketch.exists_read_text
    have htext : lex? ((Outline.ofItem (.enum e)).fillIn Outline.root).replacement = some ls := by
      rw [Outline.replacement_fillIn]
      exact hls
    refine ⟨_, ls, e', congrArg Diagnosis.suggestion hdiagnose, htext, hread, hdescribes.name,
      hdescribes.variants, ?_⟩
    rw [Outline.exists_planned_iff]
    exact EnumItem.simplifiable_filled_iff hdescribes huntaken
  · obtain ⟨d, hmade, hcause⟩ := Outline.exists_notASum hitem
    have hdiagnose := Outline.eq_diagnose hmade List.mem_cons_self
    rw [hcause] at hdiagnose
    obtain ⟨i, hi, hsuggested⟩ := Item.exists_suggestedName hname
    let sketch : Sketch := ⟨i, hi, recastVariants⟩
    obtain ⟨ls, e', hls, hread, hdescribes⟩ := sketch.exists_read_text
    have htext : lex? ((Outline.ofItem item).recast Outline.root).replacement = some ls := by
      rw [Outline.replacement_recast item hi hsuggested]
      exact hls
    have hrecast : (∀ v ∈ recastVariants, v.name.text ≠ simplifiedName) ∧ recastVariants ≠ [] ∧
        (recastVariants.map fun v => v.name.text).Nodup := by decide
    have hplanned := (generate_ofEnum_eq_planned e' _).mpr
      ⟨hdescribes.simplifiable_iff.mpr hrecast, rfl⟩
    rw [hdescribes.planned_eq] at hplanned
    refine ⟨d, _, ls, e', hmade, hcause, congrArg Diagnosis.suggestion hdiagnose, htext, hread, ?_,
      hdescribes.variants, hplanned⟩
    rw [hsuggested, hdescribes.name]

/-- An enum with brackets in it, but without payloads. -/
def hollow : List Lexeme :=
  (lex? "enum r#type \x7b A, r#fn(), C \x7b \x7d, D, E \x7d").getD []

/-- Declarations are made for what is suggested in its place, and in place of a structure. -/
theorem Item.suggestion_usable_hollow :
    (∃ e d s ls e' decls, EnumItem.read? hollow = some e ∧
      (Outline.ofItem (.enum e)).generate = .ok (.diagnosed [d]) ∧ d.suggestion = some s ∧
      lex? s.replacement = some ls ∧ Item.read ls = .ok (.enum e') ∧
      (Outline.ofItem (.enum e')).generate = .ok (.planned decls)) ∧
    ∃ d s ls e' decls,
      (Outline.ofItem (.product ⟨some ⟨.plain "Lamp", default⟩, [], default⟩)).generate =
        .ok (.diagnosed [d]) ∧ d.suggestion = some s ∧
      lex? s.replacement = some ls ∧ Item.read ls = .ok (.enum e') ∧
      e'.name.ident.text = ("Lamp" : Text) ∧
      (Outline.ofItem (.enum e')).generate = .ok (.planned decls) := by
  constructor
  · have hhollow : (EnumItem.read? hollow).any (fun e =>
        e.fault?.any (·.explains (.noPayload Outline.root)) && !e.variants.items.isEmpty &&
          decide (e.variants.items.map fun v => v.name.ident.text).Nodup) = true := by
      decide +kernel
    cases hread : EnumItem.read? hollow with
    | none =>
        rw [hread] at hhollow
        cases hhollow
    | some e =>
        simp only [hread, Option.any_some, Bool.and_eq_true, Bool.not_eq_true',
          decide_eq_true_eq, List.isEmpty_eq_false_iff] at hhollow
        obtain ⟨⟨hbare, hne⟩, hdistinct⟩ := hhollow
        obtain ⟨d, hmade, hcause⟩ := Outline.exists_noPayload (Fault.eq_noField hbare)
        obtain ⟨s, ls, e', hs, hls, hread', -, -, hplanned⟩ :=
          Item.suggestion_usable.1 e [d] d _ hmade List.mem_cons_self hcause
        obtain ⟨decls, hdecls⟩ := hplanned.mpr ⟨hne, hdistinct⟩
        exact ⟨e, d, s, ls, e', decls, rfl, hmade, hs, hls, hread', hdecls⟩
  · have hlamp := Item.suggestion_usable.2 (.product ⟨some ⟨.plain "Lamp", default⟩, [], default⟩)
      nofun (by rintro name ⟨⟩; decide)
    obtain ⟨d, s, ls, e', hmade, -, hs, hls, hread, hname, -, hplanned⟩ := hlamp
    exact ⟨d, s, ls, e', _, hmade, hs, hls, hread, hname, hplanned⟩

end EnumTags

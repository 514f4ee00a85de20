import EnumTags.Proofs.AliasTargets
import EnumTags.Proofs.Mirror
import EnumTags.Proofs.NoteColumns
import EnumTags.Proofs.Suggestions

/-!
# Two writings of one plan

The planned enum and projection are written twice: as source for people, character by character,
and as tokens for the compiler. The two writers share nothing but the plan. Here the first one is
read back with the lexer: what stands in a line before its note is source for the very tokens that
the second one writes for the same variant, and the note is the text that is put into the
documentation and reported as the payload. The compiler alone is told the module of the enum without
payloads, since for people that enum stands beside the projection.

## Main definitions

* `Annotated`: a text that holds tokens and notes, line by line.
* `EnumItem.WrittenAlike`: what the two writings of the plan for an enum have in common.

## Main results

* `writtenAlike_of_expand`: the two writings agree, whatever is generated.
-/

namespace EnumTags

open Tokens

/-! ## Reading what is shown -/

/-- The text is made of lines with notes. What stands in each line before the mark is source for
some tokens; no slash comes before that of the mark, and no line break. A note reaches up to the line
break that ends its line, and may hold other ones. -/
inductive Annotated : Text → List (Tokens × Text) → Prop
  | nil : Annotated [] []
  | cons {front note rest : Text} {ts : Tokens} {entries : List (Tokens × Text)} :
      IsSource front ts → '/' ∉ front → '\n' ∉ front → Annotated rest entries →
      Annotated (front ++ ((" // " : Text) ++ note ++ ['\n']) ++ rest) ((ts, note) :: entries)

namespace Lexer

variable {s : Text} {ts : Tokens}

theorem Scans.blanks (h : Scans s ts) (n : Nat) : Scans (List.replicate n ' ' ++ s) ts := by
  induction n with
  | zero => exact h
  | succ n ih => exact ih.blank

theorem not_startsComment_cons {c : Char} (h : c ≠ '/') (s : Text) :
    Trivia.startsComment (c :: s) = false := by
  rw [Trivia.startsComment.eq_def]
  split <;> simp_all

/-- Whether the text is punctuation in which no lifetime and no comment can begin. -/
def isOperator (o : Text) : Bool := o.all fun c => isPunct c && c != '\'' && c != '/'

theorem isOperator_cons {c : Char} {o : Text} (h : isOperator (c :: o) = true) :
    (isPunct c = true ∧ c ≠ '\'' ∧ c ≠ '/') ∧ isOperator o = true := by
  simpa [isOperator, and_assoc] using h

/-- The characters of an operator are joint, except for the last one. -/
theorem Scans.op {o : Text} (ho : isOperator o = true) (hs : startsPunct s = false)
    (h : Scans s ts) : Scans (o ++ s) (Tokens.op o ++ ts) := by
  induction o with
  | nil => exact h
  | cons c o ih =>
      obtain ⟨⟨hc, hquote, hslash⟩, ho⟩ := isOperator_cons ho
      have hstep := step_punct hc hquote (not_startsComment_cons hslash (o ++ s))
      have hscans := Scans.of_step hstep (Nat.lt_succ_self _) (ih ho)
      cases o with
      | nil =>
          rw [List.nil_append, hs] at hscans
          exact hscans
      | cons d o =>
          obtain ⟨⟨hd, -, hslash⟩, -⟩ := isOperator_cons ho
          have hjoint : startsPunct (d :: o ++ s) = true := by
            simp [startsPunct, hd, not_startsComment_cons hslash]
          rw [hjoint] at hscans
          exact hscans

/-- A comma with nothing but blanks behind it. -/
theorem scans_comma (n : Nat) : Scans ([','] ++ List.replicate n ' ') (Tokens.op ",") := by
  have hblanks : startsPunct (List.replicate n ' ') = false := by cases n <;> rfl
  have hnil := scans_nil.blanks n
  rw [List.append_nil] at hnil
  exact hnil.op (by decide) hblanks

theorem startsPunct_text (i : Ident) (s : Text) : startsPunct (i.text ++ s) = false := by
  obtain ⟨c, name, htext, hstart⟩ := i.exists_text_eq_cons
  have hpunct : isPunct c = false := by
    by_contra hc
    have hnot := of_all_punctChars (!Text.isWordStart ·) (by decide) ((Bool.not_eq_false _).mp hc)
    simp [hstart] at hnot
  simp [startsPunct, htext, hpunct]

end Lexer

/-! ## Lines of code -/

/-- The code of a line is source for the tokens, whatever blanks are around it. -/
structure NotedLine.Carries (l : NotedLine) (ts : Tokens) : Prop where
  scans : ∀ n, Lexer.Scans (l.code ++ List.replicate n ' ') ts
  balanced : Lexer.balanced [] ts = true
  slash_not_mem : '/' ∉ l.code
  lineBreak_not_mem : '\n' ∉ l.code

theorem NotedLine.Carries.isSource_front {l : NotedLine} {ts : Tokens} (h : l.Carries ts)
    (n column : Nat) : IsSource (l.front (List.replicate n ' ') column) ts := by
  have hscans := (h.scans (column - l.code.length)).blanks n
  rw [← List.append_assoc] at hscans
  exact hscans.exists_lex? h.balanced

/-- Lines that are written below each other are read one after the other. -/
theorem annotated_flatten {α : Type} {xs : List α} {line : α → NotedLine} {entry : α → Tokens × Text}
    (h : ∀ x ∈ xs, (line x).Carries (entry x).1 ∧ Text.trim (line x).note = (entry x).2)
    (n column : Nat) :
    Annotated ((xs.map line).map (NotedLine.write (List.replicate n ' ') column)).flatten
      (xs.map entry) := by
  induction xs with
  | nil => exact .nil
  | cons x xs ih =>
      obtain ⟨⟨hcarries, hnote⟩, hrest⟩ := List.forall_mem_cons.mp h
      have hslash : '/' ∉ (line x).front (List.replicate n ' ') column := by
        simp [NotedLine.front, hcarries.slash_not_mem]
      have hbreak : '\n' ∉ (line x).front (List.replicate n ' ') column :=
        NotedLine.lineBreak_not_mem_front (by simp) hcarries.lineBreak_not_mem
      rw [List.map_cons, List.map_cons, List.flatten_cons, List.map_cons, NotedLine.write_eq,
        NotedLine.back_eq, hnote]
      exact .cons (hcarries.isSource_front n column) hslash hbreak (ih hrest)

theorem Ident.not_mem_text {i : Ident} {c : Char} (hc : Text.isWordChar c = false)
    (hhash : c ≠ '#') : c ∉ i.text := by
  obtain ⟨raw, name, spelled⟩ := i
  have hword : Text.isWord name = true := (Bool.and_eq_true_iff.mp spelled).1
  have hname : c ∉ name := by
    intro hmem
    rw [Text.isWordChar_of_mem_isWord hword hmem] at hc
    cases hc
  have hraw : c ≠ 'r' := by
    rintro rfl
    exact absurd hc (by decide)
  cases raw <;> simp [text, hname, hraw, hhash]

namespace Variant

/-- A variant of the enum without payloads. -/
def entry (v : Variant) : Tokens := ofIdent v.name.ident ++ op ","

/-- The arm of a variant up to its right side. -/
def armHead (v : Variant) : Tokens := v.pattern ++ op "=>"

/-- The right side of an arm, seen from inside the module. -/
def armTarget (v : Variant) : Tokens :=
  ofIdent simplifiedIdent ++ op "::" ++ ofIdent v.name.ident ++ op ","

theorem carries_line_tag (v : Variant) (s : Signature) : (v.tag s).line.Carries v.entry where
  scans n := by
    have hname := (Lexer.scans_comma n).ident v.name.ident rfl
    rw [← List.append_assoc] at hname
    exact hname
  balanced := rfl
  slash_not_mem := by
    have hname : '/' ∉ v.name.ident.text := Ident.not_mem_text (by decide) (by decide)
    exact TagVariant.not_mem_line (by decide) hname
  lineBreak_not_mem := by
    have hname : '\n' ∉ v.name.ident.text := Ident.not_mem_text (by decide) (by decide)
    exact TagVariant.not_mem_line (by decide) hname

/-- The pattern of an arm, before a blank. -/
theorem scans_pattern (v : Variant) (s : Signature) {rest : Text} {ts : Tokens}
    (h : Lexer.Scans (' ' :: rest) ts) :
    Lexer.Scans ((v.arm s).pattern ++ ' ' :: rest) (v.pattern ++ ts) := by
  have hself : code "Self ::" = ofIdent (.plain "Self") ++ op "::" := by decide
  -- `Self::` and the name stand before whatever does not go on with the name
  have hhead : ∀ {behind : Text} {us : Tokens}, Lexer.endsWord behind = true →
      Lexer.Scans behind us → Lexer.Scans (("Self::" : Text) ++ (v.name.ident.text ++ behind))
        (code "Self ::" ++ (ofIdent v.name.ident ++ us)) := by
    intro behind us hends hbehind
    have hname := hbehind.ident v.name.ident hends
    have hcolons := hname.op (o := "::") (by decide) (Lexer.startsPunct_text _ _)
    rw [hself]
    exact hcolons.ident (.plain "Self") rfl
  have hdots : Lexer.isOperator ".." = true := by decide
  have htext : (v.arm s).pattern = ("Self::" : Text) ++ v.name.ident.text ++ v.fields.shape.dots :=
    (v.arm s).pattern_eq
  cases hfields : v.fields with
  | unit =>
      have hscans := hhead rfl h
      simpa [htext, pattern, hfields, Fields.shape] using hscans
  | tuple fields span =>
      have hdotted := (h.closing .paren).op hdots rfl
      have hscans := hhead rfl (hdotted.opening .paren rfl)
      simpa [htext, pattern, hfields, Fields.shape, enclose, Delimiter.opener,
        Delimiter.closer] using hscans
  | record fields span =>
      have hdotted := (h.closing .brace).blank.op hdots rfl
      have hscans := hhead rfl (hdotted.blank.opening .brace rfl).blank
      simpa [htext, pattern, hfields, Fields.shape, enclose, Delimiter.opener,
        Delimiter.closer] using hscans

theorem carries_line_arm (v : Variant) (s : Signature) :
    ((v.arm s).line simplifiedName).Carries (v.armHead ++ v.armTarget) where
  scans n := by
    have hname := (Lexer.scans_comma n).ident v.name.ident rfl
    have htarget := hname.op (o := "::") (by decide) (Lexer.startsPunct_text _ _)
    have hright := (htarget.ident simplifiedIdent rfl).blank
    have harrow := (hright.op (o := "=>") (by decide) rfl).blank
    have hline := v.scans_pattern s harrow
    simpa [Arm.code_line, arm, armHead, armTarget, simplifiedIdent, Ident.text, Ident.plain, ofIdent]
      using hline
  balanced := by
    cases hfields : v.fields <;> simp only [armHead, armTarget, pattern, hfields] <;> rfl
  slash_not_mem := by
    have hname : '/' ∉ v.name.ident.text := Ident.not_mem_text (by decide) (by decide)
    exact Arm.not_mem_line (by decide) (by decide) hname hname
  lineBreak_not_mem := by
    have hname : '\n' ∉ v.name.ident.text := Ident.not_mem_text (by decide) (by decide)
    exact Arm.not_mem_line (by decide) (by decide) hname hname

end Variant

/-! ## Both writings -/

/-- The variants of an enum with their notes. -/
def EnumItem.noted (e : EnumItem) : List (Variant × Text) :=
  e.variants.items.zip (payloadNotes e.variants.items)

/-- What the two writings of the plan for an enum have in common. In both, the variants and the arms
are those of the enum in its order; the tokens name the module where the source for people does
not, and what is a note there is documentation and a reported payload here. -/
structure EnumItem.WrittenAlike (e : EnumItem) (tags : TagEnum) (projection : Projection)
    (m : Emission) : Prop where
  variants : code "pub enum" ++ ofIdent simplifiedIdent ++ enclose .brace
    (e.noted.flatMap fun (v, note) => doc (' ' :: note) ++ v.entry) <:+: m.tokens
  payloads : code "pub const fn" ++ code "payload" ++ enclose .paren (code "self") ++
    code "-> & 'static str" ++ enclose .brace (code "match self" ++ enclose .brace
      (e.noted.flatMap fun (v, note) => code "Self ::" ++ ofIdent v.name.ident ++ op "=>" ++
        quoted note ++ op ",")) <:+: m.tokens
  arms : code "match self" ++ enclose .brace (e.noted.flatMap fun (v, _) =>
    v.armHead ++ (ofIdent m.module ++ op "::") ++ v.armTarget) <:+: m.tokens
  shownVariants : ∃ lines, (Planned.tags tags).display =
      ("enum Simplified \x7b\n" : Text) ++ lines ++ ("\x7d\n" : Text) ∧
    Annotated lines (e.noted.map fun (v, note) => (v.entry, note))
  shownArms : ∃ lines, (Planned.projection projection).display =
      ("fn simplified(&self) -> Simplified \x7b\n    match self \x7b\n" : Text) ++ lines ++
        ("    \x7d\n\x7d\n" : Text) ∧
    Annotated lines (e.noted.map fun (v, note) => (v.armHead ++ v.armTarget, note))

/-- The enum without payloads, as it is shown. -/
theorem exists_shownVariants (e : EnumItem) :
    ∃ lines, (Planned.tags ⟨simplifiedName,
        (signedFrom [] e.variants.items).map fun (v, s) => v.tag s⟩).display =
      ("enum Simplified \x7b\n" : Text) ++ lines ++ ("\x7d\n" : Text) ∧
    Annotated lines (e.noted.map fun (v, note) => (v.entry, note)) := by
  refine ⟨_, rfl, ?_⟩
  rw [EnumItem.noted, zip_payloadNotes, List.map_map, List.map_map]
  exact annotated_flatten (fun p _ => ⟨p.1.carries_line_tag p.2, rfl⟩) 4 _

/-- The projection, as it is shown. -/
theorem exists_shownArms (e : EnumItem) :
    ∃ lines, (Planned.projection ⟨projectionName, simplifiedName,
        (signedFrom [] e.variants.items).map fun (v, s) => v.arm s⟩).display =
      ("fn simplified(&self) -> Simplified \x7b\n    match self \x7b\n" : Text) ++ lines ++
        ("    \x7d\n\x7d\n" : Text) ∧
    Annotated lines (e.noted.map fun (v, note) => (v.armHead ++ v.armTarget, note)) := by
  refine ⟨_, rfl, ?_⟩
  rw [EnumItem.noted, zip_payloadNotes, List.map_map, List.map_map]
  exact annotated_flatten (fun p _ => ⟨p.1.carries_line_arm p.2, rfl⟩) 8 _

theorem EnumItem.flatMap_noted (e : EnumItem) (f : Variant → Tokens) :
    (e.noted.flatMap fun p => f p.1) = e.variants.items.flatMap f := by
  conv_rhs => rw [← map_fst_zip_payloadNotes e.variants.items]
  rw [List.flatMap_map]
  rfl

/-- **The two writings of a plan agree.** Whatever is generated for an enum, what stands before the
note in each line of the source for people is source for the tokens that are generated for the same
variant, in the same order, but for the module in the arms; and each note is the text in the
documentation of the variant and the payload that it reports. -/
theorem writtenAlike_of_expand {arguments item : List Lexeme} {m : Emission}
    (h : (expand arguments item).emission? = some m) :
    ∃ (aliases : List Alias) (tags : TagEnum) (projection : Projection),
      Item.read item = .ok (.enum m.item) ∧
      (Outline.ofItem (.enum m.item)).generate =
        .ok (.planned (aliases.map .alias ++ [.tags tags, .projection projection])) ∧
      m.item.WrittenAlike tags projection m := by
  obtain ⟨e, o, decls, -, hread, hplan, hemit⟩ := exists_read_of_expand h
  obtain ⟨hsimplifiable, rfl⟩ := (generate_ofEnum_eq_planned e decls).mp hplan
  obtain ⟨module, -, -, -, rfl⟩ := (emit_planned_eq_ok_iff e o m).mp hemit
  have hmirror := mirroredBy_emission e o module hsimplifiable.distinct
  refine ⟨_, _, _, hread, hplan, ?_, hmirror.payloads, ?_, exists_shownVariants e,
    exists_shownArms e⟩
  · have hvariants := hmirror.variants
    simp only [List.append_assoc] at hvariants ⊢
    exact hvariants
  · have hmatch := (infix_enclose .brace _).trans
      ((List.suffix_append _ _).isInfix.trans hmirror.arms)
    have harms := e.flatMap_noted fun v =>
      v.armHead ++ (ofIdent module ++ op "::") ++ v.armTarget
    change _ ++ enclose .brace (e.noted.flatMap fun p =>
      p.1.armHead ++ (ofIdent module ++ op "::") ++ p.1.armTarget) <:+: _
    rw [harms]
    simp only [Variant.armHead, Variant.armTarget, List.append_assoc] at hmatch ⊢
    exact hmatch

/-- An enum with a raw name, an inline function, and all three shapes. -/
def mixedSource : Text := "enum E<T> \x7b r#type(fn(T) -> u8), B \x7b x: [u8; 2] \x7d, C \x7d"

/-- What is shown for it. -/
def mixedShown : Text :=
  ("type AnonymousFunc_0 = fn(T) -> u8;\n" : Text) ++
    ("enum Simplified \x7b\n" : Text) ++
    ("    r#type, // AnonymousFunc_0\n" : Text) ++
    ("    B,      // [u8; 2]\n" : Text) ++
    ("    C,      // -- has no payload\n" : Text) ++
    ("\x7d\n" : Text) ++
    ("fn simplified(&self) -> Simplified \x7b\n" : Text) ++
    ("    match self \x7b\n" : Text) ++
    ("        Self::r#type(..) => Simplified::r#type, // AnonymousFunc_0\n" : Text) ++
    ("        Self::B \x7b .. \x7d => Simplified::B,        // [u8; 2]\n" : Text) ++
    ("        Self::C => Simplified::C,               // -- has no payload\n" : Text) ++
    ("    \x7d\n\x7d\n" : Text)

theorem writtenAlike_mixedSource :
    ∃ ls m decls, lex? mixedSource = some ls ∧ (expand [] ls).emission? = some m ∧
      m.item.variants.items.length = 3 ∧
      (Outline.ofItem (.enum m.item)).generate = .ok (.planned decls) ∧
      decls.flatMap Planned.display = mixedShown ∧
      ∃ (aliases : List Alias) (tags : TagEnum) (projection : Projection),
        decls = aliases.map .alias ++ [.tags tags, .projection projection] ∧
        m.item.WrittenAlike tags projection m := by
  have hcomputed : ((lex? mixedSource).bind fun ls => (expand [] ls).emission?).any
      (fun m => m.item.variants.items.length == 3 &&
        m.item.planned.flatMap Planned.display == mixedShown) = true := by decide +kernel
  obtain ⟨m, hm, hboth⟩ := (Option.any_eq_true _ _).mp hcomputed
  obtain ⟨ls, hls, hemission⟩ := Option.bind_eq_some_iff.mp hm
  obtain ⟨aliases, tags, projection, -, hplan, halike⟩ := writtenAlike_of_expand hemission
  have hdecls := ((generate_ofEnum_eq_planned m.item _).mp hplan).2
  rw [Bool.and_eq_true, ← hdecls] at hboth
  exact ⟨ls, m, _, hls, hemission, beq_iff_eq.mp hboth.1, hplan, beq_iff_eq.mp hboth.2, aliases,
    tags, projection, rfl, halike⟩

end EnumTags

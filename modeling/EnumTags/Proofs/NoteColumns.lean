import EnumTags.Plan
import EnumTags.Token.Basic

/-!
# Columns of notes

In the source that is shown to people every variant and every arm has a line of its own, with a note
behind a mark. The width of a line is measured in bytes, but lines are filled up with blanks by
characters. Since a character takes at least one byte, no line has more characters than the widest
one has bytes; so all lines can be filled up to that number, and all marks stand in one column.

A note is written as it is. One that holds line breaks goes on over several lines, and the mark of
the next note is not moved by that.

## Main definitions

* `NotedLine.front`, `NotedLine.back`: a line up to its mark, and from its mark on.
* `NotedLine.LinedUp`: a text shows lines with all their marks in one column.

## Main results

* `NotedLine.linedUp_writeAll`: lines without line breaks are written lined up.
* `Planned.display_linedUp`: so are the variants of an enum and the arms of a projection.
-/

namespace EnumTags

/-! ## Characters and bytes -/

namespace Text

@[simp] theorem byteSize_nil : byteSize [] = 0 := rfl

@[simp] theorem byteSize_cons (c : Char) (s : Text) :
    byteSize (c :: s) = c.utf8Size + byteSize s := rfl

/-- No text has more characters than bytes. -/
theorem length_le_byteSize (s : Text) : s.length ≤ byteSize s := by
  induction s with
  | nil => simp
  | cons c s ih =>
      have hpos := c.utf8Size_pos
      rw [List.length_cons, byteSize_cons]
      omega

end Text

/-! ## Places in a text -/

namespace Position

theorem after_append (p : Position) (s t : Text) : p.after (s ++ t) = (p.after s).after t :=
  List.foldl_append

/-- Within a line the column counts the characters. -/
theorem column_after {s : Text} (h : '\n' ∉ s) (p : Position) :
    (p.after s).column = p.column + s.length := by
  induction s generalizing p with
  | nil => rfl
  | cons c s ih =>
      rw [List.mem_cons, not_or] at h
      have hnext : p.next c = ⟨p.line, p.column + 1⟩ := by simp [next, Ne.symm h.1]
      have hafter : p.after (c :: s) = (p.next c).after s := rfl
      rw [hafter, ih h.2, hnext, List.length_cons, Nat.add_right_comm]
      rfl

/-- Behind a line break a line begins. -/
theorem column_after_lineBreak (p : Position) (s : Text) : (p.after (s ++ ['\n'])).column = 0 := by
  rw [after_append]
  rfl

end Position

/-! ## Lines with notes -/

namespace NotedLine

/-- A line up to its mark: the indent, the whole code, and blanks up to the column. -/
def front (indent : Text) (column : Nat) (l : NotedLine) : Text :=
  indent ++ l.code ++ List.replicate (column - l.code.length) ' '

/-- The line from its mark on: the mark, and the note without the blanks at its ends. -/
def back (l : NotedLine) : Text := (" // " : Text) ++ Text.trim l.note ++ ['\n']

theorem back_eq (l : NotedLine) : l.back = (" // " : Text) ++ Text.trim l.note ++ ['\n'] := rfl

theorem write_eq (indent : Text) (column : Nat) (l : NotedLine) :
    write indent column l = l.front indent column ++ l.back := by
  have hwrite : write indent column l = indent ++ (l.code ++
      List.replicate (column - l.code.length) ' ') ++ (" // " : Text) ++ Text.trim l.note ++ ['\n'] :=
    rfl
  simp only [hwrite, front, back_eq, List.append_assoc]

/-- The text shows the lines, one after the other between a head and a foot. Each of them holds its
whole code, and its mark begins in the column behind the indent that the widest code reaches when
its bytes are counted. -/
structure LinedUp (indent : Text) (lines : List NotedLine) (head foot : Text) (column : Nat)
    (s : Text) : Prop where
  shown : s = head ++ (lines.flatMap fun l => l.front indent column ++ l.back) ++ foot
  widest : ∀ l ∈ lines, Text.byteSize l.code ≤ column
  attained : lines ≠ [] → ∃ l ∈ lines, Text.byteSize l.code = column
  /-- No code reaches beyond the column. -/
  fits : ∀ l ∈ lines, l.code.length ≤ column
  /-- A line begins where a line of the text does, and its mark stands in the column. -/
  aligned : ∀ above l below, lines = above ++ l :: below →
    (Position.start.after
      (head ++ above.flatMap fun l => l.front indent column ++ l.back)).column = 0 ∧
    (Position.start.after ((head ++ above.flatMap fun l => l.front indent column ++ l.back) ++
      l.front indent column)).column = indent.length + column

theorem column_eq (lines : List NotedLine) :
    column lines = (lines.map fun l => Text.byteSize l.code).max?.getD 0 := by
  rw [column, List.foldl_max, Nat.zero_max]

theorem byteSize_le_column {lines : List NotedLine} {l : NotedLine} (h : l ∈ lines) :
    Text.byteSize l.code ≤ column lines := by
  have hmem : Text.byteSize l.code ∈ lines.map fun l => Text.byteSize l.code :=
    List.mem_map_of_mem h
  rw [column_eq]
  exact List.le_max?_getD_of_mem hmem

theorem exists_byteSize_eq_column {lines : List NotedLine} (h : lines ≠ []) :
    ∃ l ∈ lines, Text.byteSize l.code = column lines := by
  rw [column_eq]
  cases hmax : (lines.map fun l => Text.byteSize l.code).max? with
  | none => simp [h] at hmax
  | some size => exact List.mem_map.mp (List.max?_mem hmax)

/-- A line whose code fits is filled up to the column. -/
theorem length_front {indent : Text} {column : Nat} {l : NotedLine} (h : l.code.length ≤ column) :
    (l.front indent column).length = indent.length + column := by
  simp only [front, List.length_append, List.length_replicate]
  omega

theorem lineBreak_not_mem_front {indent : Text} {column : Nat} {l : NotedLine}
    (hindent : '\n' ∉ indent) (hcode : '\n' ∉ l.code) : '\n' ∉ l.front indent column := by
  simp [front, hindent, hcode]

/-- Behind a line with its note a new line begins, whatever the note holds. -/
theorem column_after_lines {head : Text} (hhead : ∃ top, head = top ++ ['\n']) (indent : Text)
    (column : Nat) (lines : List NotedLine) (p : Position) :
    (p.after (head ++ lines.flatMap fun l => l.front indent column ++ l.back)).column = 0 := by
  have hbreak : ∃ top, head ++ (lines.flatMap fun l => l.front indent column ++ l.back) =
      top ++ ['\n'] := by
    rcases List.eq_nil_or_concat lines with rfl | ⟨lines, l, rfl⟩
    · simpa using hhead
    · refine ⟨head ++ (lines.flatMap fun l => l.front indent column ++ l.back) ++
        (l.front indent column ++ ((" // " : Text) ++ Text.trim l.note)), ?_⟩
      simp only [List.concat_eq_append, List.flatMap_append, List.flatMap_singleton, back_eq,
        List.append_assoc]
  obtain ⟨top, htop⟩ := hbreak
  rw [htop]
  exact p.column_after_lineBreak top

/-- **Lines are written lined up** if neither the indent nor a code holds a line break. -/
theorem linedUp_writeAll {indent head : Text} {lines : List NotedLine} (hindent : '\n' ∉ indent)
    (hcodes : ∀ l ∈ lines, '\n' ∉ l.code) (hhead : ∃ top, head = top ++ ['\n']) (foot : Text) :
    LinedUp indent lines head foot (column lines) (head ++ writeAll indent lines ++ foot) := by
  have hfits : ∀ l ∈ lines, l.code.length ≤ column lines := fun l hl =>
    Nat.le_trans (Text.length_le_byteSize l.code) (byteSize_le_column hl)
  refine ⟨?_, fun l hl => byteSize_le_column hl, exists_byteSize_eq_column, hfits, ?_⟩
  · have hwrite : write indent (column lines) = fun l => l.front indent (column lines) ++ l.back :=
      funext (write_eq indent (column lines))
    rw [writeAll, hwrite, List.flatMap_def]
  · intro above l below hlines
    have hl : l ∈ lines := by simp [hlines]
    have hstart := column_after_lines hhead indent (column lines) above .start
    refine ⟨hstart, ?_⟩
    rw [Position.after_append,
      Position.column_after (lineBreak_not_mem_front hindent (hcodes l hl)), hstart,
      length_front (hfits l hl), Nat.zero_add]

end NotedLine

/-! ## Variants and arms -/

theorem TagVariant.not_mem_line {v : TagVariant} {c : Char} (hcomma : c ≠ ',') (h : c ∉ v.name) :
    c ∉ v.line.code := by
  simp [line, h, hcomma]

/-- What the pattern of an arm shows of the payload. -/
def Shape.dots : Shape → Text
  | unit => []
  | tuple => "(..)"
  | record => " \x7b .. \x7d"

@[simp] theorem Shape.dots_unit : dots unit = [] := rfl

@[simp] theorem Shape.dots_tuple : dots tuple = ("(..)" : Text) := rfl

@[simp] theorem Shape.dots_record : dots record = (" \x7b .. \x7d" : Text) := rfl

theorem Arm.pattern_eq (a : Arm) : a.pattern = ("Self::" : Text) ++ a.variant ++ a.shape.dots := by
  obtain ⟨variant, shape, target, annotation⟩ := a
  cases shape <;> rfl

theorem Arm.code_line (targetType : Text) (a : Arm) : (a.line targetType).code =
    a.pattern ++ (" => " : Text) ++ targetType ++ ("::" : Text) ++ a.target ++ [','] := rfl

/-- The line of an arm in full. -/
theorem Arm.line_eq (targetType : Text) (a : Arm) : a.line targetType =
    ⟨("Self::" : Text) ++ a.variant ++ a.shape.dots ++ (" => " : Text) ++ targetType ++
      ("::" : Text) ++ a.target ++ [','], a.annotation⟩ := by
  rw [line, pattern_eq]

/-- What stands in the line of an arm besides names. -/
def Arm.marks : List Text := ["Self::", "(..)", " \x7b .. \x7d", " => ", "::", [',']]

theorem Arm.not_mem_line {targetType : Text} {a : Arm} {c : Char} (hmarks : ∀ s ∈ marks, c ∉ s)
    (htype : c ∉ targetType) (hvariant : c ∉ a.variant) (htarget : c ∉ a.target) :
    c ∉ (a.line targetType).code := by
  simp only [marks, List.forall_mem_cons] at hmarks
  obtain ⟨hself, htuple, hrecord, harrow, hcolons, hcomma, -⟩ := hmarks
  have hdots : c ∉ a.shape.dots := by
    cases a.shape with
    | unit => exact List.not_mem_nil
    | tuple => exact htuple
    | record => exact hrecord
  simp only [code_line, pattern_eq, List.mem_append, hself, hvariant, hdots, harrow, htype, hcolons,
    htarget, hcomma, or_self, not_false_eq_true]

/-- **The notes stand in one column.** In the source that is shown for an enum and for a projection
whose names hold no line break, each variant and each arm has its line, complete and with its note
behind a mark, and all marks begin in the column that the widest of them reaches in bytes. -/
theorem Planned.display_linedUp :
    (∀ e : TagEnum, (∀ v ∈ e.variants, '\n' ∉ v.name) →
      ∃ column, NotedLine.LinedUp "    "
        (e.variants.map fun v => ⟨v.name ++ [','], v.annotation⟩)
        (("enum " : Text) ++ e.name ++ (" \x7b\n" : Text)) "\x7d\n" column
        (Planned.tags e).display) ∧
    ∀ p : Projection, '\n' ∉ p.targetType → (∀ a ∈ p.arms, '\n' ∉ a.variant ∧ '\n' ∉ a.target) →
      ∃ column, NotedLine.LinedUp "        "
        (p.arms.map fun a => ⟨("Self::" : Text) ++ a.variant ++ a.shape.dots ++ (" => " : Text) ++
          p.targetType ++ ("::" : Text) ++ a.target ++ [','], a.annotation⟩)
        (("fn " : Text) ++ p.name ++ ("(&self) -> " : Text) ++ p.targetType ++
          (" \x7b\n    match self \x7b\n" : Text)) "    \x7d\n\x7d\n" column
        (Planned.projection p).display := by
  constructor
  · intro e hnames
    refine ⟨_, NotedLine.linedUp_writeAll (by decide) ?_ ?_ _⟩
    · rw [List.forall_mem_map]
      exact fun v hv => TagVariant.not_mem_line (by decide) (hnames v hv)
    · have hopen : (" \x7b\n" : Text) = (" \x7b" : Text) ++ ['\n'] := by decide
      exact ⟨("enum " : Text) ++ e.name ++ (" \x7b" : Text), by rw [hopen, ← List.append_assoc]⟩
  · intro p htype hnames
    simp only [← Arm.line_eq]
    refine ⟨_, NotedLine.linedUp_writeAll (by decide) ?_ ?_ _⟩
    · rw [List.forall_mem_map]
      exact fun a ha => Arm.not_mem_line (by decide) htype (hnames a ha).1 (hnames a ha).2
    · have hopen : (" \x7b\n    match self \x7b\n" : Text) =
          (" \x7b\n    match self \x7b" : Text) ++ ['\n'] := by decide
      exact ⟨("fn " : Text) ++ p.name ++ ("(&self) -> " : Text) ++ p.targetType ++
        (" \x7b\n    match self \x7b" : Text), by rw [hopen, ← List.append_assoc]⟩

/-- An enum whose names take one, two and three bytes for a character, with a note of two lines. -/
def broad : TagEnum :=
  ⟨simplifiedName, [⟨"日本語", "u8"⟩, ⟨"Größe", "[u8; \"x\ny\".len()] "⟩, ⟨"A", noPayloadNote⟩]⟩

/-- A projection onto it, with an arm of each shape. -/
def ontoBroad : Projection :=
  ⟨projectionName, simplifiedName,
    [⟨"日本語", .tuple, "日本語", "u8"⟩, ⟨"Größe", .record, "Größe", "[u8; \"x\ny\".len()] "⟩,
     ⟨"A", .unit, "A", noPayloadNote⟩]⟩

theorem Planned.display_linedUp_broad :
    ((∀ v ∈ broad.variants, '\n' ∉ v.name) ∧ '\n' ∉ ontoBroad.targetType ∧
      ∀ a ∈ ontoBroad.arms, '\n' ∉ a.variant ∧ '\n' ∉ a.target) ∧
    (Planned.tags broad).display =
      ("enum Simplified \x7b\n" : Text) ++
        ("    日本語,       // u8\n" : Text) ++
        ("    Größe,     // [u8; \"x\ny\".len()]\n" : Text) ++
        ("    A,         // -- has no payload\n\x7d\n" : Text) ∧
    (Planned.projection ontoBroad).display =
      ("fn simplified(&self) -> Simplified \x7b\n    match self \x7b\n" : Text) ++
        ("        Self::日本語(..) => Simplified::日本語,             // u8\n" : Text) ++
        ("        Self::Größe \x7b .. \x7d => Simplified::Größe,      " : Text) ++
        ("// [u8; \"x\ny\".len()]\n" : Text) ++
        ("        Self::A => Simplified::A,                     // -- has no payload\n" : Text) ++
        ("    \x7d\n\x7d\n" : Text) ∧
    (∃ column, NotedLine.LinedUp "    "
      (broad.variants.map fun v => ⟨v.name ++ [','], v.annotation⟩)
      "enum Simplified \x7b\n" "\x7d\n" column (Planned.tags broad).display) ∧
    ∃ column, NotedLine.LinedUp "        "
      (ontoBroad.arms.map fun a => ⟨("Self::" : Text) ++ a.variant ++ a.shape.dots ++
        (" => " : Text) ++ simplifiedName ++ ("::" : Text) ++ a.target ++ [','], a.annotation⟩)
      "fn simplified(&self) -> Simplified \x7b\n    match self \x7b\n" "    \x7d\n\x7d\n" column
      (Planned.projection ontoBroad).display := by
  have hnames : ∀ v ∈ broad.variants, '\n' ∉ v.name := by decide
  have htype : '\n' ∉ ontoBroad.targetType := by decide
  have harms : ∀ a ∈ ontoBroad.arms, '\n' ∉ a.variant ∧ '\n' ∉ a.target := by decide
  exact ⟨⟨hnames, htype, harms⟩, by decide +kernel, by decide +kernel,
    display_linedUp.1 broad hnames, display_linedUp.2 ontoBroad htype harms⟩

end EnumTags

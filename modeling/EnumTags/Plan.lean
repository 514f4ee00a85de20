import EnumTags.Declaration
import EnumTags.Text.Basic

/-!
# The declarations to be made

From a checked declaration come the aliases of its inline functions, the enum without payloads, and
the function that projects a value onto its variant of that enum, in this order. `Planned.display`
writes them as source for people to read, with the notes lined up behind the longest line.
-/

namespace EnumTags

/-- A variant of the enum without payloads, with a note on what the source variant carries. -/
structure TagVariant where
  name : Text
  annotation : Text
deriving DecidableEq, Repr

/-- The enum without payloads. -/
structure TagEnum where
  name : Text
  variants : List TagVariant
deriving DecidableEq, Repr

/-- One arm of the projection: values of `variant` become `target`. -/
structure Arm where
  variant : Text
  shape : Shape
  target : Text
  annotation : Text
deriving DecidableEq, Repr

/-- The function that projects a value onto its variant. -/
structure Projection where
  name : Text
  targetType : Text
  arms : List Arm
deriving DecidableEq, Repr

/-- A declaration to be made. -/
inductive Planned where
  | alias (a : Alias)
  | tags (e : TagEnum)
  | projection (p : Projection)
deriving DecidableEq, Repr

/-- The name of the projection function. -/
def projectionName : Text := "simplified"

namespace Declaration

/-- The variant of the enum without payloads that belongs to a source variant. -/
def tagVariant (x : Extracted) : TagVariant := ⟨x.name, x.signature.description⟩

/-- The arm of the projection that belongs to a source variant. -/
def arm (x : Extracted) : Arm := ⟨x.name, x.shape, x.name, x.signature.description⟩

/-- Whether the names can name the variants of one enum: none is empty and none stands twice. -/
def namesUsable : List Text → Bool
  | [] => true
  | name :: names => !name.isEmpty && !names.contains name && namesUsable names

/-- The declarations to be made for a checked declaration. -/
def plan (d : Declaration) : Except Rejection (List Planned) :=
  if namesUsable (d.variants.map Extracted.name) then
    .ok (d.aliases.map .alias ++
      [.tags ⟨simplifiedName, d.variants.map tagVariant⟩,
       .projection ⟨projectionName, simplifiedName, d.variants.map arm⟩])
  else .error (.synthesisFailed d.name)

end Declaration

/-! ## Source for people to read -/

/-- The pattern of an arm. -/
def Arm.pattern (a : Arm) : Text :=
  ("Self::" : Text) ++ a.variant ++
    (match a.shape with
      | .unit => ([] : Text)
      | .tuple => "(..)"
      | .record => " \x7b .. \x7d")

/-- A line of code and the note behind it. -/
structure NotedLine where
  code : Text
  note : Text
deriving DecidableEq, Repr

namespace NotedLine

/-- The column at which the notes begin: the largest number of bytes that a line takes. -/
def column (lines : List NotedLine) : Nat := (lines.map fun l => Text.byteSize l.code).foldl max 0

/-- A line with its note at the given column. -/
def write (indent : Text) (column : Nat) (l : NotedLine) : Text :=
  indent ++ Text.padRight column l.code ++ (" // " : Text) ++ Text.trim l.note ++ ['\n']

/-- All lines with their notes lined up. -/
def writeAll (indent : Text) (lines : List NotedLine) : Text :=
  (lines.map (write indent (column lines))).flatten

end NotedLine

/-- The line of a variant. -/
def TagVariant.line (v : TagVariant) : NotedLine := ⟨v.name ++ [','], v.annotation⟩

/-- The line of an arm. -/
def Arm.line (targetType : Text) (a : Arm) : NotedLine :=
  ⟨a.pattern ++ (" => " : Text) ++ targetType ++ ("::" : Text) ++ a.target ++ [','], a.annotation⟩

/-- A declaration as source, with a note at each variant and arm. -/
def Planned.display : Planned → Text
  | .alias a => ("type " : Text) ++ a.name ++ (" = " : Text) ++ a.target.text ++ (";\n" : Text)
  | .tags e =>
    ("enum " : Text) ++ e.name ++ (" \x7b\n" : Text) ++
      NotedLine.writeAll "    " (e.variants.map TagVariant.line) ++ ("\x7d\n" : Text)
  | .projection p =>
    ("fn " : Text) ++ p.name ++ ("(&self) -> " : Text) ++ p.targetType ++
      (" \x7b\n    match self \x7b\n" : Text) ++
      NotedLine.writeAll "        " (p.arms.map (Arm.line p.targetType)) ++
      ("    \x7d\n\x7d\n" : Text)

end EnumTags

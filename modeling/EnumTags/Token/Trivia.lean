import EnumTags.Text.Basic

/-!
# Blanks and comments

Blanks and comments separate tokens and vanish. A line comment reaches to the end of its line,
block comments nest. Comments with one more mark (three slashes, two stars, or an exclamation
mark) document what follows or what surrounds them, and are kept.
-/

namespace EnumTags.Trivia

/-- Whether a character separates tokens. Besides white space these are the two marks that set
the direction of writing. -/
def isSeparator (c : Char) : Bool :=
  Text.isBlank c || c.toNat == 0x200e || c.toNat == 0x200f

/-- Splits at the end of the line, which a carriage return may precede. -/
def splitLine : Text → Text × Text
  | [] => ([], [])
  | '\n' :: rest => ([], '\n' :: rest)
  | '\r' :: '\n' :: rest => ([], '\n' :: rest)
  | c :: rest => let (line, rest) := splitLine rest; (c :: line, rest)

/-- Splits behind the end of a block comment that is `depth` comments deep in others. The first
part is the inside of the comment without its last mark. -/
def splitBlock : Nat → Text → Option (Text × Text)
  | _, [] => none
  | 0, '*' :: '/' :: rest => some ([], rest)
  | depth + 1, '*' :: '/' :: rest =>
    (splitBlock depth rest).map fun (inside, rest) => ('*' :: '/' :: inside, rest)
  | depth, '/' :: '*' :: rest =>
    (splitBlock (depth + 1) rest).map fun (inside, rest) => ('/' :: '*' :: inside, rest)
  | depth, c :: rest => (splitBlock depth rest).map fun (inside, rest) => (c :: inside, rest)

/-- A documentation comment: its text and whether it is about what surrounds it. -/
structure Doc where
  inner : Bool
  body : Text

/-- A carriage return inside documentation must end a line. -/
def hasBareCarriage : Text → Bool
  | [] => false
  | '\r' :: '\n' :: rest => hasBareCarriage rest
  | c :: rest => c == '\r' || hasBareCarriage rest

/-- What a comment is, and what is left behind it. -/
inductive Comment where
  | plain (rest : Text)
  | doc (d : Doc) (rest : Text)

/-- A documentation comment whose body is known. -/
def docComment (inner : Bool) (parts : Text × Text) : Option Comment :=
  if hasBareCarriage parts.1 then none else some (.doc ⟨inner, parts.1⟩ parts.2)

/-- The comment that begins here, if one does and it is complete. -/
def comment? : Text → Option Comment
  | '/' :: '/' :: '!' :: rest => docComment true (splitLine rest)
  | '/' :: '/' :: '/' :: '/' :: rest => some (.plain (splitLine rest).2)
  | '/' :: '/' :: '/' :: rest => docComment false (splitLine rest)
  | '/' :: '/' :: rest => some (.plain (splitLine rest).2)
  | '/' :: '*' :: '*' :: '/' :: rest => some (.plain rest)
  | '/' :: '*' :: '*' :: '*' :: rest => (splitBlock 0 ('*' :: '*' :: rest)).map fun p => .plain p.2
  | '/' :: '*' :: '*' :: rest => (splitBlock 0 rest).bind (docComment false)
  | '/' :: '*' :: '!' :: rest => (splitBlock 0 rest).bind (docComment true)
  | '/' :: '*' :: rest => (splitBlock 0 rest).map fun p => .plain p.2
  | _ => none

/-- Whether a comment mark stands here, complete or not. -/
def startsComment : Text → Bool
  | '/' :: '/' :: _ => true
  | '/' :: '*' :: _ => true
  | _ => false

end EnumTags.Trivia

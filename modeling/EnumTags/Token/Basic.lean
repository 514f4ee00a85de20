import EnumTags.Text.WordChar

/-!
# Tokens

Source is a flat list of tokens. A group is not a tree of its own: its two delimiters are tokens
like any other, and the lexer sees to it that they balance. A punctuation character is *joint*
when another one follows it directly, and this is all that is remembered of the blanks.

Only brackets that are written are tokens. A macro also groups what it hands over by brackets that
are not; what is made of tokens here is written without them.
-/

namespace EnumTags

/-- A place in the source: lines count from one, columns from zero and in characters. -/
structure Position where
  line : Nat
  column : Nat
deriving DecidableEq, Repr

/-- The place behind the character `c`. -/
def Position.next (p : Position) (c : Char) : Position :=
  if c == '\n' then ⟨p.line + 1, 0⟩ else ⟨p.line, p.column + 1⟩

/-- The place behind a whole text. -/
def Position.after (p : Position) (s : Text) : Position := s.foldl Position.next p

/-- Where the source begins. -/
def Position.start : Position := ⟨1, 0⟩

/-- A stretch of the source; `stop` is the place behind its last character. -/
structure Span where
  start : Position
  stop : Position
deriving DecidableEq, Repr

/-- Words that have no raw form. -/
def neverRaw : List Text := ["_", "super", "self", "Self", "crate"]

/-- Whether this word, with or without the raw mark, is an identifier. -/
def isSpelling (raw : Bool) (name : Text) : Bool :=
  Text.isWord name && !(raw && neverRaw.contains name)

/-- An identifier. A raw one is written with the mark `r#` and is never a keyword. -/
structure Ident where
  raw : Bool
  name : Text
  spelled : isSpelling raw name = true
deriving DecidableEq, Repr

namespace Ident

/-- An identifier without the raw mark. -/
def plain (name : Text) (spelled : isSpelling false name = true := by decide) : Ident :=
  ⟨false, name, spelled⟩

/-- Whether the identifier is this word without the raw mark. -/
def isPlain (i : Ident) (word : Text) : Bool := !i.raw && i.name == word

/-- How the identifier is written. -/
def text (i : Ident) : Text := if i.raw then 'r' :: '#' :: i.name else i.name

end Ident

/-- The three kinds of brackets. -/
inductive Delimiter where
  | paren
  | bracket
  | brace
deriving DecidableEq, Repr

namespace Delimiter

/-- The bracket that opens the group. -/
def opener : Delimiter → Char
  | paren => '('
  | bracket => '['
  | brace => '{'

/-- The bracket that closes the group. -/
def closer : Delimiter → Char
  | paren => ')'
  | bracket => ']'
  | brace => '}'

end Delimiter

/-- A token of the source. A lifetime is the joint punctuation character `'` and an identifier,
and a literal is kept as it was written. -/
inductive Token where
  | ident (i : Ident)
  | punct (c : Char) (joint : Bool)
  | literal (s : Text)
  | opening (d : Delimiter)
  | closing (d : Delimiter)
deriving DecidableEq, Repr

namespace Token

/-- Whether the token is this word, as a keyword or plain identifier. -/
def isWord (word : Text) : Token → Bool
  | ident i => i.isPlain word
  | _ => false

end Token

/-- A list of tokens. -/
abbrev Tokens := List Token

namespace Tokens

/-- Puts the tokens between two brackets. -/
def enclose (d : Delimiter) (ts : Tokens) : Tokens := .opening d :: (ts ++ [.closing d])

/-- An identifier as tokens. -/
def ofIdent (i : Ident) : Tokens := [.ident i]

/-- A plain identifier or keyword as tokens. -/
def word (name : Text) (spelled : isSpelling false name = true := by decide) : Tokens :=
  [.ident (.plain name spelled)]

theorem isSpelling_const : isSpelling false "const" = true := by decide

theorem isSpelling_underscore : isSpelling false "_" = true := by decide

theorem isSpelling_as : isSpelling false "as" = true := by decide

theorem isSpelling_mut : isSpelling false "mut" = true := by decide

theorem isSpelling_fn : isSpelling false "fn" = true := by decide

theorem isSpelling_dyn : isSpelling false "dyn" = true := by decide

theorem isSpelling_impl : isSpelling false "impl" = true := by decide

theorem isSpelling_enum : isSpelling false "enum" = true := by decide

/-- An operator: its characters are joint except for the last one. -/
def op : Text → Tokens
  | [] => []
  | [c] => [.punct c false]
  | c :: rest => .punct c true :: op rest

/-- A lifetime as tokens. -/
def lifetime (i : Ident) : Tokens := [.punct '\'' true, .ident i]

/-- A literal as tokens; `s` is its spelling, quotes included. -/
def literal (s : Text) : Tokens := [.literal s]

end Tokens

/-- A token with its place in the source. -/
structure Lexeme where
  token : Token
  span : Span
deriving DecidableEq, Repr

/-- The tokens without their places. -/
def Lexeme.tokens (ls : List Lexeme) : Tokens := ls.map Lexeme.token

end EnumTags

import EnumTags.Text.Quoted
import EnumTags.Token.Basic

/-!
# Tokens from a template

Generated source is mostly fixed. `Tokens.code` makes tokens from a text in which blanks separate
them: a word is an identifier, a quote and a word are a lifetime, and anything else is an operator.
Brackets are put around tokens with `Tokens.enclose`, since they have to balance.
-/

namespace EnumTags

/-- Worker of `Text.words`: `part` is the word that is being read, in reverse. -/
def Text.wordsFrom (part : Text) : Text → List Text
  | [] => if part.isEmpty then [] else [part.reverse]
  | c :: rest =>
    if c == ' ' then
      if part.isEmpty then wordsFrom [] rest else part.reverse :: wordsFrom [] rest
    else wordsFrom (c :: part) rest

/-- The parts of a text between blanks. -/
def Text.words (s : Text) : List Text := Text.wordsFrom [] s

namespace Tokens

/-- One part of a template. -/
def ofPart : Text → Tokens
  | '\'' :: rest => if h : isSpelling false rest then lifetime (.plain rest h) else []
  | s => if h : isSpelling false s then word s h else op s

/-- The tokens of a template without brackets. -/
def code (template : Text) : Tokens := (Text.words template).flatMap ofPart

/-- A text as a literal. -/
def quoted (s : Text) : Tokens := [.literal (Text.quote s)]

/-- An attribute. -/
def annotate (inside : Tokens) : Tokens := op "#" ++ enclose .bracket inside

/-- Documentation with an escaped text. -/
def doc (s : Text) : Tokens := annotate (code "doc =" ++ quoted s)

/-- Documentation whose text needs no escape and is written raw. -/
def rawDoc (s : Text) : Tokens :=
  annotate (code "doc =" ++ [.literal ('r' :: '"' :: (s ++ ['"']))])

/-- A number of items as a literal. -/
def count (n : Nat) : Tokens := [.literal (Text.ofNat n ++ ("usize" : Text))]

/-- Source that makes compilation fail with a message. -/
def compileError (message : Text) : Tokens :=
  code ":: core :: compile_error !" ++ enclose .brace (quoted message)

end Tokens

end EnumTags

import EnumTags.Token.Lexer

/-!
# Keywords and names

A keyword cannot name anything, but its raw form can, apart from the few words that have none.
`Ident.ofText?` reads a text as exactly one name, and `Ident.revive?` also gives a keyword its raw
form, so that every name which left the tokens as text finds its way back.
-/

namespace EnumTags

/-- The words that are no names, in use or reserved. -/
def keywordStrings : List String :=
  ["_", "abstract", "as", "async", "await", "become", "box", "break", "const", "continue",
   "crate", "do", "dyn", "else", "enum", "extern", "false", "final", "fn", "for", "if", "impl",
   "in", "let", "loop", "macro", "match", "mod", "move", "mut", "override", "priv", "pub", "ref",
   "return", "Self", "self", "static", "struct", "super", "trait", "true", "try", "type",
   "typeof", "unsafe", "unsized", "use", "virtual", "where", "while", "yield"]

/-- The words that are no names, as texts. -/
def keywords : List Text := keywordStrings.map String.toList

namespace Ident

/-- Whether the identifier can name something. -/
def isName (i : Ident) : Bool := i.raw || !keywords.contains i.name

/-- Reads a text that holds one name and nothing else but blanks and comments. -/
def ofText? (s : Text) : Option Ident :=
  match lex? s with
  | some [⟨.ident i, _⟩] => if i.isName then some i else none
  | _ => none

/-- Reads a text as a name, or failing that, as the inside of a raw name. -/
def revive? (s : Text) : Option Ident :=
  match ofText? s with
  | some i => some i
  | none => ofText? ('r' :: '#' :: s)

end Ident

/-- The text without the raw marks it begins with. -/
def Text.withoutRawMarks : Text → Text
  | 'r' :: '#' :: rest => Text.withoutRawMarks rest
  | s => s

end EnumTags

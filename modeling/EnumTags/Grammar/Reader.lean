import EnumTags.Grammar.ItemRules

/-!
# Reading declarations

Ties the rules of the grammar together and reads whole texts with them. A rule that uses another
one without reading a token first hands over to a smaller construct, which then reads one; so rules
that nest twice as deep as there are tokens are enough.
-/

namespace EnumTags

/-- The rules, nested at most `depth` times. -/
def Rules.nested : (depth : Nat) → Rules
  | 0 => .exhausted
  | depth + 1 =>
    let r := Rules.nested depth
    { ty := r.anyType
      expr := r.anyExpr
      unary := r.anyUnary
      pattern := r.anyPattern
      block := r.anyBlock
      item := r.anyItem }

/-- Reads all lexemes by one of the rules. -/
def Rules.read {α : Type} (rule : Rules → Parser α) (ls : List Lexeme) : Except SyntaxError α :=
  Parser.run (rule (Rules.nested (2 * ls.length + 2))) ls

/-- Reads a type. -/
def Ty.read (ls : List Lexeme) : Except SyntaxError Ty := Rules.read (fun r => r.anyType true) ls

/-- Reads a text as a type; nothing if it is none. -/
def Ty.ofText? (s : Text) : Option Ty :=
  match lex? s with
  | some ls => (Ty.read ls).toOption
  | none => none

/-- Reads an item. -/
def Item.read (ls : List Lexeme) : Except SyntaxError Item := Rules.read Rules.anyItem ls

/-- Reads an enum; nothing if the item is another one. -/
def EnumItem.read? (ls : List Lexeme) : Option EnumItem :=
  match Item.read ls with
  | .ok (.enum e) => some e
  | _ => none

end EnumTags

import EnumTags.Token.Basic

/-!
# Why a text is no sentence of the grammar

One constructor per cause; `SyntaxError.message` is the only place where causes get their wording.
-/

namespace EnumTags

/-- Why tokens could not be read. -/
inductive SyntaxError where
  /-- Something else was expected; `atEnd` tells that the tokens, or those of the group, ended
  and that this is worth mentioning. Without options nothing could have stood here. -/
  | expected (options : List Text) (atEnd : Bool)
  /-- A keyword stands where a name was expected. -/
  | keyword (word : Text)
  /-- Tokens are left over, at the end or inside a group. -/
  | leftover (inside : Option Delimiter)
  /-- An argument is given for the second time. -/
  | repeated
  /-- A rule of the grammar that is not about the next token is broken; `atEnd` tells that the
  tokens ended there and that this is worth mentioning. -/
  | rule (text : Text) (atEnd : Bool)
  /-- The reader gave up; it never does so on the budget it is given. -/
  | exhausted
deriving DecidableEq, Repr

namespace SyntaxError

/-- The alternatives in words. -/
def alternatives : List Text → Text
  | [] => []
  | [a] => a
  | [a, b] => a ++ (" or " : Text) ++ b
  | options => ("one of: " : Text) ++ Text.joinWith ", " options

/-- What is put before a message when the tokens ended. -/
def endNote (atEnd : Bool) : Text := if atEnd then "unexpected end of input, " else []

/-- The wording of an error. -/
def message : SyntaxError → Text
  | expected [] atEnd => if atEnd then "unexpected end of input" else "unexpected token"
  | expected options atEnd => endNote atEnd ++ ("expected " : Text) ++ alternatives options
  | keyword word => ("expected identifier, found keyword `" : Text) ++ word ++ ("`" : Text)
  | leftover none => "unexpected token"
  | leftover (some .paren) => "unexpected token, expected `)`"
  | leftover (some .bracket) => "unexpected token, expected `]`"
  | leftover (some .brace) => "unexpected token, expected `\x7d`"
  | repeated => "simplified_enum argument given more than once"
  | rule text atEnd => endNote atEnd ++ text
  | exhausted => "unexpected end of input"

end SyntaxError

end EnumTags

import EnumTags.Token.Basic

/-!
# Tokens as text

`Tokens.text` writes tokens with one blank between neighbours, except where `Token.apart` says
that they stand together.

`Tokens.compact` is for people to read: the blanks that the plain spelling puts around paths, angle
brackets, commas and the like are squeezed out, by replacing pieces of text one after the other. The
replacements do not look at tokens, so they also reach into literals.
-/

namespace EnumTags

/-! ## Plain spelling -/

namespace Token

/-- How the token is written. -/
def text : Token → Text
  | ident i => i.text
  | punct c _ => [c]
  | literal s => s
  | opening d => [d.opener]
  | closing d => [d.closer]

/-- Whether a blank stands between two neighbours: not inside round and square brackets next to
the bracket, and not behind a joint punctuation character. Curly brackets always keep theirs. -/
def apart : Token → Token → Bool
  | opening .brace, _ => true
  | _, closing .brace => true
  | opening _, _ => false
  | _, closing _ => false
  | punct _ joint, _ => !joint
  | _, _ => true

end Token

/-- The tokens written out. -/
def Tokens.text : Tokens → Text
  | [] => []
  | [t] => t.text
  | t :: u :: rest => t.text ++ (if t.apart u then ' ' :: text (u :: rest) else text (u :: rest))

/-! ## Compact spelling -/

/-- The pieces of text that are replaced, in this order. -/
def squeezes : List (String × String) :=
  [(" :: ", "::"), (":: ", "::"), (" ::", "::"), (" : ", ": "),
   (" < ", "<"), ("< ", "<"), (" <", "<"), (" >", ">"),
   (" ,", ","), ("( ", "("), (" )", ")"), ("[ ", "["), (" ]", "]"),
   ("& ", "&"), (" ;", ";"),
   ("fn (", "fn("), ("Fn (", "Fn("), ("FnMut (", "FnMut("), ("FnOnce (", "FnOnce(")]

/-- Replaces the pieces of text one after the other. -/
def Text.squeeze (s : Text) : Text :=
  squeezes.foldl (fun s (old, new) => Text.replace old.toList new.toList s) s

/-- The tokens as compact text. -/
def Tokens.compact (ts : Tokens) : Text := Text.squeeze ts.text

end EnumTags

import EnumTags.Text.Quoted
import EnumTags.Token.Basic
import EnumTags.Token.Literal
import EnumTags.Token.Trivia

/-!
# Lexer

`Lexer.step` reads one piece of source: a blank, a comment, or one token. `lex?` repeats it to the
end, notes where each token stood, and checks that the brackets balance. Documentation becomes the
attribute that it stands for.
-/

namespace EnumTags.Lexer

/-- The punctuation characters. -/
def isPunct (c : Char) : Bool :=
  c == '~' || c == '!' || c == '@' || c == '#' || c == '$' || c == '%' || c == '^' || c == '&' ||
    c == '*' || c == '-' || c == '=' || c == '+' || c == '|' || c == ';' || c == ':' || c == ',' ||
    c == '<' || c == '.' || c == '>' || c == '/' || c == '?' || c == '\''

/-- Whether a punctuation token begins here. -/
def startsPunct (s : Text) : Bool :=
  s.head?.any isPunct && !Trivia.startsComment s

/-- The identifier of the longest word that begins here, and what is left behind it. -/
def wordIdent? (raw : Bool) : Text → Option (Ident × Text)
  | [] => none
  | c :: rest =>
    let name := c :: rest.takeWhile Text.isWordChar
    if h : isSpelling raw name then some (⟨raw, name, h⟩, rest.dropWhile Text.isWordChar) else none

/-- An identifier in any spelling, and what is left behind it. -/
def anyIdent? : Text → Option (Ident × Text)
  | 'r' :: '#' :: s => wordIdent? true s
  | s => wordIdent? false s

/-- Whether the text looks like a quotation that was refused; no identifier is read from it. -/
def looksQuoted : Text → Bool
  | 'r' :: '"' :: _ => true
  | 'r' :: '#' :: '"' :: _ => true
  | 'r' :: '#' :: '#' :: _ => true
  | 'b' :: '"' :: _ => true
  | 'b' :: '\'' :: _ => true
  | 'b' :: 'r' :: '"' :: _ => true
  | 'b' :: 'r' :: '#' :: _ => true
  | 'c' :: '"' :: _ => true
  | 'c' :: 'r' :: '"' :: _ => true
  | 'c' :: 'r' :: '#' :: _ => true
  | _ => false

/-- The identifier that begins here. -/
def ident? (s : Text) : Option (Ident × Text) := if looksQuoted s then none else anyIdent? s

/-- Whether a lifetime name stands here, which neither a quote nor, unless it is raw, a number
sign may follow. -/
def startsLifetime (s : Text) : Bool :=
  match anyIdent? s with
  | some (_, '\'' :: _) => false
  | some (i, '#' :: _) => i.raw
  | some _ => true
  | none => false

/-- The punctuation token that begins here. -/
def punct? (s : Text) : Option (Token × Text) :=
  match s with
  | [] => none
  | c :: rest =>
    if !startsPunct s then none
    else if c == '\'' then if startsLifetime rest then some (.punct c true, rest) else none
    else some (.punct c (startsPunct rest), rest)

/-- The bracket that stands here. -/
def bracket? : Char → Option Token
  | '(' => some (.opening .paren)
  | '[' => some (.opening .bracket)
  | '{' => some (.opening .brace)
  | ')' => some (.closing .paren)
  | ']' => some (.closing .bracket)
  | '}' => some (.closing .brace)
  | _ => none

/-- A documentation comment as an attribute. -/
def docTokens (d : Trivia.Doc) : Tokens :=
  .punct '#' false ::
    ((if d.inner then [.punct '!' false] else []) ++
      Tokens.enclose .bracket
        (Tokens.word "doc" ++ [.punct '=' false, .literal (Text.quote d.body)]))

/-- The literal, punctuation or identifier that begins here. -/
def leaf? (s : Text) : Option (Token × Text) :=
  match Literal.rest? s with
  | some rest => some (.literal (s.take (s.length - rest.length)), rest)
  | none =>
    match punct? s with
    | some found => some found
    | none => (ident? s).map fun (i, rest) => (.ident i, rest)

/-- The mark that stands in printed source for a piece that could not be read. It is a single
literal, although it looks like a pair of brackets around a comment. -/
def errorMark : Text := "(/*ERROR*/)"

/-- Reads one piece of source. Blanks and plain comments give no token, documentation gives
several. -/
def step : Text → Option (Tokens × Text)
  | [] => none
  | c :: rest =>
    if Trivia.isSeparator c then some ([], rest)
    else match Trivia.comment? (c :: rest) with
      | some (.plain rest) => some ([], rest)
      | some (.doc d rest) => some (docTokens d, rest)
      | none =>
        if errorMark.isPrefixOf (c :: rest) then
          some ([.literal errorMark], (c :: rest).drop errorMark.length)
        else match bracket? c with
          | some t => some ([t], rest)
          | none => (leaf? (c :: rest)).map fun (t, rest) => ([t], rest)

/-- Reads source to its end. Every step takes at least one character, so as much `fuel` as there
are characters is enough. -/
def scan : (fuel : Nat) → Position → Text → Option (List Lexeme)
  | _, _, [] => some []
  | 0, _, _ => none
  | fuel + 1, at_, s =>
    match step s with
    | none => none
    | some (ts, rest) =>
      let stop := at_.after (s.take (s.length - rest.length))
      (scan fuel stop rest).map fun ls => ts.map (fun t => ⟨t, ⟨at_, stop⟩⟩) ++ ls

/-- Whether the brackets balance, given those that are still open. -/
def balanced : List Delimiter → Tokens → Bool
  | opened, [] => opened.isEmpty
  | opened, .opening d :: rest => balanced (d :: opened) rest
  | d' :: opened, .closing d :: rest => d == d' && balanced opened rest
  | [], .closing _ :: _ => false
  | opened, _ :: rest => balanced opened rest

/-- Passes over a byte order mark at the start of the source; it still takes a column. -/
def passMark : Text → Position × Text
  | c :: rest => if c.toNat == 0xfeff then (Position.start.next c, rest) else (.start, c :: rest)
  | [] => (.start, [])

end Lexer

/-- Reads source into tokens; nothing if it holds something that is no token, or if its brackets
do not balance. -/
def lex? (source : Text) : Option (List Lexeme) :=
  let (start, s) := Lexer.passMark source
  match Lexer.scan s.length start s with
  | some ls => if Lexer.balanced [] (Lexeme.tokens ls) then some ls else none
  | none => none

end EnumTags

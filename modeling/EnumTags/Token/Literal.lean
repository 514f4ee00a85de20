import EnumTags.Text.WordChar

/-!
# Literals

Recognisers for literals. Each takes the text at which a literal may begin and answers with what
is left behind it, or with nothing if no such literal begins there. A literal is kept verbatim,
so nothing is decoded; but an escape or a digit that no literal may hold is refused.

The inside of a quotation is read by a machine that looks at one character at a time
(`QuoteState`), because escapes have different lengths.
-/

namespace EnumTags.Literal

/-- What is left behind the longest word that begins here, if one does. -/
def wordRest : Text → Option Text
  | [] => none
  | c :: rest => if Text.isWordStart c then some (rest.dropWhile Text.isWordChar) else none

/-- Passes over a suffix such as the `u8` of `1u8`, if one is there. -/
def passSuffix (s : Text) : Text := (wordRest s).getD s

/-! ## Quotations -/

/-- What a quotation may hold. -/
inductive QuoteKind where
  /-- a single character -/
  | char
  /-- a single byte -/
  | byte
  /-- text -/
  | string
  /-- bytes -/
  | byteString
  /-- text without a null character -/
  | cString
deriving DecidableEq

namespace QuoteKind

/-- Bytes are ASCII and have no code-point escapes. -/
def isBytes : QuoteKind → Bool
  | byte | byteString => true
  | char | string | cString => false

/-- A backslash before a line end joins lines, except in a single character. -/
def joinsLines : QuoteKind → Bool
  | char | byte => false
  | string | byteString | cString => true

end QuoteKind

/-- How far an escape has been read. -/
inductive QuoteState where
  /-- outside any escape -/
  | plain
  /-- behind a carriage return, which a line feed has to follow -/
  | carriage
  /-- behind a backslash -/
  | escape
  /-- before the first of two hexadecimal digits -/
  | hexHigh
  /-- before the second; `zero` tells whether the first was zero -/
  | hexLow (zero : Bool)
  /-- before the bracket of a code point -/
  | codeOpen
  /-- behind `digits` digits of a code point of this value -/
  | code (digits value : Nat)
  /-- in the margin of a joined line; `carriage` tells whether a line feed is due -/
  | margin (carriage : Bool)
deriving DecidableEq

/-- What one character does to a quotation. -/
inductive QuoteStep where
  | next (s : QuoteState)
  | done
  | refused

/-- The value of a hexadecimal digit. -/
def hexValue (c : Char) : Option Nat :=
  if '0' ≤ c && c ≤ '9' then some (c.toNat - '0'.toNat)
  else if 'a' ≤ c && c ≤ 'f' then some (10 + c.toNat - 'a'.toNat)
  else if 'A' ≤ c && c ≤ 'F' then some (10 + c.toNat - 'A'.toNat)
  else none

/-- One character outside any escape. -/
def plainStep (k : QuoteKind) (c : Char) : QuoteStep :=
  if c == '"' then .done
  else if c == '\r' then .next .carriage
  else if c == '\\' then .next .escape
  else if k.isBytes && 128 ≤ c.toNat then .refused
  else if k == .cString && c.toNat == 0 then .refused
  else .next .plain

/-- The character behind a backslash. -/
def escapeStep (k : QuoteKind) (c : Char) : QuoteStep :=
  if c == 'x' then .next .hexHigh
  else if c == 'u' then if k.isBytes then .refused else .next .codeOpen
  else if c == '0' then if k == .cString then .refused else .next .plain
  else if c == 'n' || c == 'r' || c == 't' || c == '\\' || c == '\'' || c == '"' then .next .plain
  else if k.joinsLines && c == '\n' then .next (.margin false)
  else if k.joinsLines && c == '\r' then .next (.margin true)
  else .refused

/-- A character among the digits of a code point. -/
def codeStep (k : QuoteKind) (digits value : Nat) (c : Char) : QuoteStep :=
  match hexValue c with
  | some v => if digits == 6 then .refused else .next (.code (digits + 1) (value * 16 + v))
  | none =>
    if digits == 0 then .refused
    else if c == '_' then .next (.code digits value)
    else if c == '}' && value.isValidChar && !(k == .cString && value == 0) then .next .plain
    else .refused

/-- One character of a quotation. -/
def quoteStep (k : QuoteKind) : QuoteState → Char → QuoteStep
  | .plain, c => plainStep k c
  | .carriage, c => if c == '\n' then .next .plain else .refused
  | .escape, c => escapeStep k c
  | .hexHigh, c =>
    if k.isBytes || k == .cString then
      if (hexValue c).isSome then .next (.hexLow (c == '0')) else .refused
    else if '0' ≤ c && c ≤ '7' then .next (.hexLow false)
    else .refused
  | .hexLow zero, c =>
    if (hexValue c).isNone then .refused
    else if k == .cString && zero && c == '0' then .refused
    else .next .plain
  | .codeOpen, c => if c == '{' then .next (.code 0 0) else .refused
  | .code digits value, c => codeStep k digits value c
  | .margin true, c => if c == '\n' then .next (.margin false) else .refused
  | .margin false, c =>
    if c == ' ' || c == '\t' || c == '\n' then .next (.margin false)
    else if c == '\r' then .next (.margin true)
    else plainStep k c

/-- What is left behind the closing quotes. -/
def quoteRest (k : QuoteKind) : QuoteState → Text → Option Text
  | _, [] => none
  | s, c :: rest =>
    match quoteStep k s c with
    | .next s' => quoteRest k s' rest
    | .done => some rest
    | .refused => none

/-- What is left behind the escape whose backslash was just read. -/
def escapeRest (k : QuoteKind) : QuoteState → Text → Option Text
  | _, [] => none
  | s, c :: rest =>
    match quoteStep k s c with
    | .next .plain => some rest
    | .next s' => escapeRest k s' rest
    | _ => none

/-- The inside of a single quoted character and its closing quote. -/
def singleRest (k : QuoteKind) : Text → Option Text
  | [] => none
  | c :: rest =>
    let inside :=
      if c == '\\' then escapeRest k .escape rest
      else if k.isBytes && 128 ≤ c.toNat then none
      else some rest
    match inside with
    | some ('\'' :: rest) => some (passSuffix rest)
    | _ => none

/-! ## Raw quotations -/

/-- What is left behind a raw quotation that `hashes` number signs close. -/
def rawRest (k : QuoteKind) (hashes : Nat) : Text → Option Text
  | [] => none
  | '"' :: rest =>
    if (List.replicate hashes '#').isPrefixOf rest then some (rest.drop hashes)
    else rawRest k hashes rest
  | '\r' :: '\n' :: rest => rawRest k hashes rest
  | c :: rest =>
    if c == '\r' || (k.isBytes && 128 ≤ c.toNat) || (k == .cString && c.toNat == 0) then none
    else rawRest k hashes rest

/-- A raw quotation from its number signs on; at most 255 of them are allowed. -/
def rawQuoteRest (k : QuoteKind) (s : Text) : Option Text :=
  let hashes := (s.takeWhile (· == '#')).length
  match s.dropWhile (· == '#') with
  | '"' :: rest => if hashes ≤ 255 then (rawRest k hashes rest).map passSuffix else none
  | _ => none

/-- Any quotation. -/
def quotationRest : Text → Option Text
  | '"' :: rest => (quoteRest .string .plain rest).map passSuffix
  | 'r' :: rest => rawQuoteRest .string rest
  | 'b' :: '"' :: rest => (quoteRest .byteString .plain rest).map passSuffix
  | 'b' :: 'r' :: rest => rawQuoteRest .byteString rest
  | 'c' :: '"' :: rest => (quoteRest .cString .plain rest).map passSuffix
  | 'c' :: 'r' :: rest => rawQuoteRest .cString rest
  | 'b' :: '\'' :: rest => singleRest .byte rest
  | '\'' :: rest => singleRest .char rest
  | _ => none

/-! ## Numbers -/

/-- How the digits before an exponent end. -/
inductive Mantissa where
  /-- no fraction begins here -/
  | refused
  /-- the digits end, and a point was among them or not -/
  | plain (point : Bool) (rest : Text)
  /-- an exponent mark follows at `mark`, and `rest` is behind it -/
  | exponent (point : Bool) (mark rest : Text)

/-- Reads digits and at most one point. A point before another point or a word is no part of
a number. -/
def mantissa (point : Bool) : Text → Mantissa
  | [] => .plain point []
  | c :: rest =>
    if c.isDigit || c == '_' then mantissa point rest
    else if c == '.' then
      if point then .plain point (c :: rest)
      else if rest.head?.any (fun d => d == '.' || Text.isWordStart d) then .refused
      else mantissa true rest
    else if c == 'e' || c == 'E' then .exponent point (c :: rest) rest
    else .plain point (c :: rest)

/-- Reads the digits of an exponent behind its mark; `sign` and `digits` tell what was read. -/
def exponentRest (sign digits : Bool) : Text → Option Text
  | [] => if digits then some [] else none
  | c :: rest =>
    if c == '+' || c == '-' then
      if digits then some (c :: rest) else if sign then none else exponentRest true digits rest
    else if c.isDigit then exponentRest sign true rest
    else if c == '_' then exponentRest sign digits rest
    else if digits then some (c :: rest) else none

/-- A number with a point or an exponent, without its suffix. -/
def fractionRest : Text → Option Text
  | [] => none
  | c :: rest =>
    if !c.isDigit then none
    else match mantissa false rest with
      | .refused => none
      | .plain point rest => if point then some rest else none
      | .exponent point mark rest =>
        match exponentRest false false rest with
        | some rest => some rest
        | none => if point then some mark else none

/-- Digits of the given base; `empty` tells whether none was read yet. A decimal digit that is
too large refuses the number, a letter that is too large ends it. -/
def digitsRest (base : Nat) (empty : Bool) : Text → Option Text
  | [] => if empty then none else some []
  | c :: rest =>
    match hexValue c with
    | some v =>
      if v < base then digitsRest base false rest
      else if c.isDigit || empty then none
      else some (c :: rest)
    | none =>
      if c == '_' then if empty && base == 10 then none else digitsRest base empty rest
      else if empty then none else some (c :: rest)

/-- A whole number without its suffix. -/
def wholeRest : Text → Option Text
  | '0' :: 'x' :: rest => digitsRest 16 true rest
  | '0' :: 'o' :: rest => digitsRest 8 true rest
  | '0' :: 'b' :: rest => digitsRest 2 true rest
  | s => digitsRest 10 true s

/-- A number takes the word that follows it as its suffix, and must not run into another one. -/
def finishNumber (s : Text) : Option Text :=
  let rest := passSuffix s
  if rest.head?.any Text.isWordChar then none else some rest

/-- Any number. -/
def numberRest (s : Text) : Option Text :=
  match (fractionRest s).bind finishNumber with
  | some rest => some rest
  | none => (wholeRest s).bind finishNumber

/-- What is left behind the literal that begins here. -/
def rest? (s : Text) : Option Text :=
  match quotationRest s with
  | some rest => some rest
  | none => numberRest s

end EnumTags.Literal

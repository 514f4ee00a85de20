import EnumTags.Grammar.Keyword
import EnumTags.Grammar.SyntaxError

/-!
# Reading tokens

A parser works on the lexemes that are left. The end of a group is an end like the end of the
input: no parser reads a closing bracket except `Parser.group`, which opened it.

Looking ahead is a plain function on the lexemes. Repetition is bounded by the number of lexemes
that are left, so that every parser is a total function.
-/

namespace EnumTags

/-! ## Looking ahead -/

namespace Ahead

/-- The next token. -/
def token? : List Lexeme → Option Token
  | [] => none
  | l :: _ => some l.token

/-- Whether the tokens, or those of the group, end here. -/
def atEnd (ls : List Lexeme) : Bool :=
  match token? ls with
  | none | some (.closing _) => true
  | _ => false

/-- Whether the keyword or plain identifier `w` stands here. -/
def word (w : Text) (ls : List Lexeme) : Bool := (token? ls).any (Token.isWord w)

/-- Whether one of the words stands here. -/
def anyWord (ws : List Text) (ls : List Lexeme) : Bool := ws.any (word · ls)

/-- Whether some identifier stands here, be it a keyword. -/
def anyIdent (ls : List Lexeme) : Bool :=
  match token? ls with
  | some (.ident _) => true
  | _ => false

/-- Whether a name stands here. -/
def name (ls : List Lexeme) : Bool :=
  match token? ls with
  | some (.ident i) => i.isName
  | _ => false

/-- Whether the operator stands here: its characters are joint, the last one may be joint with
something else. -/
def op : Text → List Lexeme → Bool
  | [], _ => false
  | [c], ⟨.punct d _, _⟩ :: _ => c == d
  | c :: cs, ⟨.punct d joint, _⟩ :: ls => c == d && joint && op cs ls
  | _, _ => false

/-- Whether one of the operators stands here. -/
def anyOp (os : List Text) (ls : List Lexeme) : Bool := os.any (op · ls)

/-- Whether a group opens here. -/
def opens (d : Delimiter) (ls : List Lexeme) : Bool := token? ls == some (.opening d)

/-- The lifetime that stands here. -/
def lifetime? : List Lexeme → Option Ident
  | ⟨.punct '\'' true, _⟩ :: ⟨.ident i, _⟩ :: _ => some i
  | _ => none

/-- Whether a lifetime stands here. -/
def lifetime (ls : List Lexeme) : Bool := (lifetime? ls).isSome

/-- Whether the literal is a number, which alone can have a sign. -/
def isNumber (s : Text) : Bool := s.head?.any Char.isDigit

/-- Whether the literal is a text in quotes. -/
def isString : Text → Bool
  | '"' :: _ => true
  | 'r' :: _ => true
  | _ => false

/-- Whether a text in quotes stands here. -/
def string : List Lexeme → Bool
  | ⟨.literal s, _⟩ :: _ => isString s
  | _ => false

/-- The literal that stands here, as tokens, and what is left behind it. A truth value and a
number with a sign count as literals. -/
def literal? : List Lexeme → Option (Tokens × List Lexeme)
  | ⟨.literal s, _⟩ :: rest => some ([.literal s], rest)
  | ⟨.ident i, _⟩ :: rest =>
    if i.isPlain "true" || i.isPlain "false" then some ([.ident i], rest) else none
  | ⟨.punct '-' _, _⟩ :: ⟨.literal s, _⟩ :: rest =>
    if isNumber s then some ([.punct '-' false, .literal s], rest) else none
  | _ => none

/-- Whether a literal stands here. -/
def literal (ls : List Lexeme) : Bool := (literal? ls).isSome

/-- Splits at the bracket that closes the group whose inside begins here, `depth` groups deep. -/
def splitGroup : Nat → List Lexeme → List Lexeme × List Lexeme
  | _, [] => ([], [])
  | depth, l :: rest =>
    match l.token, depth with
    | .closing _, 0 => ([], rest)
    | .closing _, depth + 1 => let (inside, rest) := splitGroup depth rest; (l :: inside, rest)
    | .opening _, depth => let (inside, rest) := splitGroup (depth + 1) rest; (l :: inside, rest)
    | _, depth => let (inside, rest) := splitGroup depth rest; (l :: inside, rest)

/-- What is left behind the next token; a group and a lifetime count as one. -/
def skip (ls : List Lexeme) : List Lexeme :=
  match ls with
  | [] => []
  | l :: rest =>
    match l.token with
    | .closing _ => []
    | .opening _ => (splitGroup 0 rest).2
    | .punct '\'' true => rest.drop 1
    | _ => rest

/-- What is left behind the next two tokens. -/
def skipTwo (ls : List Lexeme) : List Lexeme := skip (skip ls)

end Ahead

/-! ## Parsers -/

/-- The lexemes that are left, and the first group that was not read to its end, if any. -/
structure Cursor where
  rest : List Lexeme
  spill : Option Delimiter
deriving DecidableEq, Repr

/-- A parser of `α`. -/
abbrev Parser := StateT Cursor (Except SyntaxError)

namespace Parser

variable {α β : Type}

/-- The lexemes that are left. -/
def rest : Parser (List Lexeme) := do return (← get).rest

/-- Goes on with these lexemes. -/
def goOn (ls : List Lexeme) : Parser Unit := modify fun c => { c with rest := ls }

/-- Asks what stands ahead. -/
def peek (test : List Lexeme → Bool) : Parser Bool := do return test (← rest)

/-- Fails because none of the options stands here. -/
def expected (options : List Text) : Parser α := do
  throw (.expected options (Ahead.atEnd (← rest)))

/-- Fails because what follows breaks a rule. -/
def refuse (text : Text) : Parser α := do throw (.rule text (Ahead.atEnd (← rest)))

/-- Fails because what was read breaks a rule. -/
def reject (text : Text) : Parser α := throw (.rule text false)

/-- A word or operator in the wording of an error. -/
def quoted (s : Text) : Text := '`' :: (s ++ ['`'])

/-- Reads a keyword or a plain identifier that acts as one. -/
def word (w : Text) : Parser Tokens := do
  match ← rest with
  | l :: ls =>
    if l.token.isWord w then goOn ls; return [l.token] else expected [quoted w]
  | [] => expected [quoted w]

/-- What is left behind an operator that stands here. -/
def behindOp : Text → List Lexeme → List Lexeme
  | _ :: cs, _ :: ls => behindOp cs ls
  | _, ls => ls

/-- Reads an operator; its last character is no longer joint with what follows. A missing
operator is reported in the same words at the end of the input and elsewhere. -/
def op (o : Text) : Parser Tokens := do
  let ls ← rest
  if Ahead.op o ls then goOn (behindOp o ls); return Tokens.op o
  else throw (.expected [quoted o] false)

/-- Reads an identifier that is known to be a name. -/
def someName : Parser { i : Ident // i.isName = true } := do
  match ← rest with
  | ⟨.ident i, _⟩ :: ls =>
    if h : i.isName then goOn ls; return ⟨i, h⟩ else throw (.keyword i.text)
  | _ => expected ["identifier"]

/-- Reads a name. -/
def name : Parser Ident := do return (← someName).1

/-- Reads any identifier, be it a keyword. -/
def anyIdent : Parser Ident := do
  match ← rest with
  | ⟨.ident i, _⟩ :: ls => goOn ls; return i
  | _ => expected ["ident"]

/-- Reads a lifetime. -/
def lifetime : Parser Ident := do
  let ls ← rest
  match Ahead.lifetime? ls with
  | some i => goOn (ls.drop 2); return i
  | none => expected ["lifetime"]

/-- Reads a literal. -/
def literal : Parser Tokens := do
  match Ahead.literal? (← rest) with
  | some (ts, ls) => goOn ls; return ts
  | none => expected ["literal"]

/-- The name of a kind of group in the wording of an error. -/
def groupName : Delimiter → Text
  | .paren => "parentheses"
  | .bracket => "square brackets"
  | .brace => "curly braces"

/-- Leaves a group. What is left in it is skipped, and remembered if it is the first such case. -/
def leave (d : Delimiter) : Parser Unit := modify fun c =>
  match c.rest with
  | ⟨.closing _, _⟩ :: ls => { c with rest := ls }
  | ls => ⟨(Ahead.splitGroup 0 ls).2, c.spill.or (some d)⟩

/-- Reads a group, and its inside with `p`. -/
def group (d : Delimiter) (p : Parser α) : Parser α := do
  match ← rest with
  | l :: ls =>
    if l.token == .opening d then
      goOn ls
      let a ← p
      leave d
      return a
    else expected [groupName d]
  | [] => expected [groupName d]

/-- Reads a group to tokens. -/
def groupTokens (d : Delimiter) (p : Parser Tokens) : Parser Tokens := do
  return Tokens.enclose d (← group d p)

/-- Takes a group of any kind as it is written, with its inside. -/
def anyGroup : Parser (Delimiter × Tokens) := do
  match ← rest with
  | ⟨.opening d, _⟩ :: ls =>
    let (inside, ls) := Ahead.splitGroup 0 ls
    goOn ls
    return (d, Lexeme.tokens inside)
  | _ => expected ["delimiter"]

/-- Takes the tokens up to the end as they are written. -/
def remaining : Parser Tokens := do
  let ls ← rest
  let inside := (Ahead.splitGroup 0 ls).1
  goOn (ls.drop inside.length)
  return Lexeme.tokens inside

/-- Runs `p` and also gives the lexemes that it read. -/
def withSource (p : Parser α) : Parser (α × List Lexeme) := do
  let before ← rest
  let a ← p
  let after ← rest
  return (a, before.take (before.length - after.length))

/-- The tokens that were read since only `before` was left, as they are written. -/
def since (before : List Lexeme) : Parser Tokens := do
  return Lexeme.tokens (before.take (before.length - (← rest).length))

/-- Runs `p`; if it fails, nothing was read. -/
def attempt (p : Parser α) : Parser (Option α) := fun c =>
  match p c with
  | .ok (a, c) => .ok (some a, c)
  | .error _ => .ok (none, c)

/-- Runs the parsers in turn and joins their tokens. -/
def all : List (Parser Tokens) → Parser Tokens
  | [] => return []
  | p :: ps => do
    let ts ← p
    return ts ++ (← all ps)

/-- Runs `p` if the test holds. -/
def whenAhead (test : List Lexeme → Bool) (p : Parser Tokens) : Parser Tokens := do
  if ← peek test then p else return []

/-- Reads the word if it is there. -/
def wordIf (w : Text) : Parser Tokens := whenAhead (Ahead.word w) (word w)

/-- Reads the operator if it is there. -/
def opIf (o : Text) : Parser Tokens := whenAhead (Ahead.op o) (op o)

/-- A name as tokens. -/
def nameTokens : Parser Tokens := do return Tokens.ofIdent (← name)

/-- Any identifier as tokens. -/
def anyIdentTokens : Parser Tokens := do return Tokens.ofIdent (← anyIdent)

/-- A lifetime as tokens. -/
def lifetimeTokens : Parser Tokens := do return Tokens.lifetime (← lifetime)

end Parser

/-! ## Lists with separators -/

/-- Things that were written with separators between them; `trailing` tells whether one follows
the last of them. -/
structure Listed (α : Type) where
  items : List α
  trailing : Bool
deriving Repr

/-- Separated tokens. -/
def Listed.joined (separator : Tokens) : List Tokens → Bool → Tokens
  | [], _ => []
  | [ts], trailing => ts ++ (if trailing then separator else [])
  | ts :: rest, trailing => ts ++ separator ++ joined separator rest trailing

/-- The list as tokens, with its separators. -/
def Listed.tokens {α : Type} (separator : Tokens) (f : α → Tokens) (l : Listed α) : Tokens :=
  joined separator (l.items.map f) l.trailing

namespace Parser

variable {α : Type}

/-- Worker of `manyWhile`. -/
def manyLoop (test : List Lexeme → Bool) (p : Parser α) : (fuel : Nat) → Parser (List α)
  | 0 => throw .exhausted
  | fuel + 1 => do
    if ← peek test then
      let a ← p
      return a :: (← manyLoop test p fuel)
    else return []

/-- Repeats `p`, which reads at least one token, as long as the test holds. -/
def manyWhile (test : List Lexeme → Bool) (p : Parser α) : Parser (List α) := do
  manyLoop test p ((← rest).length + 1)

/-- Repeats `p` to the end and joins the tokens. -/
def manyToEnd (p : Parser Tokens) : Parser Tokens := do
  return (← manyWhile (fun ls => !Ahead.atEnd ls) p).flatten

/-- Worker of `listUntil`. -/
def listLoop (stop : List Lexeme → Bool) (separator : Text) (p : Parser α) :
    (fuel : Nat) → Parser (Listed α)
  | 0 => throw .exhausted
  | fuel + 1 => do
    if ← peek stop then return ⟨[], true⟩
    let a ← p
    if ← peek stop then return ⟨[a], false⟩
    let _ ← op separator
    let more ← listLoop stop separator p fuel
    return ⟨a :: more.items, more.trailing⟩

/-- Reads a list up to where `stop` holds; a separator is needed between items and allowed behind
the last one. -/
def listUntil (stop : List Lexeme → Bool) (separator : Text) (p : Parser α) :
    Parser (Listed α) := do
  listLoop stop separator p ((← rest).length + 1)

/-- Reads a list with commas to the end. -/
def listToEnd (p : Parser α) : Parser (Listed α) := listUntil Ahead.atEnd "," p

/-- Reads tokens with commas to the end. -/
def commaTokens (p : Parser Tokens) : Parser Tokens := do
  return (← listToEnd p).tokens (Tokens.op ",") id

/-- Worker of `chain`. -/
def chainLoop (goes : List Lexeme → Bool) (separator : Text) (p : Parser α) :
    (fuel : Nat) → Parser (Listed α)
  | 0 => throw .exhausted
  | fuel + 1 => do
    if !(← peek goes) then return ⟨[], true⟩
    let a ← p
    if !(← peek (Ahead.op separator)) then return ⟨[a], false⟩
    let _ ← op separator
    let more ← chainLoop goes separator p fuel
    return ⟨a :: more.items, more.trailing⟩

/-- Reads a list that goes on behind a separator only where `goes` holds, and ends at the first
item that no separator follows. -/
def chain (goes : List Lexeme → Bool) (separator : Text) (p : Parser α) : Parser (Listed α) := do
  chainLoop goes separator p ((← rest).length + 1)

/-- Like `chain`, but the first item is read in any case. -/
def chainFrom (goes : List Lexeme → Bool) (separator : Text) (p : Parser α) :
    Parser (Listed α) := do
  let a ← p
  if ← peek (Ahead.op separator) then
    let _ ← op separator
    let more ← chain goes separator p
    return ⟨a :: more.items, more.trailing⟩
  else return ⟨[a], false⟩

/-- Reads all lexemes with `p`. Tokens that are left over, in a group or at the end, are an error,
but only when nothing else is wrong. -/
def run (p : Parser α) (ls : List Lexeme) : Except SyntaxError α := do
  let (a, c) ← p ⟨ls, none⟩
  match c.spill, c.rest with
  | some d, _ => throw (.leftover (some d))
  | none, [] => return a
  | none, _ :: _ => throw (.leftover none)

end Parser

/-- The stretch of source from the first to the last of these lexemes. -/
def Span.ofLexemes (ls : List Lexeme) : Span :=
  match ls.head?, ls.getLast? with
  | some first, some last => ⟨first.span.start, last.span.stop⟩
  | _, _ => ⟨.start, .start⟩

end EnumTags

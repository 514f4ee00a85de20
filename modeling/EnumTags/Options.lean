import EnumTags.Grammar.Parser

/-!
# Options

The arguments of the attribute: a name for the module and a name for the projection method, each
given at most once, in any order, with commas between them.
-/

namespace EnumTags

/-- What the attribute asks for. Where a name is missing, one is derived from the enum. -/
structure Options where
  module : Option Ident
  method : Option Ident
deriving DecidableEq, Repr

namespace Options

open EnumTags.Parser

/-- Nothing is asked for. -/
def default : Options := ⟨none, none⟩

/-- Which argument stands here. -/
inductive Key where
  | module
  | method
deriving DecidableEq, Repr

/-- The argument that is already given for a key. -/
def get? (o : Options) : Key → Option Ident
  | .module => o.module
  | .method => o.method

/-- Gives the argument for a key. -/
def put (o : Options) : Key → Ident → Options
  | .module, i => { o with module := some i }
  | .method, i => { o with method := some i }

/-- Reads a key. -/
def key : Parser Key := do
  if ← peek (Ahead.word "module") then let _ ← word "module"; return .module
  else if ← peek (Ahead.word "method") then let _ ← word "method"; return .method
  else expected ["`module`", "`method`"]

/-- Reads arguments to the end, on top of those in `o`. A repeated one is refused after its value
was read. -/
def arguments : (fuel : Nat) → Options → Parser Options
  | 0, _ => throw .exhausted
  | fuel + 1, o => do
    if ← peek Ahead.atEnd then return o
    let k ← key
    let _ ← op "="
    let value ← name
    if (o.get? k).isSome then throw .repeated
    let o := o.put k value
    if ← peek Ahead.atEnd then return o
    let _ ← op ","
    arguments fuel o

/-- Reads the arguments of the attribute. -/
def read (ls : List Lexeme) : Except SyntaxError Options :=
  Parser.run (arguments (ls.length + 1) default) ls

end Options

end EnumTags

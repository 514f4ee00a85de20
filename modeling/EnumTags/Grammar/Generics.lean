import EnumTags.Grammar.Type

/-!
# Generic parameters

The parameters of a declaration and its `where` clause, in the three spellings in which they are
written: in full at the declaration, with bounds but without defaults behind `impl`, and as bare
names behind the name of the type. In all of them lifetimes come first.

`Generics.aliasFor` keeps the parameters that a type mentions, for an alias of that type.
-/

namespace EnumTags

/-- A generic parameter. Without bounds the bounds are empty. -/
inductive Param where
  | lifetime (attributes : Tokens) (name : Ident) (bounds : Tokens)
  | type (attributes : Tokens) (name : Ident) (bounds : Tokens) (default : Option Tokens)
  | const (attributes : Tokens) (name : Ident) (ty : Tokens) (default : Option Tokens)
deriving DecidableEq, Repr

namespace Param

/-- Whether the parameter is a lifetime. -/
def isLifetime : Param → Bool
  | lifetime .. => true
  | _ => false

/-- The name of the parameter as text; a lifetime keeps its quote. -/
def text : Param → Text
  | lifetime _ name _ => '\'' :: name.text
  | type _ name _ _ => name.text
  | const _ name _ _ => name.text

/-- Bounds behind their colon, which is left out when there are none. -/
def boundPart (bounds : Tokens) : Tokens := if bounds.isEmpty then [] else Tokens.op ":" ++ bounds

/-- A default behind its equals sign. -/
def defaultPart : Option Tokens → Tokens
  | none => []
  | some value => Tokens.op "=" ++ value

/-- The parameter without its default. -/
def bounded : Param → Tokens
  | lifetime attributes name bounds => attributes ++ Tokens.lifetime name ++ boundPart bounds
  | type attributes name bounds _ => attributes ++ Tokens.ofIdent name ++ boundPart bounds
  | const attributes name ty _ =>
    attributes ++ Tokens.word "const" Tokens.isSpelling_const ++ Tokens.ofIdent name ++ Tokens.op ":" ++ ty

/-- The parameter in full. -/
def declared : Param → Tokens
  | lifetime attributes name bounds => bounded (lifetime attributes name bounds)
  | type attributes name bounds default =>
    bounded (type attributes name bounds default) ++ defaultPart default
  | const attributes name ty default =>
    bounded (const attributes name ty default) ++ defaultPart default

/-- Only the name of the parameter. -/
def bare : Param → Tokens
  | lifetime _ name _ => Tokens.lifetime name
  | type _ name _ _ => Tokens.ofIdent name
  | const _ name _ _ => Tokens.ofIdent name

/-- The parameter without attributes, bounds and default. -/
def stripped : Param → Param
  | lifetime _ name _ => lifetime [] name []
  | type _ name _ _ => type [] name [] none
  | const _ name ty _ => const [] name ty none

end Param

/-- The generic parameters of a declaration. `angles` tells whether angle brackets are there, which
may be empty. -/
structure Generics where
  angles : Bool
  params : List Param
  trailing : Bool
  whereClause : Option Tokens
deriving DecidableEq, Repr

namespace Generics

/-- No parameters at all. -/
def empty : Generics := ⟨false, [], false, none⟩

/-- The parameters in angle brackets, each written by `f`; nothing if there are none. -/
def written (f : Param → Tokens) (g : Generics) : Tokens :=
  if g.params.isEmpty then []
  else Tokens.op "<" ++ lifetimesFirst (g.params.map fun p => (p.isLifetime, f p)) g.trailing ++
    Tokens.op ">"

/-- The parameters at a declaration. -/
def declared (g : Generics) : Tokens := g.written Param.declared

/-- The parameters behind `impl`. -/
def bounded (g : Generics) : Tokens := g.written Param.bounded

/-- The parameters as arguments of the declared type. -/
def bare (g : Generics) : Tokens := g.written Param.bare

/-- The `where` clause, which is left out when it is empty. -/
def wherePart (g : Generics) : Tokens :=
  match g.whereClause with
  | none | some [] => []
  | some predicates => Tokens.word "where" ++ predicates

/-! ## The parameters that a type mentions -/

/-- The identifiers among the tokens; one directly behind a quote is a lifetime and keeps the
quote. `quoted` tells whether such a quote was just read. -/
def mentions (quoted : Bool) : Tokens → List Text
  | [] => []
  | .ident i :: rest => (if quoted then '\'' :: i.text else i.text) :: mentions false rest
  | .punct c _ :: rest => mentions (c == '\'') rest
  | _ :: rest => mentions false rest

/-- The parameters whose names occur among the tokens of the type. -/
def mentionedIn (g : Generics) (ty : Ty) : List Param :=
  g.params.filter fun p => (mentions false ty.tokens).contains p.text

/-- The names of the parameters that the type mentions, each once. -/
def usedBy (g : Generics) (ty : Ty) : List Text := ((g.mentionedIn ty).map Param.text).eraseDups

/-- The parameters of an alias for the type: those that it mentions, reduced to their names, since
an alias enforces no bounds. -/
def aliasFor (g : Generics) (ty : Ty) : Generics :=
  let kept := (g.mentionedIn ty).map Param.stripped
  ⟨!kept.isEmpty, kept, false, none⟩

end Generics

end EnumTags

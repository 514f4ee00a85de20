import EnumTags.Grammar.Parser
import EnumTags.Token.Compact

/-!
# Types

The types that a declaration can mention, with all that their spelling depends on: separators at
the end of a list, the leading `::` of a path, the colons before angle brackets. `Ty.tokens`
writes a type with canonical spacing.

Expressions, macro arguments and the binders of lifetimes are kept as tokens, since nothing here
looks inside them.

A macro hands a type over in brackets that are not written, and an item that a macro makes can hold
types in them (`Ty.group`). Source has no such brackets, so none are ever read, and they leave no
trace in tokens, which are written without them.
-/

namespace EnumTags

mutual

/-- A type. -/
inductive Ty where
  /-- `[elem; length]` -/
  | array (elem : Ty) (length : Tokens)
  /-- `[elem]` -/
  | slice (elem : Ty)
  /-- An inline function type. The qualifiers are what stands before `fn`, and `rest` is the
  `...` of a function with further arguments. -/
  | function (qualifiers : Tokens) (params : List FnParam) (trailing : Bool) (rest : Tokens)
    (result : Option Ty)
  /-- `impl A + B` -/
  | implTrait (bounds : List Bound) (trailing : Bool)
  /-- `dyn A + B`, or the same without the keyword -/
  | object (keyword : Bool) (bounds : List Bound) (trailing : Bool)
  /-- `_` -/
  | infer
  /-- `!` -/
  | never
  /-- `path!(arguments)` -/
  | invocation (path : Tokens) (delimiter : Delimiter) (arguments : Tokens)
  /-- `(inner)` -/
  | paren (inner : Ty)
  /-- A type in brackets that are not written. -/
  | group (inner : Ty)
  /-- A path; `rooted` tells whether it begins with `::`. -/
  | path (rooted : Bool) (segments : List Segment)
  /-- `<self as trait>::rest`, where the trait may be missing -/
  | qualified (self : Ty) (rooted : Bool) (trait : List Segment) (rest : List Segment)
  /-- `*const target` or `*mut target` -/
  | pointer (mutable : Bool) (target : Ty)
  /-- `&'a mut target` -/
  | reference (lifetime : Option Ident) (mutable : Bool) (target : Ty)
  /-- `(A, B)` -/
  | tuple (elems : List Ty) (trailing : Bool)
  /-- A form that is only kept as it is written. -/
  | verbatim (tokens : Tokens)

/-- A parameter of a function type, with its attributes and its label. -/
inductive FnParam where
  | mk (attributes : Tokens) (label : Option Ident) (ty : Ty)

/-- A segment of a path. -/
inductive Segment where
  | mk (name : Ident) (arguments : Arguments)

/-- What follows the name of a segment. -/
inductive Arguments where
  | none
  /-- `<A, B>`, or `::<A, B>` -/
  | angle (colons : Bool) (args : List Argument) (trailing : Bool)
  /-- `(A, B) -> C` -/
  | paren (inputs : List Ty) (trailing : Bool) (result : Option Ty)

/-- An argument in angle brackets. -/
inductive Argument where
  | lifetime (l : Ident)
  | type (ty : Ty)
  | const (value : Tokens)
  /-- `Item = T` -/
  | assocType (name : Ident) (generics : Arguments) (ty : Ty)
  /-- `N = 3` -/
  | assocConst (name : Ident) (generics : Arguments) (value : Tokens)
  /-- `Item: Bound` -/
  | constraint (name : Ident) (generics : Arguments) (bounds : List Bound) (trailing : Bool)

/-- A bound: a trait, a lifetime, the list of captured parameters, or a form that is only kept as
it is written. -/
inductive Bound where
  | lifetime (l : Ident)
  /-- `?::a::B` or `for<'a> ::a::B`, in parentheses or not -/
  | trait (paren : Bool) (optional : Bool) (binder : Tokens) (rooted : Bool)
    (segments : List Segment)
  /-- `use<'a, T>` -/
  | captures (tokens : Tokens)
  | verbatim (tokens : Tokens)

end

instance : Inhabited Ty := ⟨.never⟩

/-- Items with a comma between them and possibly one behind the last, lifetimes first. An item
keeps the comma that was written behind it; if the last lifetime had none and something follows,
one is added. Each item comes with whether it is a lifetime. -/
def lifetimesFirst (items : List (Bool × Tokens)) (trailing : Bool) : Tokens :=
  let comma := Tokens.op ","
  let marked := items.zipIdx.map fun ((isLifetime, ts), i) =>
    (isLifetime, ts, trailing || i + 1 < items.length)
  let written (xs : List (Bool × Tokens × Bool)) : Tokens :=
    (xs.map fun (_, ts, hasComma) => ts ++ (if hasComma then comma else [])).flatten
  let lifetimes := marked.filter (·.1)
  let others := marked.filter (!·.1)
  let gap := match lifetimes.getLast? with
    | some (_, _, false) => if others.isEmpty then [] else comma
    | _ => []
  written lifetimes ++ gap ++ written others

/-- Whether an argument is a lifetime. -/
def Argument.isLifetime : Argument → Bool
  | .lifetime _ => true
  | _ => false

mutual

/-- The type as tokens. -/
def Ty.tokens : Ty → Tokens
  | .array elem length =>
    Tokens.enclose .bracket (elem.tokens ++ Tokens.op ";" ++ length)
  | .slice elem => Tokens.enclose .bracket elem.tokens
  | .function qualifiers params trailing rest result =>
    let comma := if rest.isEmpty || params.isEmpty || trailing then [] else Tokens.op ","
    qualifiers ++ Tokens.word "fn" ++
      Tokens.enclose .paren
        (Listed.joined (Tokens.op ",") (FnParam.tokenLists params) trailing ++ comma ++ rest) ++
      Ty.resultTokens result
  | .implTrait bounds trailing =>
    Tokens.word "impl" ++ Listed.joined (Tokens.op "+") (Bound.tokenLists bounds) trailing
  | .object keyword bounds trailing =>
    (if keyword then Tokens.word "dyn" else []) ++
      Listed.joined (Tokens.op "+") (Bound.tokenLists bounds) trailing
  | .infer => Tokens.word "_"
  | .never => Tokens.op "!"
  | .invocation path delimiter arguments =>
    path ++ Tokens.op "!" ++ Tokens.enclose delimiter arguments
  | .paren inner => Tokens.enclose .paren inner.tokens
  | .group inner => inner.tokens
  | .path rooted segments => (if rooted then Tokens.op "::" else []) ++ Segment.pathTokens segments
  | .qualified self rooted trait rest =>
    Tokens.op "<" ++ self.tokens ++
      (if trait.isEmpty then Tokens.op ">" ++ Tokens.op "::"
        else Tokens.word "as" ++ (if rooted then Tokens.op "::" else []) ++
          Segment.pathTokens trait ++ Tokens.op ">" ++ Tokens.op "::") ++
      Segment.pathTokens rest
  | .pointer mutable target =>
    Tokens.op "*" ++ (if mutable then Tokens.word "mut" else Tokens.word "const") ++ target.tokens
  | .reference lifetime mutable target =>
    Tokens.op "&" ++ (match lifetime with | some l => Tokens.lifetime l | none => []) ++
      (if mutable then Tokens.word "mut" else []) ++ target.tokens
  | .tuple elems trailing =>
    Tokens.enclose .paren
      (Listed.joined (Tokens.op ",") (Ty.tokenLists elems) (trailing || elems.length == 1))
  | .verbatim tokens => tokens

/-- The types, each as tokens. -/
def Ty.tokenLists : List Ty → List Tokens
  | [] => []
  | t :: ts => t.tokens :: Ty.tokenLists ts

/-- The result of a function, with its arrow. -/
def Ty.resultTokens : Option Ty → Tokens
  | .none => []
  | .some t => Tokens.op "->" ++ t.tokens

/-- The parameters, each as tokens. -/
def FnParam.tokenLists : List FnParam → List Tokens
  | [] => []
  | .mk attributes label ty :: ps =>
    (attributes ++
        (match label with | some i => Tokens.ofIdent i ++ Tokens.op ":" | none => []) ++
        ty.tokens) :: FnParam.tokenLists ps

/-- The segments of a path with `::` between them. -/
def Segment.pathTokens : List Segment → Tokens
  | [] => []
  | [.mk name arguments] => Tokens.ofIdent name ++ arguments.tokens
  | .mk name arguments :: rest =>
    Tokens.ofIdent name ++ arguments.tokens ++ Tokens.op "::" ++ Segment.pathTokens rest

/-- What follows the name of a segment, as tokens. -/
def Arguments.tokens : Arguments → Tokens
  | .none => []
  | .angle colons args trailing =>
    (if colons then Tokens.op "::" else []) ++ Tokens.op "<" ++
      lifetimesFirst (Argument.tokenLists args) trailing ++ Tokens.op ">"
  | .paren inputs trailing result =>
    Tokens.enclose .paren (Listed.joined (Tokens.op ",") (Ty.tokenLists inputs) trailing) ++
      Ty.resultTokens result

/-- The arguments, each as tokens and with whether it is a lifetime. -/
def Argument.tokenLists : List Argument → List (Bool × Tokens)
  | [] => []
  | .lifetime l :: args => (true, Tokens.lifetime l) :: Argument.tokenLists args
  | .type ty :: args => (false, ty.tokens) :: Argument.tokenLists args
  | .const value :: args => (false, value) :: Argument.tokenLists args
  | .assocType name generics ty :: args =>
    (false, Tokens.ofIdent name ++ generics.tokens ++ Tokens.op "=" ++ ty.tokens) ::
      Argument.tokenLists args
  | .assocConst name generics value :: args =>
    (false, Tokens.ofIdent name ++ generics.tokens ++ Tokens.op "=" ++ value) ::
      Argument.tokenLists args
  | .constraint name generics bounds trailing :: args =>
    (false, Tokens.ofIdent name ++ generics.tokens ++ Tokens.op ":" ++
      Listed.joined (Tokens.op "+") (Bound.tokenLists bounds) trailing) ::
      Argument.tokenLists args

/-- The bounds, each as tokens. -/
def Bound.tokenLists : List Bound → List Tokens
  | [] => []
  | .lifetime l :: bounds => Tokens.lifetime l :: Bound.tokenLists bounds
  | .trait paren optional binder rooted segments :: bounds =>
    let inside := (if optional then Tokens.op "?" else []) ++ binder ++
      (if rooted then Tokens.op "::" else []) ++ Segment.pathTokens segments
    (if paren then Tokens.enclose .paren inside else inside) :: Bound.tokenLists bounds
  | .captures tokens :: bounds => tokens :: Bound.tokenLists bounds
  | .verbatim tokens :: bounds => tokens :: Bound.tokenLists bounds

end

/-- Whether the last token is a closing curly bracket. -/
def Tokens.endInBrace (ts : Tokens) : Bool := ts.getLast? == some (.closing .brace)

mutual

/-- Whether the last part of the type is in curly brackets. -/
def Ty.endsInBrace : Ty → Bool
  | .function _ _ _ _ (some result) => result.endsInBrace
  | .implTrait bounds _ => Bound.lastEndsInBrace bounds
  | .object _ bounds _ => Bound.lastEndsInBrace bounds
  | .invocation _ delimiter _ => delimiter == .brace
  | .path _ segments => Segment.lastEndsInBrace segments
  | .pointer _ target => target.endsInBrace
  | .reference _ _ target => target.endsInBrace
  | .verbatim tokens => tokens.endInBrace
  | _ => false

/-- Whether the last bound ends in curly brackets. -/
def Bound.lastEndsInBrace : List Bound → Bool
  | [] => false
  | [.trait _ _ _ _ segments] => Segment.lastEndsInBrace segments
  | [.verbatim tokens] => tokens.endInBrace
  | [_] => false
  | _ :: bounds => Bound.lastEndsInBrace bounds

/-- Whether the result type of the last segment ends in curly brackets. -/
def Segment.lastEndsInBrace : List Segment → Bool
  | [] => false
  | [.mk _ (.paren _ _ (some result))] => result.endsInBrace
  | [_] => false
  | _ :: segments => Segment.lastEndsInBrace segments

end

/-- Bounds with `+` between them, as tokens. -/
def Listed.boundTokens (bounds : Listed Bound) : Tokens :=
  Listed.joined (Tokens.op "+") (Bound.tokenLists bounds.items) bounds.trailing

/-- What a payload is to the generator: a type with a name, an inline function, or another. -/
inductive TypeText where
  | named (text : Text)
  | function (params : List Text) (result : Option Text) (source : Text)
  | other (text : Text)
deriving DecidableEq, Repr

/-- The text of the whole type. -/
def TypeText.text : TypeText → Text
  | named text => text
  | function _ _ source => source
  | other text => text

/-- The types of the parameters as compact texts. -/
def FnParam.texts : List FnParam → List Text
  | [] => []
  | .mk _ _ ty :: ps => ty.tokens.compact :: FnParam.texts ps

/-- Sorts a type, with the brackets around it taken off, whether they are written or not. -/
def Ty.classify : Ty → TypeText
  | .paren inner => inner.classify
  | .group inner => inner.classify
  | .function qualifiers params trailing rest result =>
    .function (FnParam.texts params) (result.map fun t => t.tokens.compact)
      (Ty.tokens (.function qualifiers params trailing rest result)).compact
  | .path rooted segments => .named (Ty.tokens (.path rooted segments)).compact
  | .qualified self rooted trait rest =>
    .named (Ty.tokens (.qualified self rooted trait rest)).compact
  | t => .other t.tokens.compact

end EnumTags

import EnumTags.Grammar.MemberRules

/-!
# Reading items

`Rules.anyItem` reads an item of any kind. Enums are taken apart; other items are read to tokens,
and those with no settled form, such as a function without a body, are kept as they are written.
-/

namespace EnumTags.Rules

open EnumTags.Parser

/-- An item that was read but has no place in the source yet. -/
inductive Draft where
  | enum (e : EnumItem)
  | product (name : Placed) (tokens : Tokens)
  | module (name : Placed) (tokens : Tokens) (items : List Plain)
  | named (name : Placed) (tokens : Tokens)
  | unnamed (tokens : Tokens)
  | verbatim

/-- Gives an item the place of the lexemes it was read from. -/
def Draft.place (d : Draft) (source : List Lexeme) : Item :=
  let span := Span.ofLexemes source
  match d with
  | .enum e => .enum { e with span := span }
  | .product name tokens => .product ⟨some name, tokens, span⟩
  | .module name tokens items => .module ⟨some name, tokens, span⟩ items
  | .named name tokens => .other ⟨some name, tokens, span⟩
  | .unnamed tokens => .other ⟨none, tokens, span⟩
  | .verbatim => .other ⟨none, Lexeme.tokens source, span⟩

/-! ## Fields and variants -/

/-- A name with its place. -/
def placedName : Parser { p : Placed // p.ident.isName = true } := do
  let (i, source) ← withSource someName
  return ⟨⟨i.1, Span.ofLexemes source⟩, i.2⟩

/-- A field without a label. -/
def tupleField (r : Rules) : Parser Field := do
  let (f, source) ← withSource do
    let attributes ← r.attributes
    let visibility ← visibility
    return (attributes, visibility, ← r.ty true)
  let (attributes, visibility, ty) := f
  return ⟨attributes, visibility, none, ty, Span.ofLexemes source⟩

/-- Whether a structure or union without a name stands here. -/
def startsNameless (ls : List Lexeme) : Bool :=
  Ahead.word "struct" ls || (Ahead.word "union" ls && Ahead.opens .brace (Ahead.skip ls))

/-- A field with a label, given a parser for the fields of a structure without a name. Such a
structure can be the type of a field whose label is an underscore, and is kept as it is written. -/
def recordFieldWith (r : Rules) (nested : Parser Unit) : Parser Field := do
  let (f, source) ← withSource do
    let attributes ← r.attributes
    let visibility ← visibility
    let isBlank ← peek (Ahead.word "_")
    let label ← if isBlank then anyIdent else name
    let _ ← op ":"
    let ls ← rest
    let ty ← if isBlank && startsNameless ls then do
        let _ ← anyIdent
        nested
        pure (.verbatim (← since ls))
      else r.ty true
    return (attributes, visibility, label, ty)
  let (attributes, visibility, label, ty) := f
  return ⟨attributes, visibility, some label, ty, Span.ofLexemes source⟩

/-- Passes over fields in curly brackets in which such fields nest at most `fuel` times. -/
def passFields (r : Rules) : (fuel : Nat) → Parser Unit
  | 0 => throw .exhausted
  | fuel + 1 => do
    let _ ← group .brace (listToEnd (recordFieldWith r (passFields r fuel)))

/-- A field with a label. -/
def recordField (r : Rules) : Parser Field := do
  recordFieldWith r (passFields r ((← rest).length + 1))

/-- Fields in curly brackets. -/
def recordFields (r : Rules) : Parser Fields := do
  let (fields, source) ← withSource (group .brace (listToEnd (recordField r)))
  return .record fields (Span.ofLexemes source)

/-- Fields in parentheses. -/
def tupleFields (r : Rules) : Parser Fields := do
  let (fields, source) ← withSource (group .paren (listToEnd (tupleField r)))
  return .tuple fields (Span.ofLexemes source)

/-- A variant. A visibility before its name is allowed but has no meaning, and is dropped. -/
def variant (r : Rules) : Parser Variant := do
  let (attributes, before) ← withSource r.attributes
  let _ ← visibility
  let (parts, behind) ← withSource do
    let head ← placedName
    let fields ← if ← peek (Ahead.opens .brace) then recordFields r
      else if ← peek (Ahead.opens .paren) then tupleFields r
      else pure .unit
    let discriminant ← if ← peek (Ahead.op "=") then do
        let _ ← op "="
        some <$> r.exprTokens true
      else pure none
    return (head, fields, discriminant)
  let (head, fields, discriminant) := parts
  return ⟨attributes, head.1, head.2, fields, discriminant, Span.ofLexemes (before ++ behind)⟩

/-- An enum behind its attributes. -/
def enumItem (r : Rules) (attributes : Tokens) : Parser Draft := do
  let visibility ← visibility
  let _ ← word "enum"
  let head ← placedName
  let generics ← r.generics
  let whereClause ← r.whereClause
  let variants ← group .brace (listToEnd (variant r))
  return .enum ⟨attributes, visibility, head.1, head.2,
    { generics with whereClause := whereClause }, variants, ⟨.start, .start⟩⟩

/-! ## Structures -/

/-- The body of a structure, and its `where` clause before or behind it. -/
def structBody (r : Rules) : Parser Tokens := do
  let ls ← rest
  let hasWhere := Ahead.word "where" ls
  let before := (← r.whereClause)
  let whereTokens (clause : Option Tokens) : Tokens :=
    Generics.wherePart { Generics.empty with whereClause := clause }
  let ls ← rest
  if !hasWhere && Ahead.opens .paren ls then
    let fields ← tupleFields r
    let behind ← r.whereClause
    if ← peek (Ahead.op ";") then
      return fields.tokens ++ whereTokens behind ++ (← op ";")
    else if behind.isSome then expected ["`;`"]
    else expected ["`where`", "`;`"]
  else if Ahead.opens .brace ls then return whereTokens before ++ (← recordFields r).tokens
  else if Ahead.op ";" ls then return whereTokens before ++ (← op ";")
  else if hasWhere then expected ["curly braces", "`;`"]
  else expected ["`where`", "parentheses", "curly braces", "`;`"]

/-- A structure. -/
def structItem (r : Rules) (attributes : Tokens) : Parser Draft := do
  let head ← all [visibility, word "struct"]
  let i ← placed name
  let generics ← r.generics
  let body ← structBody r
  return .product i (attributes ++ head ++ Tokens.ofIdent i.ident ++ generics.declared ++ body)

/-- A union. -/
def unionItem (r : Rules) (attributes : Tokens) : Parser Draft := do
  let head ← all [visibility, word "union"]
  let i ← placed name
  let body ← all [genericTokens r, whereTokens r, (do return (← recordFields r).tokens)]
  return .named i (attributes ++ head ++ Tokens.ofIdent i.ident ++ body)

/-! ## Functions, constants, statics and aliases -/

/-- A function. Without a body it is kept as it is written. -/
def fnItem (r : Rules) (attributes : Tokens) : Parser Draft := do
  let visibility ← visibility
  let head ← fnHead r false
  if ← peek (Ahead.op ";") then
    let _ ← op ";"
    return .verbatim
  let body ← r.block true
  return .named head.name (attributes ++ visibility ++ head.tokens ++ body)

/-- A constant. With generic parameters, or without a value, it is kept as it is written. -/
def constItem (r : Rules) (attributes : Tokens) : Parser Draft := do
  let head ← all [visibility, word "const"]
  if !(← peek startsConstName) then expected ["identifier", "`_`"]
  let c ← constParts r
  if c.isGeneric || c.value.isNone then return .verbatim
  else return .named c.name (attributes ++ head ++ c.tokens)

/-- A static. Without a type or without a value it is kept as it is written. -/
def staticItem (r : Rules) (attributes : Tokens) : Parser Draft := do
  let head ← all [visibility, word "static", wordIf "mut"]
  let i ← placed name
  if ← peek (Ahead.op "=") then
    let _ ← all [op "=", r.exprTokens true, op ";"]
    return .verbatim
  let ty ← all [op ":", r.tyTokens]
  if ← peek (Ahead.op ";") then
    let _ ← op ";"
    return .verbatim
  let value ← all [op "=", r.exprTokens true, op ";"]
  return .named i (attributes ++ head ++ Tokens.ofIdent i.ident ++ ty ++ value)

/-- A type alias. With bounds, or without a type, it is kept as it is written. -/
def typeItem (r : Rules) (attributes : Tokens) : Parser Draft := do
  let head ← all [visibility, word "type"]
  let t ← aliasParts r .before
  match t.bounds, t.target with
  | none, some target =>
    return .named t.name (attributes ++ head ++ Tokens.ofIdent t.name.ident ++ t.generics ++
      t.conditions ++ target ++ Tokens.op ";")
  | _, _ => return .verbatim

/-! ## Traits and implementations -/

/-- A trait from its bounds on. -/
def traitRest (r : Rules) : Parser Tokens := do
  let bounds ← if ← peek (Ahead.op ":") then do
      let _ ← op ":"
      let stop (ls : List Lexeme) : Bool := Ahead.word "where" ls || Ahead.opens .brace ls
      pure (Param.boundPart (← boundsUntil r .declared stop))
    else pure []
  return bounds ++ (← all [whereTokens r, membersBody r (traitMember r)])

/-- A trait with qualifiers. -/
def qualifiedTraitItem (r : Rules) (attributes : Tokens) : Parser Draft := do
  let head ← all [visibility, wordIf "unsafe", wordIf "auto", word "trait"]
  let i ← placed name
  let generics ← genericTokens r
  return .named i (attributes ++ head ++ Tokens.ofIdent i.ident ++ generics ++ (← traitRest r))

/-- A trait, or an alias of traits, which has no name of its own. -/
def traitItem (r : Rules) (attributes : Tokens) : Parser Draft := do
  let head ← all [visibility, word "trait"]
  let i ← placed name
  let generics ← genericTokens r
  let whole (more : Tokens) : Tokens :=
    attributes ++ head ++ Tokens.ofIdent i.ident ++ generics ++ more
  let ls ← rest
  if Ahead.opens .brace ls || Ahead.op ":" ls || Ahead.word "where" ls then
    return .named i (whole (← traitRest r))
  else if Ahead.op "=" ls then
    let equals ← op "="
    let stop (ls : List Lexeme) : Bool := Ahead.word "where" ls || Ahead.op ";" ls
    let bounds ← boundsUntil r .object stop
    return .unnamed (whole (equals ++ bounds ++ (← all [whereTokens r, op ";"])))
  else expected ["curly braces", "`:`", "`where`", "`=`"]

/-- Whether a type can be the trait of an implementation. -/
def namesTrait : Ty → Bool
  | .path .. => true
  | _ => false

/-- An implementation. With a visibility, at compile time, or of something that is no trait, it is
kept as it is written. -/
def implItem (r : Rules) (attributes : Tokens) : Parser Draft := do
  let hasVisibility := !(← visibility).isEmpty
  let head ← all [wordIf "default", wordIf "unsafe", word "impl"]
  let generics ← if ← peek startsGenerics then genericTokens r else pure []
  let isConst ← peek fun ls =>
    Ahead.word "const" ls || (Ahead.op "?" ls && Ahead.word "const" (Ahead.skip ls))
  if isConst then let _ ← all [opIf "?", word "const"]
  let polarity ← whenAhead (fun ls => Ahead.op "!" ls && !Ahead.opens .brace (Ahead.skip ls))
    (op "!")
  let first ← r.ty true
  let hasTrait ← peek (Ahead.word "for")
  if !hasTrait && !polarity.isEmpty then reject "inherent impls cannot be negative"
  let target ← if hasTrait then all [word "for", r.tyTokens] else pure []
  let body ← all [whereTokens r, membersBody r (implMember r)]
  if hasVisibility || isConst || (hasTrait && !namesTrait first) then return .verbatim
  let whole := attributes ++ head ++ generics ++ polarity ++ first.tokens ++ target ++ body
  return .unnamed whole

/-! ## Modules, imports and macros -/

/-- A module. -/
def moduleItem (r : Rules) (attributes : Tokens) : Parser Draft := do
  let head ← all [visibility, wordIf "unsafe", word "mod"]
  let i ← placed (do if ← peek (Ahead.word "try") then anyIdent else name)
  let whole (more : Tokens) : Tokens := attributes ++ head ++ Tokens.ofIdent i.ident ++ more
  if ← peek (Ahead.op ";") then return .module i (whole (← op ";")) []
  else if ← peek (Ahead.opens .brace) then
    let (inner, items) ← group .brace (do
      let inner ← r.innerAttributes
      let items ← manyWhile (fun ls => !Ahead.atEnd ls) r.item
      return (inner, items.map Item.plain))
    return .module i
      (whole (Tokens.enclose .brace (inner ++ (items.map Plain.tokens).flatten))) items
  else expected ["`;`", "curly braces"]

/-- One tree of an import, and whether one of the paths in it begins anew with `::`, which is
allowed where `fresh` holds; `depth` bounds how deep its groups nest. -/
def useTree : (depth : Nat) → (fresh : Bool) → Parser (Tokens × Bool)
  | 0, _ => throw .exhausted
  | depth + 1, fresh => do
    let ls ← rest
    if Ahead.name ls || Ahead.anyWord ["self", "super", "crate", "try"] ls then
      let head ← anyIdentTokens
      if ← peek (Ahead.op "::") then
        let colons ← op "::"
        let (tree, _) ← useTree depth false
        return (head ++ colons ++ tree, false)
      else if ← peek (Ahead.word "as") then
        let renamed ← word "as"
        if ← peek startsConstName then return (head ++ renamed ++ (← anyIdentTokens), false)
        else refuse "expected identifier or underscore"
      else return (head, false)
    else if Ahead.op "*" ls then return (← op "*", false)
    else if Ahead.opens .brace ls then
      let trees ← group .brace (listToEnd do
        let root ← if fresh then opIf "::" else pure []
        let (tree, inner) ← useTree depth (fresh && root.isEmpty)
        return (root ++ tree, inner || !root.isEmpty))
      return (Tokens.enclose .brace (trees.tokens (Tokens.op ",") (·.1)), trees.items.any (·.2))
    else expected ["identifier", "`self`", "`super`", "`crate`", "`try`", "`*`", "curly braces"]

/-- An import. If a path inside a group begins anew, it is kept as it is written. -/
def useItem (attributes : Tokens) : Parser Draft := do
  let head ← all [visibility, word "use"]
  let root ← opIf "::"
  let (tree, hasRoot) ← useTree ((← rest).length + 1) root.isEmpty
  let semicolon ← op ";"
  if hasRoot then return .verbatim
  else return .unnamed (attributes ++ head ++ root ++ tree ++ semicolon)

/-- An import of a whole library. -/
def externCrateItem (attributes : Tokens) : Parser Draft := do
  let head ← all [visibility, word "extern", word "crate",
    (do if ← peek (Ahead.word "self") then word "self" else nameTokens),
    whenAhead (Ahead.word "as") (all [word "as",
      (do if ← peek (Ahead.word "_") then word "_" else nameTokens)]),
    op ";"]
  return .unnamed (attributes ++ head)

/-- A block of foreign items. -/
def foreignItem (r : Rules) (attributes : Tokens) : Parser Draft := do
  let head ← all [wordIf "unsafe", conventionTokens]
  return .unnamed (attributes ++ head ++ (← membersBody r (foreignMember r)))

/-- A macro in the place of an item, with the name that may follow its exclamation mark. -/
def macroItem (attributes : Tokens) : Parser Draft := do
  let tokens ← all [plainPath, op "!",
    whenAhead (fun ls => Ahead.name ls || Ahead.word "try" ls) anyIdentTokens, macroArguments]
  return .unnamed (attributes ++ tokens)

/-- A macro of the second kind, which is kept as it is written. -/
def declaredMacro : Parser Draft := do
  let _ ← visibility
  let _ ← all [word "macro", nameTokens]
  let hasParen ← peek (Ahead.opens .paren)
  if hasParen then let _ ← anyGroup
  if ← peek (Ahead.opens .brace) then
    let _ ← anyGroup
    return .verbatim
  else if hasParen then expected ["curly braces"]
  else expected ["parentheses", "curly braces"]

/-! ## Items -/

/-- Fails because none of the options stands at `ls`. An option that does stand there, but not with
what it needs behind it, is not mentioned. -/
def expectedAt {α : Type} (ls : List Lexeme) (options : List Text) : Parser α :=
  let named := match Ahead.token? ls with
    | some (.ident i) => quoted i.text
    | _ => []
  throw (.expected (options.filter (· != named)) (Ahead.atEnd ls))

/-- What an item can begin with, in the wording of an error. -/
def itemStarts : List Text :=
  (["`fn`", "`extern`", "`use`", "`static`", "`const`", "`unsafe`", "`mod`", "`type`", "`struct`",
    "`enum`", "`union`", "`trait`", "`auto`", "`impl`", "`default`", "`macro`"] :
    List String).map String.toList

/-- An item that begins with `extern`; `ls` is what follows the keyword. -/
def externItem (r : Rules) (attributes : Tokens) (ls : List Lexeme) : Parser Draft :=
  if Ahead.word "crate" ls then externCrateItem attributes
  else if Ahead.opens .brace ls then foreignItem r attributes
  else if Ahead.string ls then
    if Ahead.opens .brace (Ahead.skip ls) then foreignItem r attributes
    else expectedAt (Ahead.skip ls) ["curly braces"]
  else expectedAt ls ["`crate`", "curly braces", "string literal"]

/-- An item other than a function that begins with `unsafe`; `ls` is what follows the keyword. -/
def unsafeItem (r : Rules) (attributes : Tokens) (ls : List Lexeme) : Parser Draft :=
  if Ahead.word "trait" ls || (Ahead.word "auto" ls && Ahead.word "trait" (Ahead.skip ls)) then
    qualifiedTraitItem r attributes
  else if Ahead.word "impl" ls then implItem r attributes
  else if Ahead.word "extern" ls then foreignItem r attributes
  else if Ahead.word "mod" ls then moduleItem r attributes
  else expectedAt ls ["`trait`", "`auto`", "`impl`", "`extern`", "`mod`"]

/-- An item behind its attributes; `ls` is what follows its visibility. -/
def itemBehind (r : Rules) (attributes : Tokens) (isPublic : Bool) (ls : List Lexeme) :
    Parser Draft :=
  let behind := Ahead.skip ls
  if startsFunction false ls then fnItem r attributes
  else if Ahead.word "extern" ls then externItem r attributes behind
  else if Ahead.word "use" ls then useItem attributes
  else if Ahead.word "static" ls then staticItem r attributes
  else if Ahead.word "const" ls then constItem r attributes
  else if Ahead.word "unsafe" ls then unsafeItem r attributes behind
  else if Ahead.word "mod" ls then moduleItem r attributes
  else if Ahead.word "type" ls then typeItem r attributes
  else if Ahead.word "struct" ls then structItem r attributes
  else if Ahead.word "enum" ls then enumItem r attributes
  else if Ahead.word "union" ls && Ahead.name behind then unionItem r attributes
  else if Ahead.word "trait" ls then traitItem r attributes
  else if Ahead.word "auto" ls && Ahead.word "trait" behind then qualifiedTraitItem r attributes
  else if Ahead.word "impl" ls || (Ahead.word "default" ls && !Ahead.op "!" behind) then
    implItem r attributes
  else if Ahead.word "macro" ls then declaredMacro
  else if !isPublic && startsMacro ls then macroItem attributes
  else expectedAt ls (itemStarts ++ (if isPublic then [] else macroStarts))

/-- An item. -/
def anyItem (r : Rules) : Parser Item := do
  let (draft, source) ← withSource do
    let attributes ← r.attributes
    let before ← get
    let v ← visibility
    let ls ← rest
    set before
    itemBehind r attributes (!v.isEmpty) ls
  return draft.place source

end EnumTags.Rules

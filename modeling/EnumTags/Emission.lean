import EnumTags.Grammar.Reader
import EnumTags.Options
import EnumTags.Plan
import EnumTags.Text.LetterCase
import EnumTags.Token.Template

/-!
# Generated source

`Emission` is what is generated for an enum, with all names turned back into identifiers and all
alias targets into types. `emit` makes it from the planned declarations, and fails where a name
cannot be an identifier, a target cannot be read, or a variant would hide an associated item.
`Emission.tokens` writes it: a module with the aliases and the enum without payloads, and behind it
the implementations that project onto that enum.
-/

namespace EnumTags

/-- The name of the module for an enum of this name. -/
def Ident.moduleName (i : Ident) : Except Rejection Ident :=
  let snake := Text.snakeCase i.name
  match Ident.revive? snake with
  | some m => .ok m
  | none => .error (.synthesisFailed snake)

/-- An identifier from its text. -/
def Ident.revive (s : Text) : Except Rejection Ident :=
  match Ident.revive? s with
  | some i => .ok i
  | none => .error (.synthesisFailed s)

/-- An alias to be generated. -/
structure AliasCode where
  name : Ident
  generics : Generics
  target : Ty

/-- A variant of the enum without payloads: its identifier, the name it reports, and the note on
what the source variant carries. -/
structure TagCode where
  ident : Ident
  label : Text
  payload : Text
deriving DecidableEq, Repr

/-- The enum without payloads. -/
structure TagEnumCode where
  name : Ident
  variants : List TagCode
deriving DecidableEq, Repr

/-- An arm of the projection. -/
structure ArmCode where
  variant : Ident
  shape : Shape
  target : Ident
deriving DecidableEq, Repr

/-- The projection and what comes with it. -/
structure ProjectionCode where
  method : Ident
  target : Ident
  arms : List ArmCode
deriving DecidableEq, Repr

/-- All that is generated for an enum. -/
structure Emission where
  item : EnumItem
  module : Ident
  aliases : List AliasCode
  tags : Option TagEnumCode
  projection : Option ProjectionCode

/-! ## From planned declarations -/

/-- Names of associated items that a variant of the same name would hide. -/
def reservedNames : List Text := ["ALL", "COUNT", "iter", "index", "name", "payload"]

/-- An alias with the generic parameters that its target needs. -/
def Alias.emit (item : EnumItem) (a : Alias) : Except Rejection AliasCode := do
  let name ← Ident.revive a.name
  match Ty.ofText? a.target.text with
  | some target => return ⟨name, item.generics.aliasFor target, target⟩
  | none => throw (.synthesisFailed a.name)

/-- A variant, unless its name is reserved. -/
def TagVariant.emit (v : TagVariant) : Except Rejection TagCode := do
  if reservedNames.contains v.name then throw (.synthesisFailed v.name)
  let ident ← Ident.revive v.name
  return ⟨ident, Text.withoutRawMarks v.name, Text.trim v.annotation⟩

/-- The enum without payloads. -/
def TagEnum.emit (e : TagEnum) : Except Rejection TagEnumCode := do
  let name ← Ident.revive e.name
  return ⟨name, ← e.variants.mapM TagVariant.emit⟩

/-- An arm of the projection. -/
def Arm.emit (a : Arm) : Except Rejection ArmCode := do
  let variant ← Ident.revive a.variant
  return ⟨variant, a.shape, ← Ident.revive a.target⟩

/-- The projection, under the name that was asked for or under its own. -/
def Projection.emit (o : Options) (p : Projection) : Except Rejection ProjectionCode := do
  let method ← match o.method with
    | some method => .ok method
    | none => Ident.revive p.name
  let target ← Ident.revive p.targetType
  return ⟨method, target, ← p.arms.mapM Arm.emit⟩

/-- Adds a planned declaration. Aliases collect, of the others the last one counts. -/
def Emission.add (o : Options) (m : Emission) : Planned → Except Rejection Emission
  | .alias a => do return { m with aliases := m.aliases ++ [← a.emit m.item] }
  | .tags e => do return { m with tags := some (← e.emit) }
  | .projection p => do return { m with projection := some (← p.emit o) }

/-- What is generated for an enum. -/
def emit (item : EnumItem) (o : Options) (decls : List Planned) : Except Rejection Emission := do
  let module ← match o.module with
    | some module => .ok module
    | none => item.name.ident.moduleName
  decls.foldlM (Emission.add o) ⟨item, module, [], none, none⟩

/-! ## To tokens -/

open Tokens

/-- An alias. -/
def AliasCode.tokens (a : AliasCode) : Tokens :=
  annotate (code "allow" ++ enclose .paren (code "non_camel_case_types")) ++
    code "pub type" ++ ofIdent a.name ++ a.generics.declared ++ op "=" ++ a.target.tokens ++ op ";"

namespace TagEnumCode

/-- The declaration of the enum. -/
def declaration (e : TagEnumCode) : Tokens :=
  rawDoc " Payload-free mirror of the annotated enum, one variant per source variant." ++
    annotate (code "derive" ++ enclose .paren
      (code "Debug , Clone , Copy , PartialEq , Eq , Hash , PartialOrd , Ord")) ++
    (code "pub enum" ++ ofIdent e.name ++
      enclose .brace
        (e.variants.flatMap fun v => doc (' ' :: v.payload) ++ ofIdent v.ident ++ op ","))

/-- The list of all variants. -/
def allEntries (e : TagEnumCode) : Tokens :=
  Listed.joined (op ",") (e.variants.map fun v => ofIdent e.name ++ op "::" ++ ofIdent v.ident) false

/-- A match that gives a text for each variant. -/
def textMatch (e : TagEnumCode) (f : TagCode → Text) : Tokens :=
  code "match self" ++ enclose .brace
    (e.variants.flatMap fun v =>
      code "Self ::" ++ ofIdent v.ident ++ op "=>" ++ quoted (f v) ++ op ",")

/-- The number of variants. -/
def countItem (e : TagEnumCode) : Tokens :=
  code "pub const COUNT : usize =" ++ count e.variants.length ++ op ";"

/-- All variants. -/
def allItem (e : TagEnumCode) : Tokens :=
  code "pub const ALL :" ++
    enclose .bracket (ofIdent e.name ++ op ";" ++ count e.variants.length) ++ op "=" ++
    enclose .bracket e.allEntries ++ op ";"

/-- The iterator over all variants. -/
def iterItem (e : TagEnumCode) : Tokens :=
  code "pub fn iter" ++ enclose .paren [] ++
    code "-> impl :: core :: iter :: Iterator < Item =" ++ ofIdent e.name ++ op ">" ++
    enclose .brace (code "Self :: ALL . into_iter" ++ enclose .paren [])

/-- The position of a variant. -/
def indexItem : Tokens :=
  code "pub const fn index" ++ enclose .paren (code "self") ++ code "-> usize" ++
    enclose .brace (code "self as usize")

/-- A function that gives a text for each variant. -/
def textItem (e : TagEnumCode) (signature : Tokens) (f : TagCode → Text) : Tokens :=
  code "pub const fn" ++ signature ++ enclose .paren (code "self") ++ code "-> & 'static str" ++
    enclose .brace (e.textMatch f)

/-- The associated items of the enum, with their documentation. -/
def associatedItems (e : TagEnumCode) : List Tokens :=
  [e.countItem,
    rawDoc " Every variant in declaration order", e.allItem,
    e.iterItem,
    rawDoc " Position of the variant in declaration order", indexItem,
    e.textItem (code "name") TagCode.label,
    rawDoc " Payload type of the source variant", e.textItem (code "payload") TagCode.payload]

/-- The implementation with the associated items. -/
def associated (e : TagEnumCode) : Tokens :=
  code "impl" ++ ofIdent e.name ++ enclose .brace e.associatedItems.flatten

/-- How values of the enum are shown. -/
def shown (e : TagEnumCode) : Tokens :=
  code "impl :: core :: fmt :: Display for" ++ ofIdent e.name ++ enclose .brace
    (code "fn fmt" ++
      enclose .paren (code "& self , f : & mut :: core :: fmt :: Formatter < '_ >") ++
      code "-> :: core :: fmt :: Result" ++
      enclose .brace (code "f . write_str" ++
        enclose .paren (code "self . name" ++ enclose .paren [])))

/-- The enum with its implementations. -/
def tokens (e : TagEnumCode) : Tokens := e.declaration ++ e.associated ++ e.shown

end TagEnumCode

/-- The pattern of an arm. -/
def ArmCode.pattern (a : ArmCode) : Tokens :=
  code "Self ::" ++ ofIdent a.variant ++
    (match a.shape with
      | .unit => []
      | .tuple => enclose .paren (op "..")
      | .record => enclose .brace (op ".."))

/-- An arm of the projection into the given module. -/
def ArmCode.tokens (module target : Ident) (a : ArmCode) : Tokens :=
  a.pattern ++ op "=>" ++ ofIdent module ++ op "::" ++ ofIdent target ++ op "::" ++
    ofIdent a.target ++ op ","

namespace ProjectionCode

/-- The enum with its generic parameters. -/
def self (item : EnumItem) : Tokens := ofIdent item.name.ident ++ item.generics.bare

/-- The enum without payloads, seen from outside its module. -/
def targetPath (module : Ident) (p : ProjectionCode) : Tokens :=
  ofIdent module ++ op "::" ++ ofIdent p.target

/-- A call of the projection. -/
def call (p : ProjectionCode) : Tokens := op "." ++ ofIdent p.method ++ enclose .paren []

/-- The projection. -/
def projectionItem (module : Ident) (p : ProjectionCode) : Tokens :=
  code "fn" ++ ofIdent p.method ++ enclose .paren (code "& self") ++ op "->" ++
    p.targetPath module ++ enclose .brace
      (code "match self" ++ enclose .brace (p.arms.flatMap (ArmCode.tokens module p.target)))

/-- The comparison of variants. -/
def comparisonItem (p : ProjectionCode) : Tokens :=
  code "fn is_same_variant" ++ enclose .paren (code "& self , other : & Self") ++ code "-> bool" ++
    enclose .brace (code "self" ++ p.call ++ op "==" ++ code "other" ++ p.call)

/-- The projection and the comparison of variants, with their documentation. -/
def methodItems (item : EnumItem) (module : Ident) (p : ProjectionCode) : List Tokens :=
  [rawDoc " The variant of `self` with its payload stripped.", annotate (code "must_use"),
    item.visibility, p.projectionItem module,
    rawDoc " Whether both values are the same variant, ignoring payloads.",
    item.visibility, p.comparisonItem]

/-- The implementation with the projection. -/
def methods (item : EnumItem) (module : Ident) (p : ProjectionCode) : Tokens :=
  code "impl" ++ (item.generics.bounded ++ self item ++ item.generics.wherePart) ++
    enclose .brace (p.methodItems item module).flatten

/-- The implementation with the conversion. -/
def conversion (item : EnumItem) (module : Ident) (p : ProjectionCode) : Tokens :=
  code "impl" ++ (item.generics.bounded ++ code ":: core :: convert :: From < &" ++ self item ++
    code "> for" ++ p.targetPath module ++ item.generics.wherePart) ++ enclose .brace
      (code "fn from" ++ enclose .paren (code "value : &" ++ self item) ++ code "-> Self" ++
        enclose .brace (code "value" ++ p.call))

/-- The implementations behind the module. -/
def tokens (item : EnumItem) (module : Ident) (p : ProjectionCode) : Tokens :=
  p.methods item module ++ p.conversion item module

end ProjectionCode

namespace Emission

/-- The module with the aliases and the enum without payloads. -/
def moduleTokens (m : Emission) : Tokens :=
  m.item.visibility ++ code "mod" ++ ofIdent m.module ++ enclose .brace
    (annotate (code "allow" ++ enclose .paren (code "unused_imports")) ++
      code "use super :: * ;" ++ m.aliases.flatMap AliasCode.tokens ++
      (match m.tags with | some e => e.tokens | none => []))

/-- All that is generated. -/
def tokens (m : Emission) : Tokens :=
  m.moduleTokens ++
    (match m.projection with | some p => p.tokens m.item m.module | none => [])

end Emission

end EnumTags

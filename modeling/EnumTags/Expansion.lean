import EnumTags.Diagnosis
import EnumTags.Emission
import EnumTags.Outline.OfItem

/-!
# Expansion

What the attribute makes of the item that it stands before. The item itself is kept as it is
written; behind it come the generated items, or an error that says why there are none. Only an item
that cannot be read is left out.
-/

namespace EnumTags

instance : Inhabited Span := ⟨⟨.start, .start⟩⟩

/-- The errors that diagnoses become. -/
def Diagnosis.compileErrors {σ : Type} (ds : List (Diagnosis σ)) : Tokens :=
  ds.flatMap fun d => Tokens.compileError d.rendered

/-- What an attribute makes of an item. -/
inductive Expansion where
  /-- The arguments of the attribute could not be read. -/
  | badArguments (item : Tokens) (e : SyntaxError)
  /-- The item could not be read. -/
  | badItem (e : SyntaxError)
  /-- The item was rejected. -/
  | rejected (item : Tokens) (diagnoses : List (Diagnosis Span))
  /-- The outline of the item could not be worked with. -/
  | malformed (item : Tokens) (m : Malformed)
  /-- The items behind the enum were generated. -/
  | generated (item : Tokens) (m : Emission)

/-- The expansion as tokens. -/
def Expansion.tokens : Expansion → Tokens
  | badArguments item e => item ++ Tokens.compileError e.message
  | badItem e => Tokens.compileError e.message
  | rejected item diagnoses => item ++ Diagnosis.compileErrors diagnoses
  | malformed item m => item ++ Tokens.compileError m.message
  | generated item m => item ++ m.tokens

/-- Reports a rejection of the item. -/
def Expansion.reject (source : Tokens) (t : Outline Span) (e : Rejection) : Expansion :=
  match t.report e with
  | .ok diagnoses => .rejected source diagnoses
  | .error m => .malformed source m

/-- Expands an item that could be read. -/
def expandItem (o : Options) (source : Tokens) (item : Item) : Expansion :=
  let t := Outline.ofItem item
  match t.generate with
  | .error m => .malformed source m
  | .ok (.diagnosed diagnoses) => .rejected source diagnoses
  | .ok (.planned decls) =>
    match item with
    | .enum e =>
      match emit e o decls with
      | .ok m => .generated source m
      | .error e => .reject source t e
    | _ => .reject source t (.notASum Outline.root)

/-- Expands an item under an attribute. -/
def expand (arguments item : List Lexeme) : Expansion :=
  match Options.read arguments with
  | .error e => .badArguments (Lexeme.tokens item) e
  | .ok o =>
    match Item.read item with
    | .error e => .badItem e
    | .ok parsed => expandItem o (Lexeme.tokens item) parsed

end EnumTags

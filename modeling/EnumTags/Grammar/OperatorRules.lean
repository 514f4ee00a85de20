import EnumTags.Grammar.PatternRules

/-!
# Binary operators

Operands are joined by operators in the order of their precedence. The order itself leaves no trace
in the tokens, but it decides where an operand ends, which comparisons follow each other, and that
a range is the left operand of nothing.
-/

namespace EnumTags.Rules

open EnumTags.Parser

/-- The binary operators with their precedence. One that begins with another comes before it. -/
def binaryOperators : List (String × Precedence) :=
  [("+=", .assign), ("-=", .assign), ("*=", .assign), ("/=", .assign), ("%=", .assign),
   ("^=", .assign), ("&=", .assign), ("|=", .assign), ("<<=", .assign), (">>=", .assign),
   ("&&", .both), ("||", .either), ("<<", .shift), (">>", .shift), ("==", .compare),
   ("<=", .compare), ("!=", .compare), (">=", .compare), ("+", .sum), ("-", .sum),
   ("*", .product), ("/", .product), ("%", .product), ("^", .bitXor), ("&", .bitAnd),
   ("|", .bitOr), ("<", .compare), (">", .compare)]

/-- The binary operator that stands here. -/
def operator? (ls : List Lexeme) : Option (Text × Precedence) :=
  (binaryOperators.map fun (o, p) => (o.toList, p)).find? fun (o, _) => Ahead.op o ls

/-- Whether an assignment stands here. -/
def startsAssign (ls : List Lexeme) : Bool := Ahead.op "=" ls && !Ahead.op "=>" ls

/-- The precedence of the operator that stands here; the loosest one if none does. -/
def upcoming (ls : List Lexeme) : Precedence :=
  match operator? ls with
  | some (_, p) => p
  | none =>
    if startsAssign ls then .assign
    else if Ahead.op ".." ls then .range
    else if Ahead.word "as" ls then .cast
    else .jump

/-- Whether a dot stands here that is not the mark of a range. -/
def startsDot (ls : List Lexeme) : Bool := Ahead.op "." ls && !Ahead.op ".." ls

/-- Whether nothing follows the mark of a range that does not include its end. -/
def endsRange (structs : Bool) (ls : List Lexeme) : Bool :=
  Ahead.atEnd ls || startsDot ls || (!structs && Ahead.opens .brace ls) || Ahead.word "as" ls ||
    Ahead.anyOp [",", ";", "?", "=>", "=", "+", "/", "%", "^", ">", "<=", "!=", "-=", "*=", "&=",
      "|=", "<<="] ls

/-- Refuses a postfix behind a cast. -/
def checkCast : Parser Unit := do
  let ls ← rest
  let behind := Ahead.skip ls
  let call := Ahead.skip behind
  let refuseIt (what : Text) : Parser Unit :=
    refuse (("casts cannot be followed by " : Text) ++ what)
  if startsDot ls then
    if Ahead.word "await" behind then refuseIt "`.await`"
    else if Ahead.name behind && (Ahead.opens .paren call || Ahead.op "::" call) then
      refuseIt "a method call"
    else refuseIt "a field access"
  else if Ahead.op "?" ls then refuseIt "`?`"
  else if Ahead.opens .bracket ls then refuseIt "indexing"
  else if Ahead.opens .paren ls then refuseIt "a function call"

mutual

/-- Joins `left` with what follows as long as the operators bind at least as tightly as `base`. -/
def climb (r : Rules) (structs : Bool) : (fuel : Nat) → (base : Precedence) → (left : Expr) →
    Parser Expr
  | 0, _, _ => throw .exhausted
  | fuel + 1, base, left => do
    if left.form == .range then return left
    let ls ← rest
    match operator? ls with
    | some (o, p) =>
      if p.rank < base.rank then return left
      let compares := p == .compare
      if compares && left.form == .comparison then
        refuse "comparison operators cannot be chained"
      let operator ← op o
      let right ← operand r structs fuel p
      climb r structs fuel base
        (.binary (if compares then .comparison else .plain) left operator right)
    | none =>
      if base.rank ≤ Precedence.assign.rank && startsAssign ls then
        let operator ← op "="
        let right ← operand r structs fuel .assign
        climb r structs fuel base (.binary .plain left operator right)
      else if base.rank ≤ Precedence.range.rank && Ahead.op ".." ls then
        let (includesEnd, mark) ← rangeMark
        if !includesEnd && endsRange structs (← rest) then return .range left.tokens mark none
        else return .range left.tokens mark (some (← operand r structs fuel .range))
      else if Ahead.word "as" ls then
        let operator ← word "as"
        let ty ← r.ty false
        checkCast
        climb r structs fuel base
          (.binary .plain left operator ⟨ty.tokens, .plain, false, ty.endsInBrace⟩)
      else return left

/-- The right operand of an operator of precedence `p`. -/
def operand (r : Rules) (structs : Bool) : (fuel : Nat) → (p : Precedence) → Parser Expr
  | 0, _ => throw .exhausted
  | fuel + 1, p => do
    let e ← r.unary structs
    operandRest r structs fuel p e

/-- Joins the right operand `e` of an operator of precedence `p` with what binds more tightly. -/
def operandRest (r : Rules) (structs : Bool) : (fuel : Nat) → (p : Precedence) → (e : Expr) →
    Parser Expr
  | 0, _, _ => throw .exhausted
  | fuel + 1, p, e => do
    let next := upcoming (← rest)
    if e.form != .range && (p.rank < next.rank || (next == p && p == .assign)) then
      let e ← climb r structs fuel next e
      operandRest r structs fuel p e
    else return e

end

/-- More steps than operators can take: each of them takes three. -/
def operatorFuel : Parser Nat := do return 4 * (← rest).length + 4

/-- Joins an operand with the operators and operands that follow it. -/
def climbFrom (r : Rules) (structs : Bool) (base : Precedence) (left : Expr) : Parser Expr := do
  climb r structs (← operatorFuel) base left

/-- An expression. -/
def anyExpr (r : Rules) (structs : Bool) : Parser Expr := do
  let left ← r.unary structs
  climbFrom r structs .jump left

/-- A range without a start. -/
def rangeExpr (r : Rules) (structs : Bool) : Parser Expr := do
  let (includesEnd, mark) ← rangeMark
  if !includesEnd && endsRange structs (← rest) then return .range [] mark none
  else return .range [] mark (some (← operand r structs (← operatorFuel) .range))

end EnumTags.Rules

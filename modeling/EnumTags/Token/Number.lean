import EnumTags.Token.Literal

/-!
# The value of a whole number

A field without a label is named by its position, written as a whole number. `whole?` takes the
spelling of a number apart into its value and its suffix, and `position` reads a position from it.
-/

namespace EnumTags.Number

/-- Whether an exponent stands behind its mark: a sign, or a digit. -/
def hasExponent (s : Text) : Bool :=
  let digits := s.takeWhile fun c => c.isDigit || c == '_'
  digits.any Char.isDigit ||
    (s.drop digits.length).head?.any fun c => c == '+' || c == '-'

/-- The value of a digit; letters are digits only in a base above ten. -/
def digitValue (base : Nat) (c : Char) : Option Nat :=
  if c.isDigit || 10 < base then Literal.hexValue c else none

/-- Reads digits of the given base; `value` is what was read before, if anything. A number with a
point or an exponent is not whole. -/
def digits (base : Nat) (value : Option Nat) : Text → Option (Nat × Text)
  | [] => value.map (·, [])
  | c :: rest =>
    if c == '_' then digits base value rest
    else if base == 10 && c == '.' then none
    else if base == 10 && (c == 'e' || c == 'E') && hasExponent rest then none
    else match digitValue base c with
      | some v => if v < base then digits base (some (value.getD 0 * base + v)) rest else none
      | none => value.map (·, c :: rest)

/-- The value and the suffix of a whole number. -/
def whole? : Text → Option (Nat × Text)
  | '0' :: 'x' :: rest => digits 16 none rest
  | '0' :: 'o' :: rest => digits 8 none rest
  | '0' :: 'b' :: rest => digits 2 none rest
  | s => digits 10 none s

/-- Why a number is no position. -/
inductive PositionError where
  | notWhole
  | suffixed
  | signed
  | tooLarge
deriving DecidableEq, Repr

/-- The wording of the reason. -/
def PositionError.message : PositionError → Text
  | notWhole => "expected integer literal"
  | suffixed => "expected unsuffixed integer"
  | signed => "invalid digit found in string"
  | tooLarge => "number too large to fit in target type"

/-- The position that a number stands for; `signed` tells that a minus sign stands before it.
Positions fit into 32 bits. -/
def position (signed : Bool) (s : Text) : Except PositionError Nat :=
  match whole? s with
  | none => .error .notWhole
  | some (_, _ :: _) => .error .suffixed
  | some (n, []) =>
    if signed then .error .signed else if n < UInt32.size then .ok n else .error .tooLarge

/-- The positions in a number with a point, such as the two in `0.1`, and whether it ends in the
point. -/
def positions (signed : Bool) (s : Text) : Except PositionError (List Nat × Bool) := do
  let (whole, fraction) := s.span (· != '.')
  let first ← position signed whole
  match fraction with
  | [] => return ([first], false)
  | _ :: [] => return ([first], true)
  | _ :: fraction => return ([first, ← position false fraction], false)

end EnumTags.Number

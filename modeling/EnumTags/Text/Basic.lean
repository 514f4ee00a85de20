/-!
# Text

A text is the list of its characters. Reading source, squeezing blanks out of it and lining up
columns all look at characters one by one, so the list is the form in which the whole library
works; strings appear only at its border.

A blank is a character with the Unicode property `White_Space`. Larger classes of characters are
tables of runs: code points from a first to a last one at a fixed distance. Many cased alphabets
alternate upper and lower case, hence the distance.
-/

namespace EnumTags

/-- A text, as the list of its characters. -/
abbrev Text := List Char

instance : Coe String Text := ⟨String.toList⟩

namespace Text

/-! ## Replacing, measuring, joining -/

/-- Worker of `replace`: `skip` characters of an occurrence that was just replaced remain to be
passed over. -/
def replaceAfter (old new : Text) : Nat → Text → Text
  | _, [] => []
  | skip + 1, _ :: rest => replaceAfter old new skip rest
  | 0, c :: rest =>
    if old.isPrefixOf (c :: rest) then new ++ replaceAfter old new (old.length - 1) rest
    else c :: replaceAfter old new 0 rest

/-- Replaces every occurrence of the nonempty text `old`, from left to right and without looking
again at what was put in. -/
def replace (old new s : Text) : Text := replaceAfter old new 0 s

/-- The decimal digits of `n`. -/
def ofNat (n : Nat) : Text := Nat.toDigits 10 n

/-- How many bytes the text takes in UTF-8. -/
def byteSize (s : Text) : Nat := (s.map Char.utf8Size).foldr (· + ·) 0

/-- Fills the text up with blanks to `width` characters; a longer text stays whole. -/
def padRight (width : Nat) (s : Text) : Text := s ++ List.replicate (width - s.length) ' '

/-- Joins texts with `separator` between neighbours. -/
def joinWith (separator : Text) : List Text → Text
  | [] => []
  | [s] => s
  | s :: rest => s ++ separator ++ joinWith separator rest

/-! ## Blanks -/

/-- Whether `c` is white space. -/
def isBlank (c : Char) : Bool :=
  let n := c.toNat
  n == 32 || (9 ≤ n && n ≤ 13) || n == 0x85 || n == 0xa0 || n == 0x1680 ||
    (0x2000 ≤ n && n ≤ 0x200a) || n == 0x2028 || n == 0x2029 || n == 0x202f || n == 0x205f ||
    n == 0x3000

/-- The text without the blanks at its ends. -/
def trim (s : Text) : Text :=
  ((s.dropWhile isBlank).reverse.dropWhile isBlank).reverse

/-! ## Runs of characters -/

/-- The code points `first`, `first + step`, and so on up to `last`. -/
structure Run where
  first : Nat
  last : Nat
  step : Nat

namespace Run

/-- Whether the code point of `c` lies on the run. -/
def has (r : Run) (c : Char) : Bool :=
  r.first ≤ c.toNat && c.toNat ≤ r.last && (c.toNat - r.first) % r.step == 0

/-- Whether `c` lies on one of the runs. -/
def anyHas (runs : List Run) (c : Char) : Bool := runs.any (·.has c)

end Run

end Text

end EnumTags

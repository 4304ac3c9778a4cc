import GateGrid.Number.Shortest

/-!
# How numbers are written

A style settles what the digits of a number leave open: which of two equally near decimals is
written, which sizes are written without an exponent, and whether a whole number keeps a point.

* `Style.text`: the text of a finite number in a style.
* `Binary64.display`: the text of any number in the plain style, which knows no exponents.
-/

namespace GateGrid

/-- A way of writing numbers. -/
structure Style where
  /-- The choice between two equally near decimals. -/
  tie : Tie
  /-- The sizes that are written without an exponent, a size being the power of ten that belongs to
      the first digit. -/
  positional : Int → Bool
  /-- A whole number written without an exponent ends in `.0`. -/
  keepsPoint : Bool

namespace Style

/-- The digits with a point behind those that stand for whole numbers, and with as many zeros as
    that takes. -/
def pointed (style : Style) (digits : List Char) (size : Int) : List Char :=
  let whole :=
    if size < 0 then ['0']
    else digits.take (size.toNat + 1) ++ List.replicate (size.toNat + 1 - digits.length) '0'
  let fraction :=
    if size < 0 then List.replicate (-size - 1).toNat '0' ++ digits
    else digits.drop (size.toNat + 1)
  if !fraction.isEmpty then whole ++ '.' :: fraction
  else if style.keepsPoint then whole ++ ['.', '0']
  else whole

/-- The digits with a point behind the first one, if there are others, and then the power of ten
    with its sign. -/
def scientific (digits : List Char) (size : Int) : List Char :=
  let lead := digits.take 1 ++ (if digits.length ≤ 1 then [] else '.' :: digits.drop 1)
  lead ++ ['e', if size < 0 then '-' else '+'] ++ Nat.toDigits 10 size.natAbs

/-- The text of a decimal in a style. Zeros at the end of its coefficient are not written as
    digits, and zero itself has the size of a single digit. -/
def decimalText (style : Style) (d : Decimal) : List Char :=
  let digits := (d.digits.reverse.dropWhile (· == '0')).reverse
  let size : Int := if d.coefficient = 0 then 0 else d.exponent + (d.digits.length - 1 : Nat)
  if style.positional size then style.pointed digits size else scientific digits size

/-- The text of a finite number in a style: the sign and the digits that read back. -/
def text (style : Style) (a : Binary64) : List Char :=
  (if a.negative then ['-'] else []) ++ style.decimalText (a.shortest style.tie)

/-- The style of texts for people: never an exponent, and no point after a whole number. -/
def plain : Style where
  tie := .away
  positional := fun _ => true
  keepsPoint := false

end Style

namespace Binary64

/-- The text of a number for people. -/
def display (a : Binary64) : String :=
  if a.isFinite then String.ofList (Style.plain.text a)
  else if a.isNaN then "NaN"
  else if a.negative then "-inf"
  else "inf"

end Binary64

end GateGrid

import GateGrid.Number.Binary64

/-!
# Decimal numbers and the binary numbers nearest to them

A decimal is a coefficient and a power of ten. Reading it as a binary number rounds it to the
nearest one, and halfway between two neighbours to the one whose last bit is 0.

* `divHalfEven`: the rounded quotient of two natural numbers.
* `nearestMagnitude`: the magnitude nearest to a quotient, as if there were no largest one.
* `Decimal.magnitude?`: the magnitude nearest to a decimal, unless it is not finite.
* `Binary64.exactDecimal`: the decimal that is exactly a given binary number.
-/

namespace GateGrid

/-- A natural number times a power of ten. -/
structure Decimal where
  /-- The number of units. -/
  coefficient : Nat
  /-- The power of ten that is the unit. -/
  exponent : Int
  deriving DecidableEq

/-- The quotient of two natural numbers rounded to the nearest natural number, a half to the even
    neighbour. -/
def divHalfEven (num den : Nat) : Nat :=
  let floor := num / den
  let rest := num % den
  if 2 * rest < den then floor
  else if den < 2 * rest then floor + 1
  else floor + floor % 2

/-- The magnitude nearest to the quotient `num / den`, halfway cases to the even one.

    The least positive value is the unit of measure. Doubling the unit `scale` times leaves less
    than `2 ^ 53` units, and each doubling takes the magnitude one binade up. -/
def nearestMagnitude (num den : Nat) : Nat :=
  let scale := ((num <<< Binary64.places) / den).log2 - 52
  scale * Binary64.binade + divHalfEven (num <<< Binary64.places) (den <<< scale)

namespace Decimal

/-- The magnitude nearest to a decimal, or none if that is not finite.

    Two bounds keep the powers of ten small. From `10 ^ 311` on nothing is finite. And as the
    coefficient is below `10 ^ (log2 coefficient + 1)`, an exponent that far below `-330` makes the
    value less than half of the least positive one. -/
def magnitude? (d : Decimal) : Option Nat :=
  if d.coefficient = 0 then some 0
  else if 310 < d.exponent then none
  else if d.exponent + (d.coefficient.log2 + 1 : Nat) < -330 then some 0
  else
    let magnitude :=
      nearestMagnitude (d.coefficient * Nat.pow 10 d.exponent.toNat)
        (Nat.pow 10 (-d.exponent).toNat)
    if magnitude < Binary64.infiniteMagnitude then some magnitude else none

end Decimal

namespace Binary64

/-- The number with the given sign that is nearest to a decimal, or none if that is not finite. -/
def ofDecimal? (negative : Bool) (d : Decimal) : Option Binary64 :=
  match d.magnitude? with
  | none => none
  | some magnitude =>
    if h : magnitude < 0x8000000000000000 then some ⟨negative, magnitude, h⟩ else none

/-- The decimal that is exactly the absolute value of a finite number. -/
def exactDecimal (a : Binary64) : Decimal :=
  if a.isZero then ⟨0, 0⟩
  else if places ≤ a.scale then ⟨a.significand <<< (a.scale - places), 0⟩
  else ⟨a.significand * Nat.pow 5 (places - a.scale), -(places - a.scale : Nat)⟩

end Binary64

end GateGrid

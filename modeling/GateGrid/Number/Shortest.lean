import GateGrid.Number.Decimal

/-!
# The fewest digits that read back

A binary number is written with the fewest decimal digits from which it can be read back. Among the
decimals with that many digits only the two neighbours of the number matter, one on each side: if
any decimal of that length reads back, so does one of them. The nearer one is taken, and a rule is
needed only where both are equally near.

* `Decimal.cutDown`, `Decimal.cutUp`: the two neighbours without a given number of digits.
* `Binary64.shortest`: the decimal that is written for a finite number.
-/

namespace GateGrid

/-- Which of two neighbouring decimals is written when the number lies halfway between them. -/
inductive Tie
  /-- The one whose last digit is even. -/
  | even
  /-- The one further away from zero. -/
  | away
  deriving DecidableEq

namespace Decimal

/-- The digits of the coefficient, without leading zeros. -/
def digits (d : Decimal) : List Char := Nat.toDigits 10 d.coefficient

/-- The decimal without its last `cut` digits: of those with that unit, the largest not above. -/
def cutDown (d : Decimal) (cut : Nat) : Decimal :=
  ⟨d.coefficient / Nat.pow 10 cut, d.exponent + cut⟩

/-- The next decimal above `d.cutDown cut` with the same unit. -/
def cutUp (d : Decimal) (cut : Nat) : Decimal :=
  ⟨d.coefficient / Nat.pow 10 cut + 1, d.exponent + cut⟩

/-- The nearer one of the two neighbours of a decimal that lack its last `cut` digits. -/
def cutNear (tie : Tie) (d : Decimal) (cut : Nat) : Decimal :=
  let unit := Nat.pow 10 cut
  let rest := d.coefficient % unit
  if 2 * rest < unit then d.cutDown cut
  else if unit < 2 * rest then d.cutUp cut
  else match tie with
    | .away => d.cutUp cut
    | .even => if d.coefficient / unit % 2 = 0 then d.cutDown cut else d.cutUp cut

end Decimal

namespace Binary64

/-- A decimal is read as the absolute value of the number. -/
def readsFrom (a : Binary64) (d : Decimal) : Bool :=
  d.magnitude? == some a.magnitude

/-- The decimal that is written for a number with the last `cut` digits of its exact value left
    out, if a neighbour without them reads back. -/
def shortenBy? (tie : Tie) (a : Binary64) (exact : Decimal) (cut : Nat) : Option Decimal :=
  match a.readsFrom (exact.cutDown cut), a.readsFrom (exact.cutUp cut) with
  | true, true => some (exact.cutNear tie cut)
  | true, false => some (exact.cutDown cut)
  | false, true => some (exact.cutUp cut)
  | false, false => none

/-- The decimal that is written for the absolute value of a finite number: of those that read back
    one with the fewest digits, and of these the nearest. Seventeen digits are always enough; the
    exact value, which has all of them, stands at the end of the search. -/
def shortest (tie : Tie) (a : Binary64) : Decimal :=
  let exact := a.exactDecimal
  let length := exact.digits.length
  ((List.range 17).findSome? fun i => a.shortenBy? tie exact (length - (i + 1))).getD exact

end Binary64

end GateGrid

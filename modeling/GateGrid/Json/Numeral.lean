import GateGrid.Json.Reader
import GateGrid.Number.Decimal

/-!
# Numbers in JSON text

A numeral is a sign, digits without a leading zero, and perhaps a fraction and an exponent.

* `Reader.numeral`: takes a numeral.
* `Reader.skipNumeral`: takes a numeral whose value is of no interest.
* `Reader.number`: takes a numeral that is finite as a binary number.

That a numeral is read as the number nearest to it is an assumption about the JSON library: it
rounds so if its feature `float_roundtrip` is on, which is not the default. With its faster way of
reading, a long numeral may be taken for a neighbour of the nearest number. What is proved about
numbers that are read back rests on the assumption.
-/

namespace GateGrid.Json

/-- What a numeral says. -/
structure Numeral where
  /-- There is a minus sign. -/
  negative : Bool
  /-- There is neither a fraction nor an exponent. -/
  isWhole : Bool
  /-- The absolute value. -/
  value : Decimal
  deriving DecidableEq

namespace Reader

/-- A numeral starts with a digit or a minus sign. -/
def startsNumeral (c : Char) : Bool := c == '-' || c.isDigit

/-- Takes one digit or more. -/
def digits : Reader (List Char) := fun text =>
  match text.takeWhile Char.isDigit with
  | [] => .error (if text.isEmpty then .truncated else .malformed)
  | found => .ok (found, text.dropWhile Char.isDigit)

/-- Takes the digits before the point: a zero is followed by no other digit. -/
def wholeDigits : Reader (List Char) := do
  let found ← digits
  if found.head? = some '0' ∧ 1 < found.length then fail .malformed else pure found

/-- Takes a point and the digits after it, if there is a point. -/
def fraction : Reader (Option (List Char)) := do
  if (← peek) = some '.' then
    advance
    return some (← digits)
  else return none

/-- Takes a sign: whether there is a minus sign. A plus sign may be taken too. -/
def exponentSign : Reader Bool := do
  match ← peek with
  | some '-' => advance; return true
  | some '+' => advance; return false
  | _ => return false

/-- Takes the mark of an exponent and the exponent, if there is a mark. -/
def exponent : Reader (Option Int) := do
  let next ← peek
  if next = some 'e' ∨ next = some 'E' then
    advance
    let negative ← exponentSign
    let size := Nat.ofDigitChars 10 (← digits) 0
    return some (if negative then -(size : Int) else size)
  else return none

/-- Takes a minus sign, if there is one. -/
def minus : Reader Bool := do
  if (← peek) = some '-' then
    advance
    return true
  else return false

/-- Takes a numeral. -/
def numeral : Reader Numeral := do
  let negative ← minus
  let whole ← wholeDigits
  let fraction ← fraction
  let exponent ← exponent
  let places := fraction.getD []
  return {
    negative
    isWhole := fraction.isNone && exponent.isNone
    value := ⟨Nat.ofDigitChars 10 (whole ++ places) 0, exponent.getD 0 - places.length⟩ }

/-- Takes a numeral whose value is of no interest. All that can go wrong is that there is no
    numeral, also where the text ends inside it. -/
def skipNumeral : Reader Unit := fun text =>
  match numeral text with
  | .ok (_, rest) => .ok ((), rest)
  | .error _ => .error .malformed

/-- Takes a numeral, with the binary number nearest to it: the rounding is assumed to be exact. A
    numeral that is not finite is malformed. -/
def number : Reader (Numeral × Binary64) := do
  let found ← numeral
  match Binary64.ofDecimal? found.negative found.value with
  | some value => return (found, value)
  | none => fail .malformed

end Reader

end GateGrid.Json

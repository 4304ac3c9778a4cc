/-!
# Binary floating-point numbers of 64 bits

A number is a sign and a *magnitude*: the 63 bits below the sign, read as a natural number. Over
the numbers of one sign the magnitude orders the values: 0 is zero, then come the finite values in
ascending order, then infinity, and above it are the bit patterns that are no number at all.

* `Binary64.isZero`, `isFinite`, `isNaN`: the classes of values.
* `Binary64.numEq`: equality of the numbers meant, for which zero has one sign and what is no
  number equals nothing, not even itself.
* `Binary64.significand`, `Binary64.scale`: a finite value is `significand · 2 ^ scale / 2 ^ places`.
-/

namespace GateGrid

/-- A floating-point number of 64 bits. Equality of this type is equality of the bits. -/
structure Binary64 where
  /-- The sign bit. -/
  negative : Bool
  /-- The bits below the sign bit. -/
  magnitude : Nat
  /-- They are 63 bits. -/
  magnitude_lt : magnitude < 0x8000000000000000
  deriving DecidableEq

namespace Binary64

/-- The number of binary places of the least positive value, which is `2 ^ -1074`. -/
def places : Nat := 1074

/-- How many magnitudes share their exponent bits: `2 ^ 52`. -/
def binade : Nat := 0x10000000000000

/-- The magnitude of infinity: all exponent bits set, no bit below them. -/
def infiniteMagnitude : Nat := 2047 * binade

/-- The magnitude of infinity fits. -/
theorem infiniteMagnitude_lt : infiniteMagnitude < 0x8000000000000000 := by decide

/-- Zero, with the positive sign. -/
def zero : Binary64 := ⟨false, 0, by decide⟩

/-- A bit pattern that is no number. -/
def nan : Binary64 := ⟨false, infiniteMagnitude + binade / 2, by decide⟩

/-- The value is zero, of either sign. -/
def isZero (a : Binary64) : Bool := a.magnitude == 0

/-- The value is a finite number. -/
def isFinite (a : Binary64) : Bool := a.magnitude < infiniteMagnitude

/-- The bit pattern is no number. -/
def isNaN (a : Binary64) : Bool := infiniteMagnitude < a.magnitude

/-- The two are the same number: what is no number is never the same, and the two zeros are. -/
def numEq (a b : Binary64) : Bool :=
  !a.isNaN && !b.isNaN && (a == b || a.isZero && b.isZero)

/-- The number of doublings by which the unit in the last place of a finite value exceeds the least
    positive value: one less than the exponent bits, and none for the subnormal values. -/
def scale (a : Binary64) : Nat := a.magnitude / binade - 1

/-- How many units in its last place a finite value is. -/
def significand (a : Binary64) : Nat := a.magnitude - a.scale * binade

/-- The number with the given 64 bits. -/
def ofBits (bits : UInt64) : Binary64 :=
  ⟨0x8000000000000000 ≤ bits.toNat, bits.toNat % 0x8000000000000000,
    Nat.mod_lt _ (by decide)⟩

/-- The 64 bits of a number. -/
def toBits (a : Binary64) : UInt64 :=
  UInt64.ofNat (if a.negative then 0x8000000000000000 + a.magnitude else a.magnitude)

end Binary64

end GateGrid

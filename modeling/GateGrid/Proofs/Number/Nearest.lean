import GateGrid.Number.Shortest
import Mathlib.Algebra.Order.Field.Basic
import Mathlib.Data.Rat.Cast.Order
import Mathlib.Tactic.NormNum
import Mathlib.Tactic.Positivity
import Mathlib.Tactic.Ring

/-!
# Reading back what is written for a number

Reading a decimal rounds its *value* to the nearest binary number. The two bounds that keep the
powers of ten small are shortcuts and change nothing, so two decimals of one value are read as one
number, however many zeros they are written with.

The exact decimal of a finite number needs no rounding. Every shorter decimal was tried before it is
written. So what is written for a finite number is read as that number, to the last bit.

* `nearestMagnitude_congr`: the nearest magnitude depends on the quotient alone;
* `Decimal.magnitude?_eq`: the bounds change nothing;
* `Decimal.magnitude?_eq_of_value_eq`: a decimal is read by its value;
* `Binary64.magnitude?_shortest`: the decimal written for a finite number is read as the number;
* `Binary64.isFinite_of_ofDecimal?`: only finite numbers are read.
-/

namespace GateGrid

open Binary64 (places binade infiniteMagnitude)

/-! ### Rounded quotients -/

section Quotients

variable {num den num' den' : ℕ}

/-- A rounded quotient depends on the quotient alone. -/
theorem divHalfEven_mul_mul {k : ℕ} (hk : 0 < k) (num den : ℕ) :
    divHalfEven (num * k) (den * k) = divHalfEven num den := by
  have hlt (a b : ℕ) : 2 * (a * k) < b * k ↔ 2 * a < b := by
    rw [← Nat.mul_assoc, Nat.mul_lt_mul_right hk]
  have hgt (a b : ℕ) : b * k < 2 * (a * k) ↔ b < 2 * a := by
    rw [← Nat.mul_assoc, Nat.mul_lt_mul_right hk]
  simp only [divHalfEven, Nat.mul_div_mul_right _ _ hk, Nat.mul_mod_mul_right, hlt, hgt]

theorem divHalfEven_mul_self (hden : 0 < den) (n : ℕ) : divHalfEven (n * den) den = n := by
  simp [divHalfEven, hden]

theorem div_le_divHalfEven (num den : ℕ) : num / den ≤ divHalfEven num den := by
  simp only [divHalfEven]
  split_ifs <;> omega

theorem divHalfEven_le (num den : ℕ) : divHalfEven num den ≤ num / den + 1 := by
  simp only [divHalfEven]
  split_ifs <;> omega

/-- Less than a half is rounded to nothing. -/
theorem divHalfEven_eq_zero (h : 2 * num < den) : divHalfEven num den = 0 := by
  have hlt : num < den := by omega
  rw [divHalfEven, Nat.mod_eq_of_lt hlt, if_pos h, Nat.div_eq_of_lt hlt]

/-! ### Nearest magnitudes -/

theorem nearestMagnitude_mul_mul {k : ℕ} (hk : 0 < k) (num den : ℕ) :
    nearestMagnitude (num * k) (den * k) = nearestMagnitude num den := by
  simp only [nearestMagnitude, Nat.shiftLeft_eq]
  rw [Nat.mul_right_comm num, Nat.mul_div_mul_right _ _ hk, Nat.mul_right_comm den,
    divHalfEven_mul_mul hk]

/-- The nearest magnitude depends on the quotient alone. -/
theorem nearestMagnitude_congr (hden : 0 < den) (hden' : 0 < den')
    (h : num * den' = num' * den) : nearestMagnitude num den = nearestMagnitude num' den' := by
  rw [← nearestMagnitude_mul_mul hden' num den, h, Nat.mul_comm den,
    nearestMagnitude_mul_mul hden]

/-- A product with a power of two has as many more binary digits. -/
theorem log2_mul_two_pow {n : ℕ} (hn : n ≠ 0) (s : ℕ) : (n * 2 ^ s).log2 = n.log2 + s := by
  rw [Nat.log2_eq_iff (by positivity)]
  constructor
  · rw [pow_add]
    exact Nat.mul_le_mul_right _ (Nat.log2_self_le hn)
  · rw [Nat.add_right_comm, pow_add]
    exact Nat.mul_lt_mul_of_pos_right Nat.lt_log2_self (by positivity)

/-- A value that needs no rounding. -/
theorem nearestMagnitude_eq {m s : ℕ} (hden : 0 < den) (hm : m < 2 ^ 53)
    (hs : s ≠ 0 → 2 ^ 52 ≤ m) (h : num * 2 ^ places = m * 2 ^ s * den) :
    nearestMagnitude num den = s * binade + m := by
  have hfloor : num * 2 ^ places / den = m * 2 ^ s := by
    rw [h, Nat.mul_div_cancel _ hden]
  -- The scale can be read off: either it is zero, or the significand has all its digits.
  have hscale : (m * 2 ^ s).log2 - 52 = s := by
    by_cases hzero : m = 0
    · have : s = 0 := by
        by_contra hne
        have := hs hne
        omega
      simp [hzero, this]
    · rw [log2_mul_two_pow hzero]
      have hlog : m.log2 < 53 := (Nat.log2_lt hzero).2 hm
      by_cases hne : s = 0
      · omega
      · have := (Nat.le_log2 hzero).2 (hs hne)
        omega
  simp only [nearestMagnitude, Nat.shiftLeft_eq, hfloor, hscale]
  rw [h, Nat.mul_assoc, Nat.mul_comm (2 ^ s), divHalfEven_mul_self (by positivity)]

/-- At the scale of a quotient there are less than `2 ^ 53` units. -/
theorem div_scale_lt (num den : ℕ) :
    num / (den * 2 ^ ((num / den).log2 - 52)) < 2 ^ 53 := by
  rw [← Nat.div_div_eq_div_mul, Nat.div_lt_iff_lt_mul (by positivity), ← pow_add]
  exact Nat.lt_of_lt_of_le Nat.lt_log2_self (Nat.pow_le_pow_right (by decide) (by omega))

/-- From the second binade on there are at least `2 ^ 52` units. -/
theorem le_div_scale (h : 2 ^ 52 ≤ num / den) :
    2 ^ 52 ≤ num / (den * 2 ^ ((num / den).log2 - 52)) := by
  have hne : num / den ≠ 0 := by
    have : 0 < 2 ^ 52 := by decide
    omega
  have hlog : 52 ≤ (num / den).log2 := (Nat.le_log2 hne).2 h
  rw [← Nat.div_div_eq_div_mul, Nat.le_div_iff_mul_le (by positivity), ← pow_add,
    Nat.add_sub_cancel' hlog]
  exact Nat.log2_self_le hne

/-- Below a power of two no magnitude is nearest that lies above the next binade. -/
theorem nearestMagnitude_le {k : ℕ} (hk : 53 ≤ k) (h : num * 2 ^ places / den < 2 ^ k) :
    nearestMagnitude num den ≤ (k - 51) * binade := by
  have hlog : (num * 2 ^ places / den).log2 - 52 ≤ k - 53 := by
    by_cases hzero : num * 2 ^ places / den = 0
    · simp [hzero]
    · have := (Nat.log2_lt hzero).2 h
      omega
  have hround : divHalfEven (num * 2 ^ places)
      (den * 2 ^ ((num * 2 ^ places / den).log2 - 52)) ≤ 2 * binade :=
    (divHalfEven_le _ _).trans (div_scale_lt (num * 2 ^ places) den)
  simp only [nearestMagnitude, Nat.shiftLeft_eq]
  calc ((num * 2 ^ places / den).log2 - 52) * binade + divHalfEven (num * 2 ^ places)
        (den * 2 ^ ((num * 2 ^ places / den).log2 - 52))
      ≤ (k - 53) * binade + 2 * binade :=
        Nat.add_le_add (Nat.mul_le_mul_right _ hlog) hround
    _ = (k - 51) * binade := by
        rw [← Nat.add_mul]
        congr 1
        omega

/-- From a power of two on no magnitude is nearest that lies below its binade. -/
theorem le_nearestMagnitude {k : ℕ} (hk : 52 ≤ k) (h : 2 ^ k ≤ num * 2 ^ places / den) :
    (k - 51) * binade ≤ nearestMagnitude num den := by
  have hlow : 2 ^ 52 ≤ num * 2 ^ places / den :=
    (Nat.pow_le_pow_right (by decide) hk).trans h
  have hlog : k - 52 ≤ (num * 2 ^ places / den).log2 - 52 := by
    have hne : num * 2 ^ places / den ≠ 0 := (Nat.two_pow_pos 52 |>.trans_le hlow).ne'
    have := (Nat.le_log2 hne).2 h
    omega
  have hround : binade ≤ divHalfEven (num * 2 ^ places)
      (den * 2 ^ ((num * 2 ^ places / den).log2 - 52)) :=
    (le_div_scale hlow).trans (div_le_divHalfEven _ _)
  simp only [nearestMagnitude, Nat.shiftLeft_eq]
  calc (k - 51) * binade = (k - 52) * binade + binade := by
        rw [← Nat.succ_mul]
        congr 1
        omega
    _ ≤ _ := Nat.add_le_add (Nat.mul_le_mul_right _ hlog) hround

end Quotients

/-! ### Decimals -/

namespace Decimal

variable {d d' : Decimal}

/-- The number that a decimal stands for. -/
def value (d : Decimal) : ℚ := d.coefficient * 10 ^ d.exponent

/-- A decimal as a quotient: what stands above. -/
def num (d : Decimal) : ℕ := d.coefficient * 10 ^ d.exponent.toNat

/-- A decimal as a quotient: what stands below. -/
def den (d : Decimal) : ℕ := 10 ^ (-d.exponent).toNat

theorem den_pos (d : Decimal) : 0 < d.den := Nat.pow_pos (by decide)

theorem value_eq_div (d : Decimal) : d.value = d.num / d.den := by
  have hexp : d.exponent = (d.exponent.toNat : ℤ) - ((-d.exponent).toNat : ℤ) := by omega
  rw [value, num, den]
  nth_rewrite 1 [hexp]
  rw [zpow_sub₀ (by norm_num), zpow_natCast, zpow_natCast]
  push_cast
  ring

/-- The nearest magnitude to a decimal depends on its value alone. -/
theorem nearestMagnitude_eq_of_value_eq (h : d.value = d'.value) :
    nearestMagnitude d.num d.den = nearestMagnitude d'.num d'.den := by
  refine nearestMagnitude_congr d.den_pos d'.den_pos ?_
  have hd : (d.den : ℚ) ≠ 0 := Nat.cast_ne_zero.2 d.den_pos.ne'
  have hd' : (d'.den : ℚ) ≠ 0 := Nat.cast_ne_zero.2 d'.den_pos.ne'
  rw [value_eq_div, value_eq_div, div_eq_div_iff hd hd'] at h
  exact_mod_cast h

/-- From `10 ^ 311` on nothing is finite. -/
theorem infiniteMagnitude_le (hne : d.coefficient ≠ 0) (h : 310 < d.exponent) :
    infiniteMagnitude ≤ nearestMagnitude d.num d.den := by
  have hden : d.den = 1 := by
    rw [den, show (-d.exponent).toNat = 0 by omega, pow_zero]
  have hnum : 2 ^ 1024 ≤ d.num := by
    calc 2 ^ 1024 ≤ 10 ^ 311 := by decide +kernel
      _ ≤ 10 ^ d.exponent.toNat := Nat.pow_le_pow_right (by decide) (by omega)
      _ ≤ d.num := Nat.le_mul_of_pos_left _ (Nat.pos_of_ne_zero hne)
  refine (le_nearestMagnitude (k := 1024 + places) (by decide) ?_).trans' (by decide)
  rw [hden, Nat.div_one, pow_add]
  exact Nat.mul_le_mul_right _ hnum

/-- An exponent this far below zero leaves less than half of the least positive value. -/
theorem nearestMagnitude_eq_zero
    (h : d.exponent + (d.coefficient.log2 + 1 : ℕ) < -330) :
    nearestMagnitude d.num d.den = 0 := by
  have hnum : d.num = d.coefficient := by
    rw [num, show d.exponent.toNat = 0 by omega, pow_zero, Nat.mul_one]
  have hlt : 2 * (d.num * 2 ^ places) < d.den := by
    have hten : 2 * 2 ^ places ≤ 10 ^ 331 := by
      decide +kernel
    calc 2 * (d.num * 2 ^ places) = d.coefficient * (2 * 2 ^ places) := by rw [hnum]; ring
      _ < 2 ^ (d.coefficient.log2 + 1) * 10 ^ 331 :=
        Nat.mul_lt_mul_of_lt_of_le Nat.lt_log2_self hten (by positivity)
      _ ≤ 10 ^ (d.coefficient.log2 + 1) * 10 ^ 331 :=
        Nat.mul_le_mul_right _ (Nat.pow_le_pow_left (by decide) _)
      _ = 10 ^ (d.coefficient.log2 + 1 + 331) := (pow_add ..).symm
      _ ≤ d.den := Nat.pow_le_pow_right (by decide) (by omega)
  have hfloor : d.num * 2 ^ places / d.den = 0 := Nat.div_eq_of_lt (by omega)
  simp only [nearestMagnitude, Nat.shiftLeft_eq, hfloor]
  rw [Nat.log2_zero, Nat.zero_sub, Nat.zero_mul, Nat.zero_add, pow_zero, Nat.mul_one]
  exact divHalfEven_eq_zero hlt

/-- The two bounds only save work: a decimal is read as the nearest magnitude, unless that is not
    finite. -/
theorem magnitude?_eq (d : Decimal) :
    d.magnitude? = if nearestMagnitude d.num d.den < infiniteMagnitude then
      some (nearestMagnitude d.num d.den) else none := by
  have hzero_lt : 0 < infiniteMagnitude := by decide
  rw [magnitude?]
  by_cases hzero : d.coefficient = 0
  · have hnear : nearestMagnitude d.num d.den = 0 := by
      have h : nearestMagnitude d.num d.den = 0 * binade + 0 :=
        nearestMagnitude_eq d.den_pos (by decide) (by simp) (by simp [num, hzero])
      rw [h, Nat.zero_mul]
    rw [if_pos hzero, hnear, if_pos hzero_lt]
  rw [if_neg hzero]
  by_cases hlarge : 310 < d.exponent
  · rw [if_pos hlarge, if_neg (Nat.not_lt.2 (infiniteMagnitude_le hzero hlarge))]
  rw [if_neg hlarge]
  by_cases hsmall : d.exponent + (d.coefficient.log2 + 1 : ℕ) < -330
  · rw [if_pos hsmall, nearestMagnitude_eq_zero hsmall, if_pos hzero_lt]
  · rw [if_neg hsmall]
    rfl

/-- How a decimal is read depends on its value alone. -/
theorem magnitude?_eq_of_value_eq (h : d.value = d'.value) : d.magnitude? = d'.magnitude? := by
  rw [magnitude?_eq, magnitude?_eq, nearestMagnitude_eq_of_value_eq h]

/-- What is read is finite. -/
theorem lt_of_magnitude?_eq_some {m : ℕ} (h : d.magnitude? = some m) : m < infiniteMagnitude := by
  rw [magnitude?_eq] at h
  split at h
  · next hlt => rwa [← Option.some_inj.1 h]
  · exact absurd h nofun

/-- A natural number of 32 bits is read as a finite number. -/
theorem isSome_magnitude?_natural {n : ℕ} (h : n < 2 ^ 32) :
    (Decimal.mk n 0).magnitude?.isSome := by
  have hle : nearestMagnitude (Decimal.mk n 0).num (Decimal.mk n 0).den ≤
      (32 + places - 51) * binade := by
    refine nearestMagnitude_le (by decide) ?_
    rw [num, den]
    simp only [Int.toNat_zero, neg_zero, pow_zero, Nat.mul_one, Nat.div_one]
    rw [pow_add]
    exact Nat.mul_lt_mul_of_pos_right h (by positivity)
  rw [magnitude?_eq, if_pos (hle.trans_lt (by decide))]
  rfl

/-- The nearer neighbour is one of the two. -/
theorem cutNear_eq_or (tie : Tie) (d : Decimal) (cut : ℕ) :
    d.cutNear tie cut = d.cutDown cut ∨ d.cutNear tie cut = d.cutUp cut := by
  cases tie <;> simp only [cutNear] <;> split_ifs <;> simp

end Decimal

/-! ### Binary numbers -/

namespace Binary64

variable {a : Binary64}

/-- The significand and the scale of a finite value. -/
theorem scale_mul_add_significand (a : Binary64) :
    a.scale * binade + a.significand = a.magnitude := by
  have : a.scale * binade ≤ a.magnitude := by
    simp only [scale, binade]
    omega
  rw [significand]
  omega

theorem significand_lt (a : Binary64) : a.significand < 2 ^ 53 := by
  simp only [significand, scale, binade]
  omega

theorem le_significand (h : a.scale ≠ 0) : 2 ^ 52 ≤ a.significand := by
  simp only [significand, scale, binade] at h ⊢
  omega

/-- The exact decimal of a number, in units of the least positive value. -/
theorem exactDecimal_num (a : Binary64) :
    a.exactDecimal.num * 2 ^ places = a.significand * 2 ^ a.scale * a.exactDecimal.den := by
  rw [exactDecimal]
  by_cases hzero : a.isZero
  · have hsig : a.significand = 0 := by
      have : a.magnitude = 0 := by simpa [isZero] using hzero
      rw [significand, this, Nat.zero_sub]
    rw [if_pos hzero, hsig]
    simp [Decimal.num]
  rw [if_neg hzero]
  by_cases hlarge : places ≤ a.scale
  · rw [if_pos hlarge, Decimal.num, Decimal.den, Nat.shiftLeft_eq]
    simp only [Int.toNat_zero, neg_zero, pow_zero, Nat.mul_one]
    rw [Nat.mul_assoc, ← pow_add, Nat.sub_add_cancel hlarge]
  · -- A place behind the point takes a factor of five and one of two.
    obtain ⟨k, hk⟩ : ∃ k, places = a.scale + k := ⟨places - a.scale, by omega⟩
    rw [if_neg hlarge, Decimal.num, Decimal.den, hk, Nat.add_sub_cancel_left, neg_neg,
      Int.toNat_natCast, show (-(k : ℤ)).toNat = 0 by omega, pow_zero, Nat.mul_one, Nat.pow_eq,
      pow_add, show (10 : ℕ) = 5 * 2 from rfl, mul_pow]
    ring

/-- The exact decimal of a finite number is read as the number. -/
theorem magnitude?_exactDecimal (h : a.isFinite) :
    a.exactDecimal.magnitude? = some a.magnitude := by
  have hnear : nearestMagnitude a.exactDecimal.num a.exactDecimal.den = a.magnitude := by
    rw [nearestMagnitude_eq a.exactDecimal.den_pos a.significand_lt le_significand
      a.exactDecimal_num, scale_mul_add_significand]
  have hlt : a.magnitude < infiniteMagnitude := by simpa [isFinite] using h
  rw [Decimal.magnitude?_eq, hnear, if_pos hlt]

/-- A shortened decimal is read as the number, as it was tried. -/
theorem magnitude?_of_shortenBy? {tie : Tie} {exact d : Decimal} {cut : ℕ}
    (h : a.shortenBy? tie exact cut = some d) : d.magnitude? = some a.magnitude := by
  have hread {d : Decimal} (hd : a.readsFrom d = true) : d.magnitude? = some a.magnitude :=
    beq_iff_eq.1 hd
  rw [shortenBy?] at h
  split at h
  · -- Both neighbours read back, so that the choice between them does not matter.
    next hdown hup =>
    obtain rfl := Option.some_inj.1 h
    rcases exact.cutNear_eq_or tie cut with heq | heq <;> rw [heq]
    · exact hread hdown
    · exact hread hup
  · next hdown _ => exact Option.some_inj.1 h ▸ hread hdown
  · next _ hup => exact Option.some_inj.1 h ▸ hread hup
  · exact absurd h nofun

/-- What is written for a finite number is read as the number. -/
theorem magnitude?_shortest (tie : Tie) (h : a.isFinite) :
    (a.shortest tie).magnitude? = some a.magnitude := by
  rw [shortest]
  cases hfind : (List.range 17).findSome? fun i =>
      a.shortenBy? tie a.exactDecimal (a.exactDecimal.digits.length - (i + 1)) with
  | none =>
    -- No shorter decimal was found; the exact one always reads back.
    exact magnitude?_exactDecimal h
  | some d =>
    obtain ⟨i, _, hshort⟩ := List.exists_of_findSome?_eq_some hfind
    exact magnitude?_of_shortenBy? hshort

/-- A decimal with the value of what is written for a finite number is read as the number. -/
theorem ofDecimal?_eq_some {tie : Tie} {d : Decimal} (h : a.isFinite)
    (hvalue : d.value = (a.shortest tie).value) : ofDecimal? a.negative d = some a := by
  rw [ofDecimal?, Decimal.magnitude?_eq_of_value_eq hvalue, magnitude?_shortest tie h]
  exact dif_pos a.magnitude_lt

/-- Only finite numbers are read. -/
theorem isFinite_of_ofDecimal? {negative : Bool} {d : Decimal}
    (h : ofDecimal? negative d = some a) : a.isFinite := by
  rw [ofDecimal?] at h
  split at h
  · exact absurd h nofun
  next m hm =>
  split at h
  · obtain rfl := Option.some_inj.1 h
    exact decide_eq_true (Decimal.lt_of_magnitude?_eq_some hm)
  · exact absurd h nofun

/-- A decimal that is not too large is read as some number. -/
theorem exists_ofDecimal?_of_isSome {d : Decimal} (h : d.magnitude?.isSome) (negative : Bool) :
    ∃ a, ofDecimal? negative d = some a := by
  obtain ⟨m, hm⟩ := Option.isSome_iff_exists.1 h
  have hlt := (Decimal.lt_of_magnitude?_eq_some hm).trans infiniteMagnitude_lt
  rw [ofDecimal?, hm]
  exact ⟨_, dif_pos hlt⟩

/-- A natural number of 32 bits is read as some number. -/
theorem exists_ofDecimal?_natural {n : ℕ} (h : n < 2 ^ 32) (negative : Bool) :
    ∃ a, ofDecimal? negative ⟨n, 0⟩ = some a :=
  exists_ofDecimal?_of_isSome (Decimal.isSome_magnitude?_natural h) negative

end Binary64

end GateGrid

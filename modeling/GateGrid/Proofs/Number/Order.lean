import GateGrid.Proofs.Number.Nearest
import Mathlib.Data.Nat.Log

/-!
# Rounding keeps the order

Of two quotients the larger one is never rounded to the smaller magnitude. At one scale this is so
because halves go to the even neighbour on either side, and from one scale to the next because a
power of two stands between the two. What is below a decimal that is read as a finite number is
therefore read as a finite number too.

* `nearestMagnitude_mono`: the nearest magnitude grows with the quotient;
* `Decimal.isSome_magnitude?_of_value_le`: below a finite number all is finite.
-/

namespace GateGrid

open Binary64 (places binade infiniteMagnitude)

section Quotients

variable {num num' den den' : ℕ}

theorem divHalfEven_le_divHalfEven (h : num ≤ num') (den : ℕ) :
    divHalfEven num den ≤ divHalfEven num' den := by
  by_cases hfloor : num / den = num' / den
  · -- With one floor the order is that of what is left.
    have hrest : num % den ≤ num' % den := by
      have hnum := Nat.div_add_mod num den
      have hnum' := Nat.div_add_mod num' den
      rw [hfloor] at hnum
      omega
    simp only [divHalfEven, hfloor]
    split_ifs <;> omega
  · have hlt : num / den < num' / den := lt_of_le_of_ne (Nat.div_le_div_right h) hfloor
    calc divHalfEven num den ≤ num / den + 1 := divHalfEven_le num den
      _ ≤ num' / den := hlt
      _ ≤ divHalfEven num' den := div_le_divHalfEven num' den

theorem log2_le_log2 {a b : ℕ} (h : a ≤ b) : a.log2 ≤ b.log2 := by
  rw [Nat.log2_eq_log_two, Nat.log2_eq_log_two]
  exact Nat.log_mono_right h

theorem nearestMagnitude_le_nearestMagnitude (h : num ≤ num') (den : ℕ) :
    nearestMagnitude num den ≤ nearestMagnitude num' den := by
  have hnum : num * 2 ^ places ≤ num' * 2 ^ places := Nat.mul_le_mul_right _ h
  have hfloor : num * 2 ^ places / den ≤ num' * 2 ^ places / den := Nat.div_le_div_right hnum
  by_cases hscale : (num' * 2 ^ places / den).log2 - 52 = (num * 2 ^ places / den).log2 - 52
  · simp only [nearestMagnitude, Nat.shiftLeft_eq, hscale]
    exact Nat.add_le_add_left (divHalfEven_le_divHalfEven hnum _) _
  · -- The larger quotient has a power of two above the smaller one.
    have hlog := log2_le_log2 hfloor
    have hne : num' * 2 ^ places / den ≠ 0 := by
      intro hzero
      rw [hzero, Nat.log2_zero] at hlog hscale
      omega
    have hlt : num * 2 ^ places / den < 2 ^ (num' * 2 ^ places / den).log2 :=
      Nat.lt_log2_self.trans_le (Nat.pow_le_pow_right (by decide) (by omega))
    exact (nearestMagnitude_le (by omega) hlt).trans
      (le_nearestMagnitude (by omega) (Nat.log2_self_le hne))

/-- The nearest magnitude grows with the quotient. -/
theorem nearestMagnitude_mono (hden : 0 < den) (hden' : 0 < den')
    (h : num * den' ≤ num' * den) : nearestMagnitude num den ≤ nearestMagnitude num' den' := by
  rw [← nearestMagnitude_mul_mul hden' num den, ← nearestMagnitude_mul_mul hden num' den',
    Nat.mul_comm den']
  exact nearestMagnitude_le_nearestMagnitude h _

end Quotients

/-- Below a decimal that is read as a finite number all decimals are. -/
theorem Decimal.isSome_magnitude?_of_value_le {d d' : Decimal} (h : d.value ≤ d'.value)
    (hfinite : d'.magnitude?.isSome) : d.magnitude?.isSome := by
  have hd : (0 : ℚ) < d.den := Nat.cast_pos.2 d.den_pos
  have hd' : (0 : ℚ) < d'.den := Nat.cast_pos.2 d'.den_pos
  rw [value_eq_div, value_eq_div, div_le_div_iff₀ hd hd'] at h
  have hmono : nearestMagnitude d.num d.den ≤ nearestMagnitude d'.num d'.den :=
    nearestMagnitude_mono d.den_pos d'.den_pos (by exact_mod_cast h)
  obtain ⟨m, hm⟩ := Option.isSome_iff_exists.1 hfinite
  rw [magnitude?_eq] at hm
  split at hm
  · next hlt =>
    rw [magnitude?_eq, if_pos (hmono.trans_lt hlt)]
    rfl
  · exact absurd hm nofun

end GateGrid

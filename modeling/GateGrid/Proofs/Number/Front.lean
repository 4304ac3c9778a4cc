import GateGrid.Proofs.Number.Order
import GateGrid.Proofs.Number.Spelling

/-!
# Fronts of numerals

A numeral that is cut off among its digits is a numeral again: one with fewer digits before the
point, behind it, or in its exponent. What becomes of its value? Digits that are missing behind the
point or before it make it smaller, and so do digits that are missing in a positive exponent. Only
where digits of a negative exponent are missing it grows, but not above the numeral without the
exponent. As a single digit stands before the point there, that is less than ten. So the front of
a numeral that is finite is finite.

* `front_append_cases`: where a text that consists of two was cut off;
* `exists_toDigits_of_front`: the front of a natural number is one;
* `Spelling.Front`: a numeral is the front of another one;
* `Spelling.Front.isSome_magnitude?`: the front of a finite numeral is finite.
-/

namespace GateGrid

/-! ### Fronts of texts -/

/-- A front of a text that is not empty starts as the text does. -/
theorem exists_cons_of_front {c : Char} {part tail : List Char} (h : part <+: c :: tail)
    (hne : part ≠ []) : ∃ rest, rest <+: tail ∧ part = c :: rest := by
  rcases List.prefix_cons_iff.1 h with hnil | ⟨rest, hpart, hrest⟩
  · exact absurd hnil hne
  · exact ⟨rest, hrest, hpart⟩

/-- A front of two texts ends in the first one, or it goes on in the second. -/
theorem front_append_cases {part head tail : List Char} (h : part <+: head ++ tail) :
    part <+: head ∨ ∃ more, more <+: tail ∧ more ≠ [] ∧ part = head ++ more := by
  rcases List.prefix_or_prefix_of_prefix h (List.prefix_append head tail) with hpart | ⟨more, rfl⟩
  · exact .inl hpart
  · by_cases hnil : more = []
    · left
      rw [hnil, List.append_nil]
    · exact .inr ⟨more, (List.prefix_append_right_inj head).1 h, hnil, rfl⟩

/-! ### Digits and values -/

/-- More digits make a larger number. -/
theorem ofDigitChars_le_of_front {front digits : List Char} (h : front <+: digits) :
    Nat.ofDigitChars 10 front 0 ≤ Nat.ofDigitChars 10 digits 0 := by
  obtain ⟨more, rfl⟩ := h
  rw [Nat.ofDigitChars_append, Nat.ofDigitChars_eq_ofDigitChars_zero (l := more)]
  exact (Nat.le_mul_of_pos_left _ (by positivity)).trans (Nat.le_add_right _ _)

/-- A number is below the power of ten with as many zeros as the number has digits. -/
theorem ofDigitChars_lt {digits : List Char} (h : ∀ c ∈ digits, c.isDigit) :
    Nat.ofDigitChars 10 digits 0 < 10 ^ digits.length := by
  induction digits with
  | nil => simp
  | cons c digits ih =>
    obtain ⟨hc, hdigits⟩ := List.forall_mem_cons.1 h
    have hdigit : c.toNat ≤ '9'.toNat := (Char.isDigit_iff_toNat.1 hc).2
    rw [Nat.ofDigitChars_cons, Nat.ofDigitChars_eq_ofDigitChars_zero, List.length_cons, pow_succ]
    have hlt := ih hdigits
    have hle : 10 ^ digits.length * (10 * 0 + (c.toNat - '0'.toNat)) ≤ 10 ^ digits.length * 9 :=
      Nat.mul_le_mul_left _ (by simpa using hdigit)
    omega

/-- The front of the digits of a number are the digits of a smaller one. -/
theorem exists_toDigits_of_front {n : ℕ} {front : List Char} (h : front <+: Nat.toDigits 10 n)
    (hne : front ≠ []) : ∃ m ≤ n, front = Nat.toDigits 10 m := by
  induction n using Nat.strongRecOn with
  | ind n ih =>
    have hdigits : Nat.toDigits 10 n = if n < 10 then [n.digitChar] else
        Nat.toDigits 10 (n / 10) ++ [(n % 10).digitChar] := Nat.toDigits_eq_if (by decide)
    by_cases hlt : n < 10
    · rw [hdigits, if_pos hlt] at h
      obtain ⟨more, hmore, rfl⟩ := exists_cons_of_front h hne
      exact ⟨n, le_rfl, by rw [List.prefix_nil.1 hmore, hdigits, if_pos hlt]⟩
    · rw [hdigits, if_neg hlt] at h
      rcases List.prefix_concat_iff.1 h with heq | hfront
      · exact ⟨n, le_rfl, by rw [heq, hdigits, if_neg hlt]⟩
      · obtain ⟨m, hm, hfront⟩ := ih (n / 10) (by omega) hfront
        exact ⟨m, by omega, hfront⟩

namespace Decimal

variable {c c' : ℕ} {e e' : ℤ}

theorem value_le_of_coefficient_le (h : c ≤ c') (e : ℤ) :
    (Decimal.mk c e).value ≤ (Decimal.mk c' e).value :=
  mul_le_mul_of_nonneg_right (Nat.cast_le.2 h) (zpow_nonneg (by norm_num) e)

theorem value_le_of_exponent_le (c : ℕ) (h : e ≤ e') :
    (Decimal.mk c e).value ≤ (Decimal.mk c e').value :=
  mul_le_mul_of_nonneg_left (zpow_le_zpow_right₀ (by norm_num) h) (Nat.cast_nonneg c)

/-- Digits behind the others add to the value. -/
theorem value_le_append (digits more : List Char) (e : ℤ) :
    (Decimal.mk (Nat.ofDigitChars 10 digits 0) e).value ≤
      (Decimal.mk (Nat.ofDigitChars 10 (digits ++ more) 0) (e - more.length)).value := by
  have hvalue := value_mul_ten_pow (Nat.ofDigitChars 10 digits 0) (e - more.length) more.length
  rw [Int.sub_add_cancel] at hvalue
  rw [← hvalue]
  refine value_le_of_coefficient_le ?_ _
  rw [Nat.ofDigitChars_append, Nat.ofDigitChars_eq_ofDigitChars_zero (l := more), Nat.mul_comm]
  exact Nat.le_add_right _ _

end Decimal

/-! ### Fronts -/

namespace Spelling

variable {spelling front : Spelling}

/-- The numeral without its exponent. -/
def mantissa (spelling : Spelling) : Spelling := { spelling with exponent := none }

/-- A numeral is the front of another one, which was cut off among its digits. -/
inductive Front (spelling : Spelling) : Spelling → Prop
  /-- Before the point. -/
  | whole {digits : List Char} (h : digits <+: spelling.whole) :
      Front spelling { whole := digits }
  /-- Behind the point. -/
  | fraction {places digits : List Char} (hplaces : spelling.fraction = some places)
      (h : digits <+: places) : Front spelling { whole := spelling.whole, fraction := some digits }
  /-- In the exponent. -/
  | exponent {negative : Bool} {size digits : List Char}
      (hsize : spelling.exponent = some (negative, size)) (h : digits <+: size) :
      Front spelling { spelling with exponent := some (negative, digits) }

theorem mantissa_decimal (spelling : Spelling) :
    spelling.mantissa.decimal =
      ⟨Nat.ofDigitChars 10 (spelling.whole ++ spelling.fraction.getD []) 0,
        0 - (spelling.fraction.getD []).length⟩ := rfl

/-- Without digits the value is at most that of the numeral, or that of its digits alone. -/
theorem Front.value_le (h : spelling.Front front) :
    front.decimal.value ≤ spelling.mantissa.decimal.value ∨
      front.decimal.value ≤ spelling.decimal.value := by
  cases h with
  | @whole digits h =>
    left
    calc (Spelling.mk digits none none).decimal.value
        = (Decimal.mk (Nat.ofDigitChars 10 digits 0) 0).value := by simp [decimal, power]
      _ ≤ (Decimal.mk (Nat.ofDigitChars 10 spelling.whole 0) 0).value :=
        Decimal.value_le_of_coefficient_le (ofDigitChars_le_of_front h) 0
      _ ≤ spelling.mantissa.decimal.value := Decimal.value_le_append ..
  | @fraction places digits hplaces h =>
    left
    obtain ⟨more, rfl⟩ := h
    have hle := Decimal.value_le_append (spelling.whole ++ digits) more (0 - digits.length)
    rw [mantissa_decimal, hplaces, Option.getD_some, ← List.append_assoc, List.length_append,
      Nat.cast_add, ← Int.sub_sub]
    exact hle
  | @exponent negative size digits hsize h =>
    have hle : (Nat.ofDigitChars 10 digits 0 : ℤ) ≤ Nat.ofDigitChars 10 size 0 :=
      Int.ofNat_le.2 (ofDigitChars_le_of_front h)
    cases negative with
    | true =>
      left
      refine Decimal.value_le_of_exponent_le _ (Int.sub_le_sub_right ?_ _)
      simp only [power, mantissa, if_true]
      omega
    | false =>
      right
      refine Decimal.value_le_of_exponent_le _ (Int.sub_le_sub_right ?_ _)
      simp only [power, hsize]
      exact hle

/-- The digits of a finite numeral alone are finite. -/
theorem isSome_magnitude?_mantissa (hwell : spelling.WellFormed) (hnormal : spelling.Normal)
    (hfinite : spelling.decimal.magnitude?.isSome) :
    spelling.mantissa.decimal.magnitude?.isSome := by
  rcases hnormal with hnone | hone
  · have hself : spelling.mantissa = spelling := by
      rw [mantissa, ← hnone]
    rwa [hself]
  · -- A digit, and digits behind the point: less than ten.
    have hdigits : ∀ c ∈ spelling.whole ++ spelling.fraction.getD [], c.isDigit := by
      refine List.forall_mem_append.2 ⟨hwell.whole.2, ?_⟩
      cases hfraction : spelling.fraction with
      | none => exact nofun
      | some places => exact (hwell.fraction places hfraction).2
    have hlt := ofDigitChars_lt hdigits
    rw [List.length_append, hone, Nat.add_comm, pow_succ, Nat.mul_comm] at hlt
    have hten : (Decimal.mk 10 0).magnitude?.isSome :=
      Decimal.isSome_magnitude?_natural (by decide)
    refine Decimal.isSome_magnitude?_of_value_le ?_ hten
    calc spelling.mantissa.decimal.value
        ≤ (Decimal.mk (10 * 10 ^ (spelling.fraction.getD []).length)
            (0 - (spelling.fraction.getD []).length)).value :=
          Decimal.value_le_of_coefficient_le hlt.le _
      _ = (Decimal.mk 10 0).value := by
          rw [Decimal.value_mul_ten_pow, Int.sub_add_cancel]

/-- The front of a finite numeral is finite. -/
theorem Front.isSome_magnitude? (h : spelling.Front front) (hwell : spelling.WellFormed)
    (hnormal : spelling.Normal) (hfinite : spelling.decimal.magnitude?.isSome) :
    front.decimal.magnitude?.isSome := by
  rcases h.value_le with hle | hle
  · exact Decimal.isSome_magnitude?_of_value_le hle
      (isSome_magnitude?_mantissa hwell hnormal hfinite)
  · exact Decimal.isSome_magnitude?_of_value_le hle hfinite

end Spelling

end GateGrid

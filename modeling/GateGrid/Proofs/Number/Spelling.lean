import GateGrid.Number.Style
import GateGrid.Proofs.Number.Nearest
import Mathlib.Data.List.Basic
import Mathlib.Data.List.TakeWhile

/-!
# Numerals and their values

A numeral has digits before the point, and perhaps digits behind it and an exponent. A style lays
out the digits of a decimal in one of a few ways: with the point before, between or behind them, or
with a power of ten. Whichever it is, the numeral stands for the value of the decimal. Zeros may
have been cut off or put in, which only moves the unit of the digits.

* `Spelling`: a numeral by its parts;
* `Spelling.decimal`: the decimal that it stands for;
* `Style.exists_spelling`: the text of a decimal is a numeral with the same value; if it has an
  exponent, a single digit stands before the point.
-/

namespace GateGrid

/-- A numeral by its parts. -/
structure Spelling where
  /-- The digits before the point. -/
  whole : List Char
  /-- The digits behind the point, if there is one. -/
  fraction : Option (List Char) := none
  /-- The exponent, if there is one: whether it is negative, and its digits. -/
  exponent : Option (Bool × List Char) := none

namespace Spelling

/-- One digit or more. -/
def Digits (text : List Char) : Prop := text ≠ [] ∧ ∀ c ∈ text, c.isDigit

instance : DecidablePred Digits := fun text =>
  @instDecidableAnd _ _ _ (List.decidableBAll (·.isDigit) text)

theorem Digits.of_front {text part : List Char} (h : Digits text) (hpart : part <+: text)
    (hne : part ≠ []) : Digits part :=
  ⟨hne, fun c hc => h.2 c (hpart.subset hc)⟩

/-- The parts are what they should be. -/
structure WellFormed (spelling : Spelling) : Prop where
  /-- There are digits before the point. -/
  whole : Digits spelling.whole
  /-- A zero in front stands alone there. -/
  lead : spelling.whole.head? = some '0' → spelling.whole.length ≤ 1
  /-- There are digits behind a point. -/
  fraction : ∀ places ∈ spelling.fraction, Digits places
  /-- There are digits in an exponent. -/
  exponent : ∀ exponent ∈ spelling.exponent, Digits exponent.2

/-- Digits do not start with a minus sign. -/
theorem Digits.head?_ne_minus {text : List Char} (h : Digits text) (rest : List Char) :
    (text ++ rest).head? ≠ some '-' := by
  rw [List.head?_append_of_ne_nil _ h.1]
  intro hhead
  exact absurd (h.2 '-' (List.mem_of_head? hhead)) (by decide)

/-- There is no exponent, or a single digit before the point. -/
def Normal (spelling : Spelling) : Prop :=
  spelling.exponent = none ∨ spelling.whole.length = 1

/-- The text of the fraction. -/
def fractionText (spelling : Spelling) : List Char :=
  match spelling.fraction with
  | none => []
  | some places => '.' :: places

/-- A fraction does not start with a digit, and neither does what follows if there is none. -/
theorem head?_fractionText_append (spelling : Spelling) {rest : List Char}
    (h : ∀ c ∈ rest.head?, c.isDigit = false) :
    ∀ c ∈ (spelling.fractionText ++ rest).head?, c.isDigit = false := by
  rw [fractionText]
  split
  · exact h
  · rintro _ ⟨⟩
    rfl

/-- The text of the exponent. -/
def exponentText (spelling : Spelling) : List Char :=
  match spelling.exponent with
  | none => []
  | some (negative, size) => 'e' :: (if negative then '-' else '+') :: size

/-- The text of a numeral. -/
def text (spelling : Spelling) : List Char :=
  spelling.whole ++ spelling.fractionText ++ spelling.exponentText

/-- The value of the exponent. -/
def power (spelling : Spelling) : ℤ :=
  match spelling.exponent with
  | none => 0
  | some (negative, size) =>
    if negative then -(Nat.ofDigitChars 10 size 0 : ℤ) else Nat.ofDigitChars 10 size 0

/-- The decimal that a numeral stands for. -/
def decimal (spelling : Spelling) : Decimal :=
  ⟨Nat.ofDigitChars 10 (spelling.whole ++ spelling.fraction.getD []) 0,
    spelling.power - (spelling.fraction.getD []).length⟩

end Spelling

/-! ### Digits -/

theorem digits_toDigits (n : ℕ) : Spelling.Digits (Nat.toDigits 10 n) :=
  ⟨Nat.toDigits_ne_nil, fun _ h => Nat.isDigit_of_mem_toDigits (by decide) (by decide) h⟩

theorem digits_zero : Spelling.Digits ['0'] := ⟨nofun, List.forall_mem_singleton.2 rfl⟩

/-- The digits of a number other than zero do not start with a zero. -/
theorem head?_toDigits_ne {n : ℕ} (h : n ≠ 0) : (Nat.toDigits 10 n).head? ≠ some '0' := by
  have hdigit : ∀ n < 10, n ≠ 0 → n.digitChar ≠ '0' := by decide
  induction n using Nat.strongRecOn with
  | ind n ih =>
    rw [Nat.toDigits_eq_if (by decide)]
    split
    · next hlt => exact fun heq => hdigit n hlt h (Option.some_inj.1 heq)
    · rw [List.head?_append_of_ne_nil _ Nat.toDigits_ne_nil]
      exact ih (n / 10) (by omega) (by omega)

/-- A zero in front is the only digit. -/
theorem lead_toDigits (n : ℕ) :
    (Nat.toDigits 10 n).head? = some '0' → (Nat.toDigits 10 n).length ≤ 1 := by
  intro hzero
  by_cases hn : n = 0
  · rw [hn]
    decide
  · exact absurd hzero (head?_toDigits_ne hn)

/-- A text ends in as many zeros as are cut off. -/
theorem exists_append_replicate (text : List Char) : ∃ zeros,
    text = (text.reverse.dropWhile (· == '0')).reverse ++ List.replicate zeros '0' := by
  have hzeros : text.reverse.takeWhile (· == '0') =
      List.replicate (text.reverse.takeWhile (· == '0')).length '0' :=
    List.eq_replicate_iff.2 ⟨rfl, fun c hc =>
      beq_iff_eq.1 (List.mem_takeWhile_imp (p := (· == '0')) hc)⟩
  refine ⟨(text.reverse.takeWhile (· == '0')).length, ?_⟩
  rw [← List.reverse_replicate, ← hzeros, ← List.reverse_append, List.takeWhile_append_dropWhile,
    List.reverse_reverse]

namespace Decimal

/-- The digits of a decimal without the zeros at their end. -/
def significantDigits (d : Decimal) : List Char := (d.digits.reverse.dropWhile (· == '0')).reverse

/-- A factor of ten is a place. -/
theorem value_mul_ten_pow (c : ℕ) (e : ℤ) (k : ℕ) :
    (Decimal.mk (c * 10 ^ k) e).value = (Decimal.mk c (e + k)).value := by
  simp only [value]
  push_cast
  rw [zpow_add₀ (by norm_num), zpow_natCast]
  ring

/-- Digits with zeros in front of them and behind them. -/
theorem ofDigitChars_zeros (before after : ℕ) (digits : List Char) :
    Nat.ofDigitChars 10 (List.replicate before '0' ++ digits ++ List.replicate after '0') 0 =
      Nat.ofDigitChars 10 digits 0 * 10 ^ after := by
  rw [Nat.ofDigitChars_append, Nat.ofDigitChars_append, Nat.ofDigitChars_replicate_zero,
    Nat.ofDigitChars_replicate_zero, Nat.mul_zero, Nat.mul_comm]

/-- A decimal by its significant digits. -/
theorem exists_significantDigits (d : Decimal) (hne : d.coefficient ≠ 0) :
    ∃ zeros : ℕ, d.digits.length = d.significantDigits.length + zeros ∧
      (Decimal.mk (Nat.ofDigitChars 10 d.significantDigits 0) (d.exponent + zeros)).value =
        d.value ∧
      Spelling.Digits d.significantDigits ∧ d.significantDigits.head? ≠ some '0' := by
  obtain ⟨zeros, hzeros⟩ := exists_append_replicate d.digits
  rw [← significantDigits] at hzeros
  have hvalue : Nat.ofDigitChars 10 d.significantDigits 0 * 10 ^ zeros = d.coefficient := by
    rw [← ofDigitChars_zeros 0, List.replicate_zero, List.nil_append, ← hzeros, digits,
      Nat.ofDigitChars_ten_toDigits]
  have hnil : d.significantDigits ≠ [] := by
    intro hnil
    rw [hnil, Nat.ofDigitChars_nil, Nat.zero_mul] at hvalue
    exact hne hvalue.symm
  have hdigits := digits_toDigits d.coefficient
  refine ⟨zeros, ?_, ?_, ⟨hnil, fun c hc => hdigits.2 c ?_⟩, ?_⟩
  · conv_lhs => rw [hzeros]
    rw [List.length_append, List.length_replicate]
  · rw [← value_mul_ten_pow, hvalue]
  · rw [← digits, hzeros]
    exact List.mem_append_left _ hc
  · have hhead := head?_toDigits_ne hne
    rw [← digits, hzeros, List.head?_append_of_ne_nil _ hnil] at hhead
    exact hhead

end Decimal

/-! ### Styles -/

namespace Style

variable {digits : List Char}

/-- A point between digits, and what stands in its place if there is none behind it. -/
theorem exists_spelling_of_parts (keepsPoint : Bool) (whole fraction : List Char)
    (hwhole : Spelling.Digits whole)
    (hlead : whole.head? = some '0' → whole.length ≤ 1) (hfraction : ∀ c ∈ fraction, c.isDigit) :
    ∃ spelling : Spelling, spelling.WellFormed ∧ spelling.Normal ∧
      spelling.text = (if !fraction.isEmpty then whole ++ '.' :: fraction
        else if keepsPoint then whole ++ ['.', '0'] else whole) ∧
      spelling.decimal.value =
        (Decimal.mk (Nat.ofDigitChars 10 (whole ++ fraction) 0) (-fraction.length)).value := by
  by_cases hnil : fraction = []
  · subst hnil
    cases keepsPoint with
    | false =>
      refine ⟨{ whole }, ⟨hwhole, hlead, nofun, nofun⟩, .inl rfl, ?_, ?_⟩
      · simp [Spelling.text, Spelling.fractionText, Spelling.exponentText]
      · simp [Spelling.decimal, Spelling.power]
    | true =>
      refine ⟨{ whole, fraction := some ['0'] }, ⟨hwhole, hlead, ?_, nofun⟩, .inl rfl, ?_, ?_⟩
      · rintro _ ⟨⟩
        exact digits_zero
      · simp [Spelling.text, Spelling.fractionText, Spelling.exponentText]
      · -- The zero behind the point is a factor of ten.
        have h := Decimal.ofDigitChars_zeros 0 1 whole
        simp only [List.replicate_zero, List.nil_append, List.replicate_one] at h
        simp only [Spelling.decimal, Spelling.power, Option.getD_some, h]
        rw [Decimal.value_mul_ten_pow, List.append_nil]
        rfl
  · refine ⟨{ whole, fraction := some fraction }, ⟨hwhole, hlead, ?_, nofun⟩, .inl rfl, ?_, ?_⟩
    · rintro _ ⟨⟩
      exact ⟨hnil, hfraction⟩
    · simp [Spelling.text, Spelling.fractionText, Spelling.exponentText, hnil]
    · simp [Spelling.decimal, Spelling.power]

/-- Digits with a point where the size says. -/
theorem exists_spelling_pointed (style : Style) (hdigits : Spelling.Digits digits)
    (hhead : digits.head? ≠ some '0') (size : ℤ) :
    ∃ spelling : Spelling, spelling.WellFormed ∧ spelling.Normal ∧
      spelling.text = style.pointed digits size ∧ spelling.decimal.value =
        (Decimal.mk (Nat.ofDigitChars 10 digits 0) (size + 1 - digits.length)).value := by
  have hzeros (k : ℕ) : ∀ c ∈ List.replicate k '0', c.isDigit := fun c hc => by
    rw [List.eq_of_mem_replicate hc]
    decide
  simp only [pointed]
  by_cases hsize : size < 0
  · -- All digits stand behind the point, after zeros that do not count.
    rw [if_pos hsize, if_pos hsize]
    obtain ⟨spelling, hwell, hnormal, htext, hvalue⟩ := exists_spelling_of_parts style.keepsPoint
      ['0'] (List.replicate (-size - 1).toNat '0' ++ digits) digits_zero (fun _ => le_rfl)
      (List.forall_mem_append.2 ⟨hzeros _, hdigits.2⟩)
    refine ⟨spelling, hwell, hnormal, htext, hvalue.trans ?_⟩
    have h := Decimal.ofDigitChars_zeros ((-size - 1).toNat + 1) 0 digits
    simp only [List.replicate_succ, List.replicate_zero, List.append_nil, pow_zero, Nat.mul_one,
      List.cons_append] at h
    simp only [List.cons_append, List.nil_append, h, List.length_append, List.length_replicate]
    congr 2
    omega
  · rw [if_neg hsize, if_neg hsize]
    -- From here on only the number of digits before the point matters.
    obtain ⟨n, hn, hpos⟩ : ∃ n : ℕ, size + 1 = n ∧ n ≠ 0 := ⟨(size + 1).toNat, by omega, by omega⟩
    obtain rfl : size = n - 1 := by omega
    rw [show ((n : ℤ) - 1).toNat + 1 = n by omega, Int.sub_add_cancel]
    have htake : digits.take n ≠ [] := by simp [hdigits.1, hpos]
    obtain ⟨spelling, hwell, hnormal, htext, hvalue⟩ := exists_spelling_of_parts style.keepsPoint
      (digits.take n ++ List.replicate (n - digits.length) '0') (digits.drop n)
      ⟨List.append_ne_nil_of_left_ne_nil htake _, List.forall_mem_append.2
        ⟨fun c hc => hdigits.2 c (List.mem_of_mem_take hc), hzeros _⟩⟩
      (fun hlead => by
        rw [List.head?_append_of_ne_nil _ htake, List.head?_take, if_neg hpos] at hlead
        exact absurd hlead hhead)
      (fun c hc => hdigits.2 c (List.mem_of_mem_drop hc))
    refine ⟨spelling, hwell, hnormal, htext, hvalue.trans ?_⟩
    by_cases hlen : digits.length ≤ n
    · -- All digits stand before the point, with zeros that make up for the places left.
      rw [List.take_of_length_le hlen, List.drop_of_length_le hlen, List.append_nil]
      have h := Decimal.ofDigitChars_zeros 0 (n - digits.length) digits
      rw [List.replicate_zero, List.nil_append] at h
      rw [h, Decimal.value_mul_ten_pow]
      congr 2
      simp only [List.length_nil]
      omega
    · rw [show n - digits.length = 0 by omega, List.replicate_zero, List.append_nil,
        List.take_append_drop, List.length_drop]
      congr 2
      omega

/-- Digits with a power of ten. -/
theorem exists_spelling_scientific (hdigits : Spelling.Digits digits) (size : ℤ) :
    ∃ spelling : Spelling, spelling.WellFormed ∧ spelling.Normal ∧
      spelling.text = scientific digits size ∧ spelling.decimal.value =
        (Decimal.mk (Nat.ofDigitChars 10 digits 0) (size + 1 - digits.length)).value := by
  obtain ⟨first, rest, rfl⟩ := List.exists_cons_of_ne_nil hdigits.1
  have hsize : Spelling.Digits (Nat.toDigits 10 size.natAbs) := digits_toDigits _
  have hpower : (if size < 0 then -(Nat.ofDigitChars 10 (Nat.toDigits 10 size.natAbs) 0 : ℤ)
      else Nat.ofDigitChars 10 (Nat.toDigits 10 size.natAbs) 0) = size := by
    rw [Nat.ofDigitChars_ten_toDigits]
    split_ifs <;> omega
  refine ⟨{ whole := [first]
            fraction := if rest = [] then none else some rest
            exponent := some (decide (size < 0), Nat.toDigits 10 size.natAbs) },
    ⟨⟨nofun, ?_⟩, fun _ => le_rfl, ?_, ?_⟩, .inr rfl, ?_, ?_⟩
  · exact List.forall_mem_singleton.2 (hdigits.2 first List.mem_cons_self)
  · intro places hplaces
    split_ifs at hplaces with hnil
    · exact absurd hplaces nofun
    · obtain rfl := Option.some_inj.1 hplaces
      exact ⟨hnil, fun c hc => hdigits.2 c (List.mem_cons_of_mem _ hc)⟩
  · rintro _ ⟨⟩
    exact hsize
  · by_cases hnil : rest = [] <;>
      simp [Spelling.text, Spelling.fractionText, Spelling.exponentText, scientific, hnil]
  · have hparts : (if rest = [] then none else some rest : Option (List Char)).getD [] = rest := by
      split_ifs with hnil
      · exact hnil.symm
      · rfl
    simp only [Spelling.decimal, Spelling.power, hparts, decide_eq_true_eq, hpower]
    congr 2
    rw [List.length_cons]
    push_cast
    omega

/-- The text of a decimal in a style is a numeral of the same value. -/
theorem exists_spelling (style : Style) (hzero : style.positional 0 = true) (d : Decimal) :
    ∃ spelling : Spelling, spelling.WellFormed ∧ spelling.Normal ∧
      spelling.text = style.decimalText d ∧ spelling.decimal.value = d.value := by
  rw [decimalText]
  by_cases hne : d.coefficient = 0
  · -- Zero has no significant digits, and its text is that of a single zero.
    have hdigits : d.significantDigits = [] := by
      rw [Decimal.significantDigits, Decimal.digits, hne]
      rfl
    obtain ⟨spelling, hwell, hnormal, htext, hvalue⟩ := exists_spelling_of_parts style.keepsPoint
      ['0'] [] digits_zero (fun _ => le_rfl) nofun
    refine ⟨spelling, hwell, hnormal, htext.trans ?_, hvalue.trans ?_⟩
    · rw [if_pos hne, if_pos hzero, ← Decimal.significantDigits, hdigits]
      rfl
    · have hchars : Nat.ofDigitChars 10 ['0'] 0 = 0 := by decide
      simp [Decimal.value, hne, hchars]
  · obtain ⟨zeros, hlen, hvalue, hdigits, hhead⟩ := d.exists_significantDigits hne
    have hpos : 0 < d.significantDigits.length := List.length_pos_iff.2 hdigits.1
    have hexponent : d.exponent + (d.digits.length - 1 : ℕ) + 1 - d.significantDigits.length =
        d.exponent + zeros := by
      omega
    rw [if_neg hne, ← Decimal.significantDigits]
    rw [← hvalue, ← hexponent]
    split
    · exact style.exists_spelling_pointed hdigits hhead _
    · exact exists_spelling_scientific hdigits _

/-- The plain style knows no exponents, however large the number is. -/
example : String.ofList (plain.decimalText ⟨1, 23⟩) = "100000000000000000000000" := by decide

end Style

end GateGrid

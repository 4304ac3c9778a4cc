import GateGrid.Cell
import GateGrid.Proofs.Json.Token
import GateGrid.Proofs.Text.Delimited

/-!
# Numbers and names in texts for people

What is written for a finite number is a numeral, and a reader of numerals reads the number back.
The words for infinity and for what is no number are no numerals, and no reader takes them for one.
So the text of a number tells the number, to the last bit; only what is no number has one text for
all its bit patterns. The names of wires, columns and cells tell their numbers.

None of these texts holds a character by which texts for people are divided (`Text.reserved`).

* `Binary64.display_eq_iff`: which numbers have the same text;
* `Binary64.free_display`, `Wire.free_label`: no such character is in a number or in a name;
* `toDigits_append_cons_inj`: a number ends at a mark that is no digit;
* `Wire.label_inj`, `Column.label_inj`, `Cell.label_inj`: what has another number has another name.
-/

namespace GateGrid

open Text (Free reserved)

namespace Spelling

/-- A mark that is no digit is not among digits. -/
theorem Digits.free {text marks : List Char} (h : Digits text)
    (hmarks : ∀ c ∈ marks, c.isDigit = false) : Free marks text := by
  intro c hc hmark
  have hdigit := h.2 c hc
  rw [hmarks c hmark] at hdigit
  exact absurd hdigit Bool.false_ne_true

theorem Digits.free_reserved {text : List Char} (h : Digits text) : Free reserved text :=
  h.free fun _ => Text.isDigit_of_mem_reserved

/-- In a numeral there are digits, a point, the mark of an exponent, and signs. -/
theorem WellFormed.free_text {spelling : Spelling} (h : spelling.WellFormed) :
    Free reserved spelling.text := by
  have hfraction : Free reserved spelling.fractionText := by
    rw [fractionText]
    split
    · exact Text.free_nil reserved
    · next places hplaces =>
      exact Free.append (s := ['.']) (by decide) (h.fraction places hplaces).free_reserved
  have hexponent : Free reserved spelling.exponentText := by
    rw [exponentText]
    split
    · exact Text.free_nil reserved
    · next negative size hsize =>
      have hmarks : Free reserved ['e', if negative then '-' else '+'] := by
        cases negative <;> decide
      exact hmarks.append (h.exponent _ hsize).free_reserved
  exact (h.whole.free_reserved.append hfraction).append hexponent

end Spelling

namespace Binary64

variable {a b : Binary64}

/-! ### Finite numbers -/

theorem toList_display_of_isFinite (h : a.isFinite) :
    a.display.toList = Style.plain.text a := by
  rw [display, if_pos h, String.toList_ofList]

/-- The text of a finite number is read as the number. -/
theorem exists_number_display (h : a.isFinite) :
    ∃ found, Json.Reader.number a.display.toList = .ok ((found, a), []) := by
  have hread := Json.Reader.number_text Style.plain rfl h Json.Reader.ends_nil
  rwa [List.append_nil, ← toList_display_of_isFinite h] at hread

/-! ### Infinity and what is no number -/

/-- The words for what is not finite. -/
theorem display_of_not_isFinite (h : ¬a.isFinite) :
    a.display = if a.isNaN then "NaN" else if a.negative then "-inf" else "inf" := by
  rw [display, if_neg h]

/-- The words for what is not finite are no numerals. -/
theorem exists_number_display_eq_error (h : ¬a.isFinite) :
    ∃ fault, Json.Reader.number a.display.toList = .error fault := by
  rw [display_of_not_isFinite h]
  split_ifs
  · exact ⟨.malformed, rfl⟩
  · exact ⟨.malformed, rfl⟩
  · exact ⟨.malformed, rfl⟩

theorem magnitude_eq_of_not_isFinite (h : ¬a.isFinite) (hnan : ¬a.isNaN) :
    a.magnitude = infiniteMagnitude := by
  rw [isFinite, decide_eq_true_eq] at h
  rw [isNaN, decide_eq_true_eq] at hnan
  omega

/-- What is not finite is known by its word, up to the bits of what is no number. -/
theorem eq_or_isNaN_of_display_eq (ha : ¬a.isFinite) (hb : ¬b.isFinite)
    (h : a.display = b.display) : a = b ∨ a.isNaN ∧ b.isNaN := by
  rw [display_of_not_isFinite ha, display_of_not_isFinite hb] at h
  by_cases hnan : a.isNaN <;> by_cases hnan' : b.isNaN
  · exact .inr ⟨hnan, hnan'⟩
  · rw [if_pos hnan, if_neg hnan'] at h
    split_ifs at h <;> exact absurd h (by decide)
  · rw [if_neg hnan, if_pos hnan'] at h
    split_ifs at h <;> exact absurd h (by decide)
  · rw [if_neg hnan, if_neg hnan'] at h
    have hsign : a.negative = b.negative := by
      cases hneg : a.negative <;> cases hneg' : b.negative <;> simp [hneg, hneg'] at h ⊢
    have hmagnitude : a.magnitude = b.magnitude := by
      rw [magnitude_eq_of_not_isFinite ha hnan, magnitude_eq_of_not_isFinite hb hnan']
    left
    obtain ⟨negative, magnitude, hlt⟩ := a
    obtain ⟨negative', magnitude', hlt'⟩ := b
    obtain rfl : negative = negative' := hsign
    obtain rfl : magnitude = magnitude' := hmagnitude
    rfl

/-! ### All numbers -/

theorem display_of_isNaN (h : a.isNaN) : a.display = "NaN" := by
  have hfinite : ¬a.isFinite := by
    rw [isNaN, decide_eq_true_eq] at h
    rw [isFinite, decide_eq_true_eq]
    omega
  rw [display_of_not_isFinite hfinite, if_pos h]

/-- Two numbers have the same text if they are the same to the last bit, or both are no numbers. -/
theorem display_eq_iff : a.display = b.display ↔ a = b ∨ a.isNaN ∧ b.isNaN := by
  constructor
  · intro h
    by_cases ha : a.isFinite <;> by_cases hb : b.isFinite
    · -- Reading the one text gives both numbers.
      obtain ⟨found, hread⟩ := exists_number_display ha
      obtain ⟨found', hread'⟩ := exists_number_display hb
      rw [h, hread'] at hread
      cases hread
      exact .inl rfl
    · obtain ⟨found, hread⟩ := exists_number_display ha
      obtain ⟨fault, hread'⟩ := exists_number_display_eq_error hb
      rw [h, hread'] at hread
      cases hread
    · obtain ⟨found, hread⟩ := exists_number_display hb
      obtain ⟨fault, hread'⟩ := exists_number_display_eq_error ha
      rw [← h, hread'] at hread
      cases hread
    · exact eq_or_isNaN_of_display_eq ha hb h
  · rintro (rfl | ⟨ha, hb⟩)
    · rfl
    · rw [display_of_isNaN ha, display_of_isNaN hb]

/-- The two zeros are different to the last bit, and so are their texts. -/
example : (ofBits 0x8000000000000000).display = "-0" ∧ (ofBits 0).display = "0" := by
  decide +kernel

theorem free_display (a : Binary64) : Free reserved a.display.toList := by
  by_cases h : a.isFinite
  · obtain ⟨spelling, hwell, -, htext, -⟩ := Style.plain.exists_spelling rfl
      (a.shortest Style.plain.tie)
    have hsign : Free reserved (if a.negative then ['-'] else []) := by
      split_ifs <;> decide
    rw [toList_display_of_isFinite h, Style.text, ← htext]
    exact hsign.append hwell.free_text
  · rw [display_of_not_isFinite h]
    split_ifs <;> decide

end Binary64

/-! ### Names with a number -/

theorem toList_toString (n : ℕ) : (toString n).toList = Nat.toDigits 10 n := by
  rw [Nat.toString_eq_repr, Nat.toList_repr]

theorem toDigits_inj {m n : ℕ} (h : Nat.toDigits 10 m = Nat.toDigits 10 n) : m = n := by
  rw [← Nat.ofDigitChars_ten_toDigits (n := m), h, Nat.ofDigitChars_ten_toDigits]

/-- A number ends at a mark that is no digit. -/
theorem toDigits_append_cons_inj {m n : ℕ} {mark : Char} {rest rest' : List Char}
    (hmark : mark.isDigit = false)
    (h : Nat.toDigits 10 m ++ mark :: rest = Nat.toDigits 10 n ++ mark :: rest') :
    m = n ∧ rest = rest' := by
  have hfree (n : ℕ) : Free [mark] (Nat.toDigits 10 n) :=
    (digits_toDigits n).free (List.forall_mem_singleton.2 hmark)
  obtain ⟨hdigits, htail⟩ :=
    Text.append_cons_inj_of_free List.mem_cons_self (hfree m) (hfree n) h
  exact ⟨toDigits_inj hdigits, htail⟩

theorem free_numbered {letter : String} (hletter : Free reserved letter.toList) (n : ℕ) :
    Free reserved (letter ++ toString n).toList := by
  rw [String.toList_append, toList_toString]
  exact hletter.append (digits_toDigits n).free_reserved

/-- A name that is a letter and a number tells the number. -/
theorem numbered_inj {letter : String} {m n : UInt32}
    (h : letter ++ toString m.toNat = letter ++ toString n.toNat) : m = n := by
  rw [← String.toList_inj, String.toList_append, String.toList_append, toList_toString,
    toList_toString] at h
  exact UInt32.toNat_inj.1 (toDigits_inj (List.append_cancel_left h))

namespace Wire

theorem toList_label (wire : Wire) :
    wire.label.toList = 'q' :: Nat.toDigits 10 wire.index.toNat := by
  rw [label, String.toList_append, toList_toString]
  rfl

theorem free_label (wire : Wire) : Free reserved wire.label.toList :=
  free_numbered (by decide) wire.index.toNat

/-- Different wires have different names. -/
theorem label_inj {wire other : Wire} (h : wire.label = other.label) : wire = other :=
  congrArg mk (numbered_inj h)

end Wire

namespace Column

theorem free_label (column : Column) : Free reserved column.label.toList :=
  free_numbered (by decide) column.index.toNat

/-- Different columns have different names. -/
theorem label_inj {column other : Column} (h : column.label = other.label) : column = other :=
  congrArg mk (numbered_inj h)

end Column

/-- Different cells have different names. -/
theorem Cell.label_inj {cell other : Cell} (h : cell.label = other.label) : cell = other := by
  have htoList (cell : Cell) : cell.label.toList = '(' :: (cell.wire.label.toList ++
      ',' :: ' ' :: (cell.column.label.toList ++ [')'])) := by
    simp [label]
  rw [← String.toList_inj, htoList, htoList] at h
  obtain ⟨hwire, htail⟩ := Text.append_cons_inj_of_free (by decide) cell.wire.free_label
    other.wire.free_label (List.cons.inj h).2
  have hcolumn := List.append_cancel_right (List.cons.inj htail).2
  exact congrArg₂ mk (Wire.label_inj (String.toList_inj.1 hwire))
    (Column.label_inj (String.toList_inj.1 hcolumn))

end GateGrid

import GateGrid.Json.Document
import GateGrid.Json.Record
import GateGrid.Proofs.Number.Spelling
import Mathlib.Data.List.Basic

/-!
# Reading single marks, words and numerals

What a reader does at the front of a text whose first part is known. The rest of the text stays as
it is, whatever it is; only behind a numeral it must not go on as if it belonged to the numeral.

* `Reader.bind_of_ok`, `Reader.bind_of_error`: one reader after another, by what the first one does;
* `Reader.lookAhead_append`, `Reader.mark_append`: blanks in front are passed over;
* `Reader.quotedText_append`: a word without escapes;
* `Reader.numeral_of_parts`, `Reader.numeral_append`: a numeral by its parts;
* `Reader.number_text`, `Reader.number_ofNat`: what is written for a number.
-/

namespace GateGrid.Json

namespace Reader

variable {α β : Type} {text rest blanks : List Char}

theorem bind_of_ok {read : Reader α} {value : α} (h : read text = .ok (value, rest))
    (next : α → Reader β) : (read >>= next) text = next value rest := by
  rw [bind_apply, h]

theorem bind_of_error {read : Reader α} {fault : Fault} (h : read text = .error fault)
    (next : α → Reader β) : (read >>= next) text = .error fault := by
  rw [bind_apply, h]

theorem peek_apply (text : List Char) : peek text = .ok (text.head?, text) := rfl

theorem advance_cons (c : Char) (rest : List Char) : advance (c :: rest) = .ok ((), rest) := rfl

/-! ### Blanks and marks -/

/-- A text of blanks alone. -/
def Blank (text : List Char) : Prop := ∀ c ∈ text, isBlank c

instance : DecidablePred Blank := fun _ => List.decidableBAll ..

theorem blank_nil : Blank [] := nofun

/-- Looking ahead passes over blanks. -/
theorem lookAhead_append {c : Char} (hblanks : Blank blanks) (hc : isBlank c = false) :
    lookAhead (blanks ++ c :: rest) = .ok (some c, c :: rest) := by
  have hskip : skipBlanks (blanks ++ c :: rest) = .ok ((), c :: rest) := by
    rw [skipBlanks, List.dropWhile_append_of_pos hblanks, List.dropWhile_cons_of_neg (by simp [hc])]
  rw [lookAhead, bind_of_ok hskip]
  rfl

/-- A mark is taken, with the blanks in front of it. -/
theorem mark_append {c : Char} (hblanks : Blank blanks) (hc : isBlank c = false) :
    mark c (blanks ++ c :: rest) = .ok ((), rest) := by
  rw [mark, bind_of_ok (lookAhead_append hblanks hc)]
  simp only [if_true]
  rfl

end Reader

/-! ### Words -/

/-- The characters stand for themselves in a string. -/
def Plain (text : List Char) : Prop := ∀ c ∈ text, c ≠ '"' ∧ c ≠ '\\' ∧ 0x20 ≤ c.toNat

instance : DecidablePred Plain := fun _ => List.decidableBAll ..

theorem scan_cons {c : Char} (hquote : c ≠ '"') (hslash : c ≠ '\\') (hlow : 0x20 ≤ c.toNat)
    (rest : List Char) : scan (c :: rest) = (scan rest).cons c.toNat := by
  rw [scan]
  · rw [if_neg (by omega)]
  all_goals simp_all

/-- The units of a word without escapes are its code points. -/
theorem scan_append {word : List Char} (h : Plain word) (rest : List Char) :
    scan (word ++ '"' :: rest) = ⟨word.map Char.toNat, .ok rest⟩ := by
  induction word with
  | nil => simp [scan]
  | cons c word ih =>
    obtain ⟨⟨hquote, hslash, hlow⟩, hword⟩ := List.forall_mem_cons.1 h
    rw [List.cons_append, scan_cons hquote hslash hlow, ih hword]
    rfl

/-- The code point of a character is no surrogate. -/
theorem not_surrogate_toNat (c : Char) :
    isHighSurrogate c.toNat = false ∧ isLowSurrogate c.toNat = false := by
  have hvalid : c.toNat < 0xD800 ∨ 0xDFFF < c.toNat ∧ c.toNat < 0x110000 := c.valid
  simp only [isHighSurrogate, isLowSurrogate, Bool.and_eq_false_iff, decide_eq_false_iff_not]
  omega

/-- A unit that is the code point of a character stands for the character. -/
theorem joinUnits_cons_toNat (stop : Except Fault (List Char)) (c : Char) (units : List ℕ) :
    joinUnits stop (c.toNat :: units) =
      (joinUnits stop units).map fun (text, rest) => (c :: text, rest) := by
  obtain ⟨hhigh, hlow⟩ := not_surrogate_toNat c
  cases units with
  | nil => cases stop <;> simp [joinUnits, hhigh, hlow, Except.map]
  | cons unit units =>
    rw [joinUnits, if_neg (by simp [hhigh]), if_neg (by simp [hlow]), Char.ofNat_toNat]

/-- Code points give back their characters, followed by what stopped the scan. -/
theorem joinUnits_map_toNat (stop : Except Fault (List Char)) (word : List Char) :
    joinUnits stop (word.map Char.toNat) = stop.map fun rest => (word, rest) := by
  induction word with
  | nil => rfl
  | cons c word ih =>
    rw [List.map_cons, joinUnits_cons_toNat, ih]
    cases stop <;> rfl

namespace Reader

variable {rest : List Char}

/-- A word without escapes is read up to its closing quotation mark. -/
theorem quotedText_append {word : String} (h : Plain word.toList) :
    quotedText (word.toList ++ '"' :: rest) = .ok (word, rest) := by
  rw [quotedText, scan_append h, joinUnits_map_toNat]
  simp [Except.map]

/-! ### Numerals -/

/-- Here no numeral goes on. -/
def Ends (rest : List Char) : Prop :=
  ∀ c ∈ rest.head?, c.isDigit = false ∧ c ≠ '.' ∧ c ≠ 'e' ∧ c ≠ 'E'

theorem ends_nil : Ends [] := nofun

/-- All digits are taken, up to what is no digit. -/
theorem digits_append {found : List Char} (h : Spelling.Digits found)
    (hrest : ∀ c ∈ rest.head?, c.isDigit = false) : digits (found ++ rest) = .ok (found, rest) := by
  have htake : rest.takeWhile Char.isDigit = [] ∧ rest.dropWhile Char.isDigit = rest := by
    cases rest with
    | nil => exact ⟨rfl, rfl⟩
    | cons c rest =>
      have hc : ¬c.isDigit = true := by simp [hrest c rfl]
      exact ⟨List.takeWhile_cons_of_neg hc, List.dropWhile_cons_of_neg hc⟩
  rw [digits, List.takeWhile_append_of_pos h.2, List.dropWhile_append_of_pos h.2, htake.1, htake.2,
    List.append_nil]
  split
  · exact absurd rfl h.1
  · rfl

theorem wholeDigits_append {found : List Char} (h : Spelling.Digits found)
    (hlead : found.head? = some '0' → found.length ≤ 1)
    (hrest : ∀ c ∈ rest.head?, c.isDigit = false) :
    wholeDigits (found ++ rest) = .ok (found, rest) := by
  rw [wholeDigits, bind_of_ok (digits_append h hrest), if_neg fun hzero => by
    have := hlead hzero.1
    omega]
  rfl

theorem fraction_none (hrest : rest.head? ≠ some '.') : fraction rest = .ok (none, rest) := by
  rw [fraction, bind_of_ok (peek_apply _), if_neg hrest]
  rfl

theorem fraction_cons {places : List Char} (h : Spelling.Digits places)
    (hrest : ∀ c ∈ rest.head?, c.isDigit = false) :
    fraction ('.' :: (places ++ rest)) = .ok (some places, rest) := by
  rw [fraction, bind_of_ok (peek_apply _), List.head?_cons, if_pos rfl,
    bind_of_ok (advance_cons _ _), bind_of_ok (digits_append h hrest)]
  rfl

theorem fraction_append {spelling : Spelling} (h : spelling.WellFormed)
    (hrest : ∀ c ∈ rest.head?, c.isDigit = false ∧ c ≠ '.') :
    fraction (spelling.fractionText ++ rest) = .ok (spelling.fraction, rest) := by
  rw [Spelling.fractionText]
  cases hfraction : spelling.fraction with
  | none => exact fraction_none fun hpoint => (hrest _ hpoint).2 rfl
  | some places =>
    exact fraction_cons (h.fraction places hfraction) fun c hc => (hrest c hc).1

theorem exponentSign_cons (negative : Bool) (rest : List Char) :
    exponentSign ((if negative then '-' else '+') :: rest) = .ok (negative, rest) := by
  cases negative <;> rfl

theorem exponent_none (hrest : ∀ c ∈ rest.head?, c ≠ 'e' ∧ c ≠ 'E') :
    exponent rest = .ok (none, rest) := by
  rw [exponent, bind_of_ok (peek_apply _), if_neg]
  · rfl
  · rintro (hmark | hmark)
    · exact (hrest _ hmark).1 rfl
    · exact (hrest _ hmark).2 rfl

/-- An exponent is read by its mark, its sign and its digits. -/
theorem exponent_cons {c : Char} {text size : List Char} {negative : Bool}
    (hmark : c = 'e' ∨ c = 'E') (hsign : exponentSign text = .ok (negative, size ++ rest))
    (hsize : Spelling.Digits size) (hrest : ∀ c ∈ rest.head?, c.isDigit = false) :
    exponent (c :: text) = .ok (some (if negative then -(Nat.ofDigitChars 10 size 0 : ℤ)
      else Nat.ofDigitChars 10 size 0), rest) := by
  rw [exponent, bind_of_ok (peek_apply _), List.head?_cons,
    if_pos (hmark.imp (congrArg some) (congrArg some)), bind_of_ok (advance_cons _ _),
    bind_of_ok hsign, bind_of_ok (digits_append hsize hrest)]
  rfl

theorem exponent_append {spelling : Spelling} (h : spelling.WellFormed) (hrest : Ends rest) :
    exponent (spelling.exponentText ++ rest) =
      .ok (spelling.exponent.map fun _ => spelling.power, rest) := by
  rw [Spelling.exponentText, Spelling.power]
  cases hexponent : spelling.exponent with
  | none => exact exponent_none fun c hc => (hrest c hc).2.2
  | some part =>
    obtain ⟨negative, size⟩ := part
    exact exponent_cons (.inl rfl) (exponentSign_cons negative _) (h.exponent _ hexponent)
      fun c hc => (hrest c hc).1

theorem minus_append (negative : Bool) (hrest : rest.head? ≠ some '-') :
    minus ((if negative then ['-'] else []) ++ rest) = .ok (negative, rest) := by
  cases negative with
  | true => rfl
  | false =>
    rw [minus, bind_of_ok (peek_apply _), if_neg]
    · rfl
    · exact hrest

/-- A numeral is read by its parts, one after the other. -/
theorem numeral_of_parts {whole rest₁ rest₂ : List Char} {places : Option (List Char)}
    {power : Option ℤ} (negative : Bool) (hwhole : Spelling.Digits whole)
    (hlead : whole.head? = some '0' → whole.length ≤ 1)
    (hrest : ∀ c ∈ rest₁.head?, c.isDigit = false)
    (hfraction : fraction rest₁ = .ok (places, rest₂))
    (hexponent : exponent rest₂ = .ok (power, rest)) :
    numeral ((if negative then ['-'] else []) ++ (whole ++ rest₁)) =
      .ok (⟨negative, places.isNone && power.isNone,
        ⟨Nat.ofDigitChars 10 (whole ++ places.getD []) 0,
          power.getD 0 - (places.getD []).length⟩⟩, rest) := by
  rw [numeral, bind_of_ok (minus_append negative (hwhole.head?_ne_minus _)),
    bind_of_ok (wholeDigits_append hwhole hlead hrest), bind_of_ok hfraction, bind_of_ok hexponent,
    pure_apply]

/-- A numeral stands for its decimal. -/
theorem numeral_append {spelling : Spelling} (h : spelling.WellFormed) (negative : Bool)
    (hrest : Ends rest) :
    numeral ((if negative then ['-'] else []) ++ spelling.text ++ rest) =
      .ok (⟨negative, spelling.fraction.isNone && spelling.exponent.isNone, spelling.decimal⟩,
        rest) := by
  -- What follows each part does not go on as if it belonged to the part.
  have hexponent : ∀ c ∈ (spelling.exponentText ++ rest).head?, c.isDigit = false ∧ c ≠ '.' := by
    rw [Spelling.exponentText]
    split
    · exact fun c hc => ⟨(hrest c hc).1, (hrest c hc).2.1⟩
    · rintro _ ⟨⟩
      exact ⟨rfl, by decide⟩
  have hfraction := spelling.head?_fractionText_append fun c hc => (hexponent c hc).1
  have hpower : (spelling.exponent.map fun _ => spelling.power).getD 0 = spelling.power := by
    rw [Spelling.power]
    cases spelling.exponent <;> rfl
  rw [Spelling.text]
  simp only [List.append_assoc]
  rw [numeral_of_parts negative h.whole h.lead hfraction (fraction_append h hexponent)
    (exponent_append h hrest), hpower, Option.isNone_map]
  rfl

/-- What is written for a finite number, in whatever style, is read as the number. -/
theorem number_text (style : Style) (hzero : style.positional 0 = true) {a : Binary64}
    (h : a.isFinite) (hrest : Ends rest) :
    ∃ found, number (style.text a ++ rest) = .ok ((found, a), rest) := by
  obtain ⟨spelling, hwell, -, htext, hvalue⟩ := style.exists_spelling hzero (a.shortest style.tie)
  have hnumeral := numeral_append hwell a.negative hrest
  rw [htext] at hnumeral
  refine ⟨⟨a.negative, spelling.fraction.isNone && spelling.exponent.isNone, spelling.decimal⟩, ?_⟩
  rw [number, Style.text, bind_of_ok hnumeral]
  simp only [Binary64.ofDecimal?_eq_some h hvalue]
  rfl

/-- What is written for a natural number of 32 bits is read as the number. -/
theorem number_ofNat {n : ℕ} (h : n < UInt32.size) (hrest : Ends rest) :
    ∃ value, number (Nat.toDigits 10 n ++ rest) = .ok ((⟨false, true, ⟨n, 0⟩⟩, value), rest) := by
  let spelling : Spelling := { whole := Nat.toDigits 10 n }
  have hwell : spelling.WellFormed := ⟨digits_toDigits n, lead_toDigits n, nofun, nofun⟩
  have hdecimal : spelling.decimal = ⟨n, 0⟩ := by
    simp [Spelling.decimal, Spelling.power, spelling, Nat.ofDigitChars_ten_toDigits]
  have htext : spelling.text = Nat.toDigits 10 n := by
    simp [Spelling.text, Spelling.fractionText, Spelling.exponentText, spelling]
  have hnumeral : numeral (Nat.toDigits 10 n ++ rest) = .ok (⟨false, true, ⟨n, 0⟩⟩, rest) := by
    rw [← htext, ← hdecimal]
    exact numeral_append hwell false hrest
  obtain ⟨value, hvalue⟩ := Binary64.exists_ofDecimal?_natural h false
  refine ⟨value, ?_⟩
  rw [number, bind_of_ok hnumeral]
  simp only [hvalue]
  rfl

end Reader

end GateGrid.Json

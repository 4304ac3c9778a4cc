import GateGrid.Proofs.Json.Conveys

/-!
# The grammar of JSON text

What a JSON text is, said without the readers: the characters and escapes of a string and what they
stand for, the parts of a numeral, and values that are nested in lists and objects, with blanks
wherever they may stand. A string whose escapes are read must have its surrogates in pairs; one that
is passed over may have them in any order, and the size of a numeral does not matter there.

* `Spells`: the text between the quotation marks of a string, and what it stands for;
* `IsNumeral`: the text of a number;
* `Item`, `Member`: the elements of a list and the members of an object as they are written;
* `listText`, `objectText`: lists and objects;
* `IsValue`: the text of a value;
* `Spells.quotedText_append`, `IsNumeral.exists_numeral`: how strings and numerals are read.
-/

namespace GateGrid.Json

open Reader

/-! ### Strings -/

/-- The letters that may stand behind a backslash, and the characters that they stand for. -/
def escapes : List (Char × Char) :=
  [('"', '"'), ('\\', '\\'), ('/', '/'), ('b', '\x08'), ('f', '\x0c'), ('n', '\n'), ('r', '\r'),
   ('t', '\t')]

/-- A hexadecimal digit, in lower or upper case, and its value. -/
def HexDigit (c : Char) (value : ℕ) : Prop :=
  value < 16 ∧ (c = value.digitChar ∨ c = value.digitChar.toUpper)

instance (c : Char) (value : ℕ) : Decidable (HexDigit c value) :=
  inferInstanceAs (Decidable (_ ∧ _))

/-- What stands in a string for one code unit. -/
inductive WritesUnit : List Char → ℕ → Prop
  /-- A character stands for itself. -/
  | plain {c : Char} : c ≠ '"' → c ≠ '\\' → 0x20 ≤ c.toNat → WritesUnit [c] c.toNat
  /-- A letter behind a backslash. -/
  | escape {letter c : Char} : (letter, c) ∈ escapes → WritesUnit ['\\', letter] c.toNat
  /-- Four hexadecimal digits. -/
  | hex {a b c d : Char} {p q r s : ℕ} :
      HexDigit a p → HexDigit b q → HexDigit c r → HexDigit d s →
      WritesUnit ['\\', 'u', a, b, c, d] (p * 0x1000 + q * 0x100 + r * 0x10 + s)

/-- What stands in a string for code units, one after the other. -/
inductive WritesUnits : List Char → List ℕ → Prop
  | nil : WritesUnits [] []
  | cons {head tail : List Char} {unit : ℕ} {units : List ℕ} :
      WritesUnit head unit → WritesUnits tail units → WritesUnits (head ++ tail) (unit :: units)

/-- The characters that code units stand for. -/
inductive Joins : List ℕ → List Char → Prop
  | nil : Joins [] []
  /-- A unit that is a code point. -/
  | char {c : Char} {units : List ℕ} {word : List Char} :
      Joins units word → Joins (c.toNat :: units) (c :: word)
  /-- A pair of surrogates. -/
  | pair {high low : ℕ} {c : Char} {units : List ℕ} {word : List Char} :
      0xD800 ≤ high ∧ high < 0xDC00 → 0xDC00 ≤ low ∧ low < 0xE000 →
      c.toNat = 0x10000 + (high - 0xD800) * 0x400 + (low - 0xDC00) →
      Joins units word → Joins (high :: low :: units) (c :: word)

/-- The text between the quotation marks of a string stands for the word. -/
def Spells (text : List Char) (word : String) : Prop :=
  ∃ units, WritesUnits text units ∧ Joins units word.toList

/-! ### Numerals -/

/-- The text of a fraction, or nothing. -/
inductive Fraction : List Char → Prop
  | absent : Fraction []
  | given {places : List Char} : Spelling.Digits places → Fraction ('.' :: places)

/-- The text of an exponent, or nothing. -/
inductive Exponent : List Char → Prop
  | absent : Exponent []
  | given {c : Char} {sign size : List Char} : c = 'e' ∨ c = 'E' →
      sign = [] ∨ sign = ['+'] ∨ sign = ['-'] → Spelling.Digits size →
      Exponent (c :: (sign ++ size))

/-- The text of a number: a minus sign if there is one, digits without a leading zero, a fraction
    and an exponent. -/
inductive IsNumeral : List Char → Prop
  | intro (negative : Bool) {whole fraction exponent : List Char} : Spelling.Digits whole →
      (whole.head? = some '0' → whole.length ≤ 1) → Fraction fraction → Exponent exponent →
      IsNumeral ((if negative then ['-'] else []) ++ (whole ++ (fraction ++ exponent)))

/-! ### Values -/

/-- An element of a list as it is written. -/
structure Item where
  /-- The blanks before the value. -/
  before : List Char
  /-- The value. -/
  value : List Char
  /-- The blanks behind the value. -/
  behind : List Char

/-- A member of an object as it is written. -/
structure Member where
  /-- The blanks before the key. -/
  before : List Char
  /-- What stands between the quotation marks of the key. -/
  key : List Char
  /-- The blanks between the key and the colon. -/
  middle : List Char
  /-- The value, with the blanks around it. -/
  item : Item

/-- The text of an element. -/
def Item.text (item : Item) : List Char := item.before ++ (item.value ++ item.behind)

/-- What stands before the value of a member: its key and the colon. -/
def Member.lead (member : Member) : List Char :=
  member.before ++ '"' :: (member.key ++ '"' :: (member.middle ++ [':']))

/-- The text of a member. -/
def Member.text (member : Member) : List Char := member.lead ++ member.item.text

/-- There are only blanks around the value. -/
def Item.Loose (item : Item) : Prop := Blank item.before ∧ Blank item.behind

instance : DecidablePred Item.Loose := fun item =>
  inferInstanceAs (Decidable (Blank item.before ∧ Blank item.behind))

/-- There are only blanks around the key and the value. -/
def Member.Loose (member : Member) : Prop :=
  Blank member.before ∧ Blank member.middle ∧ member.item.Loose

instance : DecidablePred Member.Loose := fun member =>
  inferInstanceAs (Decidable (Blank member.before ∧ Blank member.middle ∧ member.item.Loose))

/-- What stands behind an opening bracket: the texts of the elements, or of those behind the
    `first`, with commas between them, and the closing bracket. If there are no elements at all,
    the `space` stands between the brackets. -/
def listing (closing : Char) (space : List Char) : Bool → List (List Char) → List Char
  | true, [] => space ++ [closing]
  | false, [] => [closing]
  | first, text :: texts =>
    (if first then [] else [',']) ++ (text ++ listing closing space false texts)

/-- The text of a list, with some `space` between its brackets if there are no elements. -/
def listText (space : List Char) (items : List Item) : List Char :=
  '[' :: listing ']' space true (items.map Item.text)

/-- The text of an object, with some `space` between its brackets if there are no members. -/
def objectText (space : List Char) (members : List Member) : List Char :=
  '\x7b' :: listing '\x7d' space true (members.map Member.text)

/-- The text of a value. -/
inductive IsValue : List Char → Prop
  | literal {text : List Char} :
      text ∈ [['n', 'u', 'l', 'l'], ['t', 'r', 'u', 'e'], ['f', 'a', 'l', 's', 'e']] → IsValue text
  | numeral {text : List Char} : IsNumeral text → IsValue text
  | string {text : List Char} {units : List ℕ} :
      WritesUnits text units → IsValue ('"' :: (text ++ ['"']))
  | list {space : List Char} {items : List Item} : Blank space → (∀ item ∈ items, item.Loose) →
      (∀ item ∈ items, IsValue item.value) → IsValue (listText space items)
  | object {space : List Char} {members : List Member} : Blank space →
      (∀ member ∈ members, member.Loose) →
      (∀ member ∈ members, ∃ units, WritesUnits member.key units) →
      (∀ member ∈ members, IsValue member.item.value) →
      IsValue (objectText space members)

/-! ### Reading strings -/

theorem HexDigit.hexDigit?_eq {c : Char} {value : ℕ} (h : HexDigit c value) :
    hexDigit? c = some value := by
  have hlower : ∀ value < 16, hexDigit? value.digitChar = some value := by decide
  have hupper : ∀ value < 16, hexDigit? value.digitChar.toUpper = some value := by decide
  obtain ⟨hlt, rfl | rfl⟩ := h
  exacts [hlower value hlt, hupper value hlt]

variable {head text : List Char} {unit : ℕ} {units : List ℕ}

theorem hexValue?_eq {a b c d : Char} {p q r s : ℕ} (ha : HexDigit a p) (hb : HexDigit b q)
    (hc : HexDigit c r) (hd : HexDigit d s) :
    hexValue? [a, b, c, d] = some (p * 0x1000 + q * 0x100 + r * 0x10 + s) := by
  have hvalue : [p, q, r, s].foldl (fun value digit => 16 * value + digit) 0 =
      p * 0x1000 + q * 0x100 + r * 0x10 + s := by
    simp only [List.foldl_cons, List.foldl_nil]
    omega
  rw [← hvalue]
  simp [hexValue?, ha.hexDigit?_eq, hb.hexDigit?_eq, hc.hexDigit?_eq, hd.hexDigit?_eq]

/-- The scan of a string takes what stands for a unit. -/
theorem WritesUnit.scan_append (h : WritesUnit head unit) (rest : List Char) :
    scan (head ++ rest) = (scan rest).cons unit := by
  rcases h with ⟨hquote, hslash, hlow⟩ | hescape | ⟨ha, hb, hc, hd⟩
  · exact scan_cons hquote hslash hlow rest
  · simp only [escapes, List.mem_cons, Prod.mk.injEq, List.not_mem_nil, or_false] at hescape
    rcases hescape with ⟨rfl, rfl⟩ | ⟨rfl, rfl⟩ | ⟨rfl, rfl⟩ | ⟨rfl, rfl⟩ | ⟨rfl, rfl⟩ |
      ⟨rfl, rfl⟩ | ⟨rfl, rfl⟩ | ⟨rfl, rfl⟩ <;> simp [scan, escaped?]
  · simp [scan, hexValue?_eq ha hb hc hd]

/-- The scan of a string stops behind its closing quotation mark. -/
theorem WritesUnits.scan_append (h : WritesUnits text units) (rest : List Char) :
    scan (text ++ '"' :: rest) = ⟨units, .ok rest⟩ := by
  induction h with
  | nil => simp [scan]
  | cons hunit _ ih =>
    rw [List.append_assoc, hunit.scan_append, ih]
    rfl

theorem WritesUnits.skipQuoted_append (h : WritesUnits text units) (rest : List Char) :
    skipQuoted (text ++ '"' :: rest) = .ok ((), rest) := by
  rw [skipQuoted, h.scan_append]
  rfl

/-- Units are joined to the characters that they stand for. -/
theorem Joins.joinUnits_eq {word : List Char} (h : Joins units word)
    (stop : Except Fault (List Char)) :
    joinUnits stop units = stop.map fun rest => (word, rest) := by
  induction h with
  | nil => rfl
  | char _ ih =>
    rw [joinUnits_cons_toNat, ih]
    cases stop <;> rfl
  | @pair high low c units word hhigh hlow hc _ ih =>
    have hhigh' : isHighSurrogate high = true := by
      simp only [isHighSurrogate, Bool.and_eq_true, decide_eq_true_eq]
      omega
    have hlow' : isLowSurrogate low = true := by
      simp only [isLowSurrogate, Bool.and_eq_true, decide_eq_true_eq]
      omega
    have hjoin : joinSurrogates high low = c.toNat := hc.symm
    rw [joinUnits, if_pos hhigh', if_pos hlow', ih, hjoin, Char.ofNat_toNat]
    cases stop <;> rfl

/-- A string is read as the word that it stands for. -/
theorem Spells.quotedText_append {word : String} (h : Spells text word) (rest : List Char) :
    quotedText (text ++ '"' :: rest) = .ok (word, rest) := by
  obtain ⟨units, hunits, hjoins⟩ := h
  rw [quotedText, hunits.scan_append, hjoins.joinUnits_eq]
  simp [Except.map]

/-- Characters that need no escapes stand for their code points. -/
theorem WritesUnits.of_plain {word : List Char} (h : Plain word) :
    WritesUnits word (word.map Char.toNat) := by
  induction word with
  | nil => exact .nil
  | cons c word ih =>
    obtain ⟨⟨hquote, hslash, hlow⟩, hword⟩ := List.forall_mem_cons.1 h
    exact .cons (.plain hquote hslash hlow) (ih hword)

theorem Joins.map_toNat (word : List Char) : Joins (word.map Char.toNat) word := by
  induction word with
  | nil => exact .nil
  | cons c word ih => exact .char ih

/-- A word without escapes is spelt by itself. -/
theorem Spells.of_plain (word : String) (h : Plain word.toList) : Spells word.toList word :=
  ⟨_, .of_plain h, .map_toNat word.toList⟩

/-! ### Reading numerals -/

theorem Fraction.exists_fraction (h : Fraction text) :
    ∃ places, ∀ rest, (∀ c ∈ rest.head?, c.isDigit = false ∧ c ≠ '.') →
      fraction (text ++ rest) = .ok (places, rest) := by
  rcases h with _ | hplaces
  · exact ⟨none, fun rest hrest => fraction_none fun hpoint => (hrest _ hpoint).2 rfl⟩
  · exact ⟨some _, fun rest hrest => fraction_cons hplaces fun c hc => (hrest c hc).1⟩

theorem Fraction.head?_append (h : Fraction text) {rest : List Char}
    (hrest : ∀ c ∈ rest.head?, c.isDigit = false) :
    ∀ c ∈ (text ++ rest).head?, c.isDigit = false := by
  rcases h with _ | _
  · exact hrest
  · rintro _ ⟨⟩
    rfl

/-- The sign of an exponent may be missing. -/
theorem exists_exponentSign {sign size : List Char}
    (hsign : sign = [] ∨ sign = ['+'] ∨ sign = ['-']) (hsize : Spelling.Digits size) :
    ∃ negative, ∀ rest, exponentSign (sign ++ (size ++ rest)) = .ok (negative, size ++ rest) := by
  rcases hsign with rfl | rfl | rfl
  · -- What stands there is a digit, and no sign.
    obtain ⟨c, tail, rfl⟩ := List.exists_cons_of_ne_nil hsize.1
    have hdigit := hsize.2 c List.mem_cons_self
    have hminus : c ≠ '-' := by
      rintro rfl
      exact absurd hdigit (by decide)
    have hplus : c ≠ '+' := by
      rintro rfl
      exact absurd hdigit (by decide)
    refine ⟨false, fun rest => ?_⟩
    rw [exponentSign, bind_of_ok (peek_apply _)]
    simp [hminus, hplus, pure_apply]
  · exact ⟨false, fun _ => rfl⟩
  · exact ⟨true, fun _ => rfl⟩

theorem Exponent.exists_exponent (h : Exponent text) :
    ∃ power, ∀ rest, Ends rest → exponent (text ++ rest) = .ok (power, rest) := by
  rcases h with _ | ⟨hmark, hsign, hsize⟩
  · exact ⟨none, fun rest hrest => exponent_none fun c hc => (hrest c hc).2.2⟩
  · obtain ⟨negative, hnegative⟩ := exists_exponentSign hsign hsize
    simp only [List.cons_append, List.append_assoc]
    exact ⟨_, fun rest hrest =>
      exponent_cons hmark (hnegative rest) hsize fun c hc => (hrest c hc).1⟩

theorem Exponent.head?_append (h : Exponent text) {rest : List Char} (hrest : Ends rest) :
    ∀ c ∈ (text ++ rest).head?, c.isDigit = false ∧ c ≠ '.' := by
  rcases h with _ | ⟨rfl | rfl, _, _⟩
  · exact fun c hc => ⟨(hrest c hc).1, (hrest c hc).2.1⟩
  · rintro _ ⟨⟩
    exact ⟨rfl, by decide⟩
  · rintro _ ⟨⟩
    exact ⟨rfl, by decide⟩

namespace IsNumeral

/-- A numeral is read as the same, whatever follows it. -/
theorem exists_numeral (h : IsNumeral text) :
    ∃ found, ∀ rest, Ends rest → numeral (text ++ rest) = .ok (found, rest) := by
  obtain ⟨negative, hwhole, hlead, hfraction, hexponent⟩ := h
  obtain ⟨places, hplaces⟩ := hfraction.exists_fraction
  obtain ⟨power, hpower⟩ := hexponent.exists_exponent
  have hparts (rest : List Char) (hrest : Ends rest) :=
    numeral_of_parts negative hwhole hlead
      (hfraction.head?_append fun c hc => (hexponent.head?_append hrest c hc).1)
      (hplaces _ (hexponent.head?_append hrest)) (hpower rest hrest)
  simp only [List.append_assoc]
  exact ⟨_, hparts⟩

theorem numeric (h : IsNumeral text) : Numeric text := by
  obtain ⟨negative, hwhole, -, -, -⟩ := h
  obtain ⟨c, tail, rfl, hc⟩ := numeric_of_digits hwhole
  cases negative with
  | true => exact ⟨'-', _, rfl, rfl⟩
  | false => exact ⟨c, _, rfl, hc⟩

/-- The digits of a natural number. -/
theorem toDigits (n : ℕ) : IsNumeral (Nat.toDigits 10 n) := by
  have h := intro false (digits_toDigits n) (lead_toDigits n) .absent .absent
  rwa [List.append_nil, List.append_nil] at h

end IsNumeral

/-! ### Brackets -/

/-- No numeral goes on behind blanks. -/
theorem Reader.Ends.blank_append {blanks rest : List Char} (hblanks : Blank blanks)
    (hrest : Ends rest) : Ends (blanks ++ rest) := by
  cases blanks with
  | nil => exact hrest
  | cons c blanks => exact ends_of_isBlank (hblanks c List.mem_cons_self) _

/-- No numeral goes on behind an element. -/
theorem ends_listing {closing : Char} (hclosing : closing = ']' ∨ closing = '\x7d')
    (space : List Char) (texts : List (List Char)) (rest : List Char) :
    Ends (listing closing space false texts ++ rest) := by
  cases texts with
  | nil => rintro _ ⟨⟩; rcases hclosing with rfl | rfl <;> decide
  | cons text texts => rintro _ ⟨⟩; decide

/-- Behind the last element, or without any, only blanks stand before the closing bracket. -/
theorem exists_listing_nil (closing : Char) {space : List Char} (hspace : Blank space)
    (first : Bool) (rest : List Char) :
    ∃ blanks, Blank blanks ∧
      listing closing space first [] ++ rest = blanks ++ closing :: rest := by
  cases first with
  | true => exact ⟨space, hspace, List.append_assoc ..⟩
  | false => exact ⟨[], blank_nil, rfl⟩

theorem length_lt_length_listing (closing : Char) (space : List Char) (first : Bool)
    {texts : List (List Char)} (h : ∀ text ∈ texts, text ≠ []) :
    texts.length < (listing closing space first texts).length := by
  induction texts generalizing first with
  | nil => cases first <;> simp [listing]
  | cons text texts ih =>
    obtain ⟨htext, htexts⟩ := List.forall_mem_cons.1 h
    have hlength := ih false htexts
    have hpos := List.length_pos_iff.2 htext
    simp only [listing, List.length_cons, List.length_append]
    omega

/-- The text of a member, by what a reader meets. -/
theorem Member.text_append (member : Member) (rest : List Char) :
    member.text ++ rest = member.before ++ '"' :: (member.key ++ '"' :: (member.middle ++ ':' ::
      (member.item.before ++ (member.item.value ++ (member.item.behind ++ rest))))) := by
  simp [text, lead, Item.text]

/-- A value can be told from the end of a list. -/
theorem IsValue.opens (h : IsValue text) : Opens text := by
  rcases h with hliteral | hnumeral | _ | _ | _
  · simp only [List.mem_cons, List.not_mem_nil, or_false] at hliteral
    rcases hliteral with rfl | rfl | rfl <;> exact ⟨_, _, rfl, rfl, by decide⟩
  · exact hnumeral.numeric.opens
  all_goals exact ⟨_, _, rfl, rfl, by decide⟩

end GateGrid.Json

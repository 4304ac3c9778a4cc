import GateGrid.Proofs.Json.Token

/-!
# What documents convey to readers

A document *conveys* a value to a reader if the reader takes the text of the document off the
front of any text, whatever follows it, and gives the value. Blanks in front and between the parts
make no difference, so one statement serves both layouts.

A number that is not finite has no text of its own. A document that should hold one is not
*intact*: the reader stops at its place with a mismatch.

* `Conveys`: what a document conveys to a reader;
* `Reader.conveys_natural32`, `Reader.conveys_binary64`: numbers;
* `Reader.conveys_optional`: a value that may be missing;
* `Reader.conveys_listOf`: a list, from its elements;
* `Reader.conveys_word`, `Reader.conveys_angled`: the two forms of a choice;
* `Reader.Fills`, `Reader.conveys_record`: a record, from its members.
-/

namespace GateGrid.Json

open Reader

variable {α β δ : Type}

/-! ### Layouts -/

/-- Nothing but blanks stands between the parts. -/
structure Layout.Loose (layout : Layout) : Prop where
  /-- There are only blanks before an element. -/
  gap : ∀ depth, Blank (layout.gap depth)
  /-- There are only blanks behind the colon. -/
  colon : ∃ blanks, Blank blanks ∧ layout.colon = ':' :: blanks

theorem Layout.loose_compact : Layout.compact.Loose :=
  ⟨fun _ => blank_nil, [], blank_nil, rfl⟩

theorem Layout.loose_indented : Layout.indented.Loose where
  gap := fun depth c hc => by
    rcases List.mem_cons.1 hc with rfl | hc
    · rfl
    · rw [List.eq_of_mem_replicate hc]
      rfl
  colon := ⟨[' '], fun c hc => by rw [List.mem_singleton.1 hc]; rfl, rfl⟩

/-- What stands inside brackets, up to the closing one: all elements, or those behind the `first`.
    Without any elements nothing stands before the closing bracket. -/
def inside (layout : Layout) (depth : ℕ) (closing : Char) : Bool → List (List Char) → List Char
  | true, [] => [closing]
  | false, [] => layout.gap depth ++ [closing]
  | first, element :: elements =>
    (if first then [] else [',']) ++
      (layout.gap (depth + 1) ++ (element ++ inside layout depth closing false elements))

theorem enclose_eq (layout : Layout) (depth : ℕ) (opening closing : Char)
    (elements : List (List Char)) :
    enclose layout depth opening closing elements =
      opening :: inside layout depth closing true elements := by
  -- The elements behind the first, whatever stands before them.
  have hjoin : ∀ (first : List Char) (elements : List (List Char)),
      [','].intercalate (first :: elements.map (layout.gap (depth + 1) ++ ·)) ++
        layout.gap depth ++ [closing] = first ++ inside layout depth closing false elements := by
    intro first elements
    induction elements generalizing first with
    | nil => simp [inside]
    | cons element elements ih =>
      rw [List.map_cons, List.intercalate_cons_cons, inside]
      simpa using ih (layout.gap (depth + 1) ++ element)
  cases elements with
  | nil => rfl
  | cons element elements =>
    rw [enclose, List.map_cons, List.cons_append, List.cons_append, hjoin, List.append_assoc]
    · rfl
    · exact List.cons_ne_nil _ _

theorem length_lt_length_inside (layout : Layout) (depth : ℕ) (closing : Char) (first : Bool)
    {elements : List (List Char)} (h : ∀ element ∈ elements, element ≠ []) :
    elements.length < (inside layout depth closing first elements).length := by
  induction elements generalizing first with
  | nil => cases first <;> simp [inside]
  | cons element elements ih =>
    obtain ⟨helement, helements⟩ := List.forall_mem_cons.1 h
    have hlength := ih false helements
    have hpos := List.length_pos_iff.2 helement
    simp only [inside, List.length_cons, List.length_append]
    omega

/-- Behind the last element only blanks stand before the closing bracket. -/
theorem exists_inside_nil {layout : Layout} (hlayout : layout.Loose) (depth : ℕ) (closing : Char)
    (first : Bool) (rest : List Char) :
    ∃ blanks, Blank blanks ∧ inside layout depth closing first [] ++ rest =
      blanks ++ closing :: rest := by
  cases first with
  | true => exact ⟨[], blank_nil, rfl⟩
  | false => exact ⟨layout.gap depth, hlayout.gap depth, List.append_assoc ..⟩

/-- No numeral goes on at a blank. -/
theorem ends_of_isBlank {c : Char} (h : isBlank c) (rest : List Char) : Ends (c :: rest) := by
  simp only [isBlank, Bool.or_eq_true, beq_iff_eq, or_assoc] at h
  rintro _ ⟨⟩
  rcases h with rfl | rfl | rfl | rfl <;> decide

/-- No numeral goes on behind an element. -/
theorem ends_inside {layout : Layout} (hlayout : layout.Loose) (depth : ℕ) {closing : Char}
    (hclosing : closing = ']' ∨ closing = '\x7d') (elements : List (List Char))
    (rest : List Char) : Ends (inside layout depth closing false elements ++ rest) := by
  cases elements with
  | nil =>
    obtain ⟨blanks, hblanks, htext⟩ := exists_inside_nil hlayout depth closing false rest
    rw [htext]
    cases blanks with
    | nil => rintro _ ⟨⟩; rcases hclosing with rfl | rfl <;> decide
    | cons c blanks => exact ends_of_isBlank (hblanks c List.mem_cons_self) _
  | cons element elements => rintro _ ⟨⟩; decide

/-! ### Readers and documents -/

/-- What is read where a value was written: the value, or a mismatch if it is not intact. -/
def outcome (intact : Bool) (value : α) (rest : List Char) : Except Fault (α × List Char) :=
  if intact then .ok (value, rest) else .error .mismatch

/-- The text starts with a character that is neither a blank nor closes a list. -/
def Opens (text : List Char) : Prop :=
  ∃ c tail, text = c :: tail ∧ isBlank c = false ∧ c ≠ ']'

theorem opens_enclose {layout : Layout} {opening : Char} (h : opening = '[' ∨ opening = '\x7b')
    (depth : ℕ) (closing : Char) (elements : List (List Char)) :
    Opens (enclose layout depth opening closing elements) := by
  rw [enclose_eq]
  rcases h with rfl | rfl
  · exact ⟨'[', _, rfl, rfl, by decide⟩
  · exact ⟨'\x7b', _, rfl, rfl, by decide⟩

/-- The document conveys the value to the reader, if it is intact. -/
structure Conveys (layout : Layout) (read : Reader α) (document : Json) (value : α)
    (intact : Bool) : Prop where
  /-- The document can be told from the end of a list. -/
  opens : ∀ depth, Opens (document.write layout depth)
  /-- The text of the document is taken and nothing else. -/
  read_append : ∀ depth {blanks rest : List Char}, Blank blanks → Ends rest →
    read (blanks ++ (document.write layout depth ++ rest)) = outcome intact value rest

theorem pure_outcome (value : α) (rest : List Char) :
    (pure value : Reader α) rest = outcome true value rest := rfl

/-- One reader after another, each where a value was written. -/
theorem bind_outcome {read : Reader α} {next : α → Reader β} {text rest rest' : List Char}
    {value : α} {value' : β} {intact intact' : Bool} (h : read text = outcome intact value rest)
    (hnext : next value rest = outcome intact' value' rest') :
    (read >>= next) text = outcome (intact && intact') value' rest' := by
  cases intact with
  | true => rw [bind_of_ok h, hnext, Bool.true_and]
  | false => exact bind_of_error h next

namespace Conveys

variable {layout : Layout} {read : Reader α} {document : Json} {value : α} {intact : Bool}

/-- What is made of the value by a function. -/
theorem map (h : Conveys layout read document value intact) (f : α → β) :
    Conveys layout (read >>= fun a => pure (f a)) document (f value) intact where
  opens := h.opens
  read_append := fun depth _ rest hblanks hrest => by
    rw [bind_outcome (h.read_append depth hblanks hrest) (pure_outcome (f value) rest),
      Bool.and_true]

/-- The text of the document is all that is read. -/
theorem readAll (h : Conveys layout read document value intact) :
    read.readAll (String.ofList (document.write layout 0)) =
      if intact then .ok value else .error .mismatch := by
  have hread := h.read_append 0 blank_nil ends_nil
  rw [List.nil_append, List.append_nil] at hread
  rw [Reader.readAll, String.toList_ofList, hread, outcome]
  cases intact <;> rfl

end Conveys

namespace Reader

/-! ### Numbers -/

/-- The text starts like a numeral. -/
def Numeric (text : List Char) : Prop :=
  ∃ c tail, text = c :: tail ∧ startsNumeral c

theorem Numeric.opens {text : List Char} (h : Numeric text) : Opens text := by
  obtain ⟨c, tail, rfl, hc⟩ := h
  refine ⟨c, tail, rfl, ?_, ?_⟩
  · rw [← Bool.not_eq_true, isBlank]
    simp only [Bool.or_eq_true, beq_iff_eq, or_assoc]
    rintro (rfl | rfl | rfl | rfl) <;> exact absurd hc (by decide)
  · rintro rfl
    exact absurd hc (by decide)

/-- A text that starts like a numeral is read as one. -/
theorem Numeric.anyNumber_append {text blanks : List Char} (h : Numeric text)
    (hblanks : Blank blanks) (rest : List Char) :
    anyNumber (blanks ++ (text ++ rest)) = number (text ++ rest) := by
  obtain ⟨_, _, ⟨⟩, hblank, -⟩ := h.opens
  obtain ⟨c, tail, ⟨⟩, hc⟩ := h
  rw [anyNumber, List.cons_append, bind_of_ok (lookAhead_append hblanks hblank)]
  simp only [hc, if_true]

theorem numeric_of_digits {text : List Char} (h : Spelling.Digits text) : Numeric text := by
  obtain ⟨c, tail, rfl⟩ := List.exists_cons_of_ne_nil h.1
  exact ⟨c, tail, rfl, by simp [startsNumeral, h.2 c List.mem_cons_self]⟩

theorem numeric_text (a : Binary64) : Numeric (numberStyle.text a) := by
  obtain ⟨spelling, hwell, -, htext, -⟩ := numberStyle.exists_spelling rfl
    (a.shortest numberStyle.tie)
  obtain ⟨c, tail, hcons, hc⟩ := numeric_of_digits hwell.whole
  rw [Style.text, ← htext, Spelling.text, hcons]
  cases a.negative with
  | true => exact ⟨'-', _, rfl, rfl⟩
  | false => exact ⟨c, _, rfl, hc⟩

/-- A natural number of 32 bits arrives. -/
theorem conveys_natural32 (layout : Layout) (n : UInt32) :
    Conveys layout natural32 (.ofNat n.toNat) n true := by
  have hnumeric := numeric_of_digits (digits_toDigits n.toNat)
  refine ⟨fun depth => ?_, fun depth blanks rest hblanks hrest => ?_⟩
  · rw [ofNat, write]
    exact hnumeric.opens
  · obtain ⟨value, hnumber⟩ := number_ofNat n.toNat_lt hrest
    rw [← hnumeric.anyNumber_append hblanks] at hnumber
    rw [ofNat, write, natural32, bind_of_ok hnumber]
    simp [n.toNat_lt, pure_apply, outcome]

/-- A finite number arrives, bit for bit; at any other the reader stops. -/
theorem conveys_binary64 (layout : Layout) (a : Binary64) :
    Conveys layout binary64 (.ofBinary64 a) a a.isFinite := by
  rw [ofBinary64]
  split
  · next hfinite =>
    refine ⟨fun depth => ?_, fun depth blanks rest hblanks hrest => ?_⟩
    · rw [write]
      exact (numeric_text a).opens
    · obtain ⟨found, hnumber⟩ := number_text numberStyle rfl hfinite hrest
      rw [← (numeric_text a).anyNumber_append hblanks] at hnumber
      rw [write, binary64, bind_of_ok hnumber, hfinite]
      rfl
  · next hfinite =>
    -- What is written is `null`, which the reader knows, but not as a number.
    refine ⟨fun depth => ⟨'n', _, rfl, rfl, by decide⟩, fun depth blanks rest hblanks _ => ?_⟩
    have hany : anyNumber (blanks ++ 'n' :: 'u' :: 'l' :: 'l' :: rest) = .error .mismatch := by
      rw [anyNumber, bind_of_ok (lookAhead_append hblanks rfl)]
      rfl
    rw [Bool.not_eq_true] at hfinite
    rw [hfinite, binary64]
    exact bind_of_error hany _

/-! ### Values that may be missing -/

/-- A value that is there arrives, if it cannot be taken for `null`. -/
theorem conveys_optional {layout : Layout} {read : Reader α} {document : Json} {value : α}
    {intact : Bool} (h : Conveys layout read document value intact)
    (hnull : ∀ depth, (document.write layout depth).head? ≠ some 'n') :
    Conveys layout (optional read) document (some value) intact := by
  refine ⟨h.opens, fun depth blanks rest hblanks hrest => ?_⟩
  obtain ⟨c, tail, htext, hblank, -⟩ := h.opens depth
  have hc : c ≠ 'n' := by
    intro hc
    exact hnull depth (by rw [htext, hc]; rfl)
  have hread := h.read_append depth blank_nil hrest
  rw [htext, List.cons_append, List.nil_append] at hread
  rw [htext, optional, List.cons_append, bind_of_ok (lookAhead_append hblanks hblank)]
  refine (congrFun (?_ : _ = read >>= fun found => pure (some found)) _).trans ?_
  · split
    · next heq => exact absurd (Option.some_inj.1 heq) hc
    · next heq => exact absurd heq nofun
    · rfl
  · rw [bind_outcome hread (pure_outcome (some value) rest), Bool.and_true]

/-! ### Lists -/

/-- A list is opened behind blanks. -/
theorem listOf_open (read : Reader α) {blanks : List Char} (hblanks : Blank blanks)
    (text : List Char) : listOf read (blanks ++ '[' :: text) = items read text true text := by
  rw [listOf, bind_of_ok (lookAhead_append hblanks rfl)]
  rfl

/-- An element is found behind blanks, and behind a comma if it is not the first. -/
theorem nextItem_append {text blanks : List Char} (htext : Opens text) (hblanks : Blank blanks)
    (first : Bool) (rest : List Char) :
    nextItem first ((if first then [] else [',']) ++ (blanks ++ (text ++ rest))) =
      .ok (true, text ++ rest) := by
  obtain ⟨c, tail, rfl, hblank, hclose⟩ := htext
  have hlook : lookAhead (blanks ++ c :: (tail ++ rest)) = .ok (some c, c :: (tail ++ rest)) :=
    lookAhead_append hblanks hblank
  cases first with
  | true =>
    rw [nextItem, if_pos rfl, List.nil_append, List.cons_append, bind_of_ok hlook]
    simp [pure_apply]
  | false =>
    change nextItem false ([] ++ ',' :: (blanks ++ c :: (tail ++ rest))) = _
    rw [nextItem, bind_of_ok (lookAhead_append blank_nil rfl)]
    change (advance >>= fun _ => lookAhead >>= _) _ = _
    rw [bind_of_ok (advance_cons _ _), bind_of_ok hlook]
    simp [hclose, pure_apply]

/-- The end of a list is found behind blanks. -/
theorem nextItem_close {blanks : List Char} (hblanks : Blank blanks) (first : Bool)
    (rest : List Char) : nextItem first (blanks ++ ']' :: rest) = .ok (false, rest) := by
  rw [nextItem, bind_of_ok (lookAhead_append hblanks rfl)]
  rfl

variable {layout : Layout} {read : Reader α} {document : α → Json} {intact : α → Bool}

/-- The elements of a list are taken up to its end. -/
theorem items_inside (hlayout : layout.Loose) (depth : ℕ) (first : Bool) {values : List α}
    (h : ∀ value ∈ values, Conveys layout read (document value) value (intact value))
    {bound : List Char} (hbound : values.length < bound.length) (rest : List Char) :
    items read bound first
        (inside layout depth ']' first (values.map fun v => (document v).write layout (depth + 1))
          ++ rest) =
      outcome (values.all intact) values rest := by
  -- The bound loses a character with each element, and the end takes one more.
  induction values generalizing bound first with
  | nil =>
    obtain ⟨c, bound, rfl⟩ := List.exists_cons_of_length_pos hbound
    obtain ⟨blanks, hblanks, htext⟩ := exists_inside_nil hlayout depth ']' first rest
    rw [List.map_nil, htext, items, bind_of_ok (nextItem_close hblanks first rest)]
    rfl
  | cons value values ih =>
    obtain ⟨c, bound, rfl⟩ := List.exists_cons_of_length_pos (Nat.zero_lt_of_lt hbound)
    obtain ⟨hvalue, hvalues⟩ := List.forall_mem_cons.1 h
    have hnext := nextItem_append (hvalue.opens (depth + 1)) (hlayout.gap (depth + 1)) first
    have hothers := ih false hvalues (Nat.lt_of_succ_lt_succ hbound)
    have hends := ends_inside hlayout depth (.inl rfl)
      (values.map fun v => (document v).write layout (depth + 1)) rest
    rw [List.map_cons, inside, List.append_assoc, List.append_assoc, List.append_assoc, items,
      bind_of_ok (hnext _), List.all_cons]
    refine bind_outcome (hvalue.read_append (depth + 1) blank_nil hends) ?_
    rw [bind_outcome hothers (pure_outcome (value :: values) rest), Bool.and_true]

theorem writeItems_map (layout : Layout) (depth : ℕ) (values : List α) :
    writeItems layout depth (values.map document) =
      values.map fun value => (document value).write layout depth := by
  induction values with
  | nil => rfl
  | cons value values ih => rw [List.map_cons, writeItems, ih, List.map_cons]

/-- A list arrives if all of its elements do. -/
theorem conveys_listOf (hlayout : layout.Loose) {values : List α}
    (h : ∀ value ∈ values, Conveys layout read (document value) value (intact value)) :
    Conveys layout (listOf read) (.list (values.map document)) values (values.all intact) := by
  refine ⟨fun depth => ?_, fun depth blanks rest hblanks _ => ?_⟩
  · rw [write]
    exact opens_enclose (.inl rfl) _ _ _
  · rw [write, writeItems_map, enclose_eq, List.cons_append, listOf_open read hblanks]
    refine items_inside hlayout depth true h ?_ rest
    have hne : ∀ element ∈ values.map fun v => (document v).write layout (depth + 1),
        element ≠ [] := by
      intro element helement
      obtain ⟨value, hvalue, rfl⟩ := List.mem_map.1 helement
      obtain ⟨c, tail, htext, -⟩ := (h value hvalue).opens (depth + 1)
      exact htext ▸ List.cons_ne_nil c tail
    have hlength := length_lt_length_inside layout depth ']' true hne
    rw [List.length_map] at hlength
    rw [List.length_append]
    omega

/-! ### Choices -/

/-- The text of a member, by what the reader meets. -/
theorem member_append (key : String) {blanks : List Char} (hcolon : layout.colon = ':' :: blanks)
    (value rest : List Char) :
    quoted key ++ layout.colon ++ value ++ rest =
      '"' :: (key.toList ++ '"' :: ':' :: (blanks ++ (value ++ rest))) := by
  rw [hcolon, quoted]
  simp only [List.cons_append, List.append_assoc, List.nil_append]

/-- A name in quotation marks is taken as what it names. -/
theorem choice_quoted {content? : String → Option (Content α)} {name : String} {value : α}
    {blanks text rest : List Char} (hblanks : Blank blanks)
    (hname : quotedText text = .ok (name, rest)) (hcontent : content? name = some (.plain value)) :
    choice content? (blanks ++ '"' :: text) = .ok (value, rest) := by
  rw [choice, bind_of_ok (lookAhead_append hblanks rfl)]
  change (advance >>= fun _ => quotedText >>= _) _ = _
  rw [bind_of_ok (advance_cons _ _), bind_of_ok hname, hcontent]
  rfl

/-- A name arrives. -/
theorem conveys_word {content? : String → Option (Content α)} {name : String} {value : α}
    (hname : Plain name.toList) (hcontent : content? name = some (.plain value)) :
    Conveys layout (choice content?) (.word name) value true := by
  refine ⟨fun depth => ⟨'"', _, rfl, rfl, by decide⟩, fun depth blanks rest hblanks _ => ?_⟩
  have htext : (word name).write layout depth ++ rest = '"' :: (name.toList ++ '"' :: rest) := by
    rw [write, quoted, List.cons_append, List.cons_append, List.append_assoc]
    rfl
  rw [htext]
  exact choice_quoted hblanks (quotedText_append hname) hcontent

/-- A name with a number arrives if the number does. -/
theorem conveys_angled (hlayout : layout.Loose) {content? : String → Option (Content α)}
    {name : String} {make : Binary64 → α} (hname : Plain name.toList)
    (hcontent : content? name = some (.angled make)) (angle : Binary64) :
    Conveys layout (choice content?) (.object [(name, .ofBinary64 angle)]) (make angle)
      angle.isFinite := by
  obtain ⟨space, hspace, hcolon⟩ := hlayout.colon
  refine ⟨fun depth => ?_, fun depth blanks rest hblanks _ => ?_⟩
  · rw [write]
    exact opens_enclose (.inr rfl) _ _ _
  · have hends := ends_inside hlayout depth (.inr rfl) [] rest
    rw [write, enclose_eq, List.cons_append, choice, bind_of_ok (lookAhead_append hblanks rfl)]
    change (advance >>= fun _ => mark '"' >>= fun _ => quotedText >>= _) _ = _
    rw [bind_of_ok (advance_cons _ _), writeMembers, writeMembers, inside, if_pos rfl,
      List.nil_append, List.append_assoc, List.append_assoc, member_append _ hcolon,
      bind_of_ok (mark_append (hlayout.gap _) rfl), bind_of_ok (quotedText_append hname), hcontent]
    change (mark ':' >>= fun _ => binary64 >>= fun angle => mark '\x7d' >>= fun _ => _) _ = _
    rw [← List.nil_append (':' :: _), bind_of_ok (mark_append blank_nil rfl)]
    have hangle := (conveys_binary64 layout angle).read_append (depth + 1) hspace hends
    rw [← Bool.and_true angle.isFinite]
    refine bind_outcome hangle ?_
    rw [inside, List.append_assoc]
    exact bind_of_ok (mark_append (hlayout.gap _) rfl) _

/-! ### Records -/

/-- The members fill the draft: each has the key of a field that was not given before, and conveys
    it. -/
inductive Fills (layout : Layout) (fields : List (Field δ)) :
    δ → List (String × Json) → δ → Bool → Prop
  /-- Nothing is left to fill in. -/
  | nil (draft : δ) : Fills layout fields draft [] draft true
  /-- A field is filled in, and then the others. -/
  | cons {draft next final : δ} {key : String} {value : Json} {field : Field δ}
      {others : List (String × Json)} {intact rest : Bool} (hkey : Plain key.toList)
      (hfield : fields.find? (·.key == key) = some field) (hgiven : field.isGiven draft = false)
      (hvalue : Conveys layout (field.read draft) value next intact)
      (hothers : Fills layout fields next others final rest) :
      Fills layout fields draft ((key, value) :: others) final (intact && rest)

/-- A field that may be missing is filled in if its content is there; otherwise nothing is written,
    and the draft stays as it is. -/
theorem Fills.cons_option {layout : Layout} {fields : List (Field δ)} {draft final : δ}
    {key : String} {field : Field δ} {others : List (String × Json)} {whole : Bool}
    {document : β → Json} (fill : Option β → δ) (content : Option β) (hkey : Plain key.toList)
    (hfield : fields.find? (·.key == key) = some field) (hgiven : field.isGiven draft = false)
    (hnone : fill none = draft)
    (hsome : ∀ value, Conveys layout (field.read draft) (document value) (fill (some value)) true)
    (hothers : Fills layout fields (fill content) others final whole) :
    Fills layout fields draft (content.toList.map (fun value => (key, document value)) ++ others)
      final whole := by
  cases content with
  | none =>
    rw [hnone] at hothers
    exact hothers
  | some value => exact Bool.true_and whole ▸ .cons hkey hfield hgiven (hsome value) hothers

/-- A key is found behind blanks, and behind a comma if it is not the first. -/
theorem nextKey_append {blanks : List Char} (hblanks : Blank blanks) (first : Bool)
    (rest : List Char) :
    nextKey first ((if first then [] else [',']) ++ (blanks ++ '"' :: rest)) =
      .ok (true, rest) := by
  cases first with
  | true =>
    rw [nextKey, if_pos rfl, List.nil_append, bind_of_ok (lookAhead_append hblanks rfl)]
    exact bind_of_ok (mark_append blank_nil rfl) _
  | false =>
    change nextKey false ([] ++ ',' :: (blanks ++ '"' :: rest)) = _
    rw [nextKey, bind_of_ok (lookAhead_append blank_nil rfl)]
    change (advance >>= fun _ => mark '"' >>= _) _ = _
    rw [bind_of_ok (advance_cons _ _), bind_of_ok (mark_append hblanks rfl)]
    rfl

/-- The end of an object is found behind blanks. -/
theorem nextKey_close {blanks : List Char} (hblanks : Blank blanks) (first : Bool)
    (rest : List Char) : nextKey first (blanks ++ '\x7d' :: rest) = .ok (false, rest) := by
  rw [nextKey, bind_of_ok (lookAhead_append hblanks rfl)]
  rfl

variable {fields : List (Field δ)} {draft final : δ} {pairs : List (String × Json)} {whole : Bool}

/-- The members of an object are taken up to its end. -/
theorem members_inside (hlayout : layout.Loose) (depth : ℕ) (first : Bool)
    (h : Fills layout fields draft pairs final whole) {bound : List Char}
    (hbound : pairs.length < bound.length) (rest : List Char) :
    members fields bound first draft
        (inside layout depth '\x7d' first (writeMembers layout (depth + 1) pairs) ++ rest) =
      outcome whole final rest := by
  induction h generalizing bound first with
  | nil draft =>
    obtain ⟨c, bound, rfl⟩ := List.exists_cons_of_length_pos hbound
    obtain ⟨blanks, hblanks, htext⟩ := exists_inside_nil hlayout depth '\x7d' first rest
    rw [writeMembers, htext, members, bind_of_ok (nextKey_close hblanks first rest)]
    rfl
  | @cons draft next final key value field others intact rest' hkey hfield hgiven hvalue _ ih =>
    obtain ⟨c, bound, rfl⟩ := List.exists_cons_of_length_pos (Nat.zero_lt_of_lt hbound)
    obtain ⟨space, hspace, hcolon⟩ := hlayout.colon
    have hothers := ih false (Nat.lt_of_succ_lt_succ hbound)
    have hends := ends_inside hlayout depth (.inr rfl) (writeMembers layout (depth + 1) others) rest
    rw [writeMembers, inside, List.append_assoc, List.append_assoc, List.append_assoc,
      member_append key hcolon, members, bind_of_ok (nextKey_append (hlayout.gap _) first _)]
    change (quotedText >>= _) _ = _
    rw [bind_of_ok (quotedText_append hkey), hfield]
    -- The field was not given before, so that its value is read.
    simp only [hgiven]
    change (mark ':' >>= fun _ => field.read draft >>= _) _ = _
    rw [← List.nil_append (':' :: _), bind_of_ok (mark_append blank_nil rfl)]
    exact bind_outcome (hvalue.read_append (depth + 1) hspace hends) hothers

theorem length_writeMembers (layout : Layout) (depth : ℕ) (pairs : List (String × Json)) :
    (writeMembers layout depth pairs).length = pairs.length := by
  induction pairs with
  | nil => rfl
  | cons pair pairs ih => rw [writeMembers, List.length_cons, ih, List.length_cons]

theorem ne_nil_of_mem_writeMembers (layout : Layout) (depth : ℕ) (pairs : List (String × Json)) :
    ∀ element ∈ writeMembers layout depth pairs, element ≠ [] := by
  induction pairs with
  | nil => exact fun _ h => absurd h List.not_mem_nil
  | cons pair pairs ih =>
    rw [writeMembers]
    exact List.forall_mem_cons.2 ⟨List.cons_ne_nil _ _, ih⟩

/-- A record arrives if its members fill in a draft of it. -/
theorem conveys_record (hlayout : layout.Loose) {finish : δ → Option α} {value : α}
    (h : Fills layout fields draft pairs final whole) (hfinish : finish final = some value) :
    Conveys layout (record fields draft finish) (.object pairs) value whole := by
  refine ⟨fun depth => ?_, fun depth blanks rest hblanks _ => ?_⟩
  · rw [write]
    exact opens_enclose (.inr rfl) _ _ _
  · have hlength := length_lt_length_inside layout depth '\x7d' true
      (ne_nil_of_mem_writeMembers layout (depth + 1) pairs)
    rw [write, enclose_eq, List.cons_append, record, ← Bool.and_true whole]
    refine bind_outcome (?_ : _ = outcome whole final rest) ?_
    · rw [bind_of_ok (lookAhead_append hblanks rfl)]
      refine members_inside hlayout depth true h ?_ rest
      rw [length_writeMembers] at hlength
      rw [List.tail_cons, List.length_append]
      omega
    · rw [hfinish]
      rfl

end Reader

end GateGrid.Json

import GateGrid.Proofs.Json.Needs

/-!
# Documents that were cut off

A document *breaks off* for a reader if the reader comes to the end of every front of its text: the
text ended too early, or, where a numeral was cut off among its digits, there is nothing left. For
a document in quotation marks or brackets the text ended too early wherever it was cut off. Inside
a list or an object an element that breaks off is followed by something, at least the closing
bracket, and that is where the end of the text is noticed.

* `BreaksOff`: what a document does that was cut off;
* `Reader.breaksOff_natural32`, `Reader.breaksOff_binary64`: numbers;
* `Reader.needs_listOf`: a list, from its elements;
* `Reader.needs_word`, `Reader.needs_angled`: the two forms of a choice;
* `Reader.needs_record`: a record, from its members.
-/

namespace GateGrid.Json

open Reader

variable {α β δ : Type} {layout : Layout} {read : Reader α} {document : Json} {value : α}
  {part blanks : List Char}

/-- Wherever the text of the document was cut off, the reader comes to its end. -/
def BreaksOff (layout : Layout) (read : Reader α) (document : Json) : Prop :=
  ∀ depth {blanks : List Char}, Blank blanks → Exhausts read (blanks ++ document.write layout depth)

/-- What is made of the value by a function. -/
theorem BreaksOff.map (h : BreaksOff layout read document) (f : α → β) :
    BreaksOff layout (read >>= fun a => pure (f a)) document := by
  intro depth blanks hblanks
  exact (h depth hblanks).map f

/-- A document whose text is needed as a whole breaks off. -/
theorem Conveys.breaksOff {intact : Bool} (h : Conveys layout read document value intact)
    (hintact : intact) (hneeds : ∀ depth {blanks : List Char}, Blank blanks →
      Needs read (blanks ++ document.write layout depth)) : BreaksOff layout read document := by
  intro depth blanks hblanks
  have htake := h.read_append depth hblanks ends_nil
  rw [List.append_nil, hintact] at htake
  exact (hneeds depth hblanks).exhausts htake

/-- A front of a text that opens opens, unless it is empty. -/
theorem Opens.of_front {text : List Char} (h : Opens text) (hpart : part <+: text)
    (hne : part ≠ []) : Opens part := by
  obtain ⟨c, tail, rfl, hc⟩ := h
  obtain ⟨rest, -, rfl⟩ := exists_cons_of_front hpart hne
  exact ⟨c, rest, rfl, hc⟩

theorem Opens.append {text : List Char} (h : Opens text) (rest : List Char) :
    Opens (text ++ rest) := by
  obtain ⟨c, tail, rfl, hc⟩ := h
  exact ⟨c, tail ++ rest, rfl, hc⟩

namespace Reader

/-- A value, and what stands behind it in brackets: where the value was cut off, the text has come
    to its end. -/
theorem needs_value (hlayout : layout.Loose) {next : α → Reader β}
    (hvalue : Conveys layout read document value true) (hbreak : BreaksOff layout read document)
    (depth : ℕ) (hblanks : Blank blanks) {closing : Char}
    (hclosing : closing = ']' ∨ closing = '\x7d') {elements : List (List Char)}
    (hnil : ∀ found, next found [] = .error .truncated)
    (hnext : Needs (next value) (inside layout depth closing false elements)) :
    Needs (read >>= next)
      (blanks ++ (document.write layout (depth + 1) ++
        inside layout depth closing false elements)) := by
  have hends := ends_inside hlayout depth hclosing elements []
  rw [List.append_nil] at hends
  rw [← List.append_assoc]
  refine (hbreak (depth + 1) hblanks).needs_bind (fun rest hrest => ?_) hends hnil hnext
  rw [List.append_assoc]
  exact hvalue.read_append (depth + 1) hblanks hrest

/-! ### Numbers -/

theorem Numeric.of_front {text : List Char} (h : Numeric text) (hpart : part <+: text)
    (hne : part ≠ []) : Numeric part := by
  obtain ⟨c, tail, rfl, hc⟩ := h
  obtain ⟨rest, -, rfl⟩ := exists_cons_of_front hpart hne
  exact ⟨c, rest, rfl, hc⟩

/-- Among blanks there is no number yet. -/
theorem anyNumber_blank (hblanks : Blank blanks) : anyNumber blanks = .error .truncated := by
  rw [anyNumber, bind_of_ok (lookAhead_blank hblanks)]
  rfl

/-- A natural number of 32 bits that was cut off is one, if there is a digit left. -/
theorem breaksOff_natural32 (layout : Layout) (n : UInt32) :
    BreaksOff layout natural32 (.ofNat n.toNat) := by
  intro depth blanks hblanks part hpart
  rw [ofNat, write] at hpart
  rcases front_append_cases hpart with hblank | ⟨more, hmore, hne, rfl⟩
  · exact .inl (bind_of_error (anyNumber_blank (hblanks.of_front hblank)) _)
  · obtain ⟨m, hm, rfl⟩ := exists_toDigits_of_front hmore hne
    have hsmall : (UInt32.ofNat m).toNat = m :=
      UInt32.toNat_ofNat_of_lt' (hm.trans_lt n.toNat_lt)
    have hread := (conveys_natural32 layout (.ofNat m)).read_append depth hblanks ends_nil
    rw [hsmall, ofNat, write, List.append_nil] at hread
    exact .inr ⟨_, hread⟩

/-- A finite number that was cut off is one, or the text ended where a digit was wanted. -/
theorem breaksOff_binary64 (layout : Layout) {a : Binary64} (h : a.isFinite) :
    BreaksOff layout binary64 (.ofBinary64 a) := by
  intro depth blanks hblanks
  rw [ofBinary64, if_pos h, write]
  refine Exhausts.map (fun part hpart => ?_) Prod.snd
  rcases front_append_cases hpart with hblank | ⟨more, hmore, hne, rfl⟩
  · exact .inl (anyNumber_blank (hblanks.of_front hblank))
  · have hany := ((numeric_text a).of_front hmore hne).anyNumber_append hblanks []
    rw [List.append_nil] at hany
    rw [hany]
    exact exhausts_number h more hmore

/-! ### Lists -/

/-- Before an element nothing but a comma and blanks was left of the text. -/
theorem nextItem_front (hblanks : Blank blanks) (first : Bool)
    (hpart : part <+: (if first then [] else [',']) ++ blanks) :
    nextItem first part = .error .truncated := by
  cases first with
  | true =>
    rw [nextItem, bind_of_ok (lookAhead_blank (hblanks.of_front hpart))]
    rfl
  | false =>
    rcases List.prefix_cons_iff.1 hpart with rfl | ⟨rest, rfl, hrest⟩
    · rfl
    · have hcomma : lookAhead (',' :: rest) = .ok (some ',', ',' :: rest) :=
        lookAhead_append blank_nil rfl
      rw [nextItem, bind_of_ok hcomma]
      change (advance >>= fun _ => lookAhead >>= _) _ = _
      rw [bind_of_ok (advance_cons _ _), bind_of_ok (lookAhead_blank (hblanks.of_front hrest))]
      rfl

/-- On the way to an element, and then in it. -/
theorem needs_nextItem {next : Bool → Reader β} {text : List Char} (hblanks : Blank blanks)
    (first : Bool) (htext : Opens text) (hnext : Needs (next true) text) :
    Needs (nextItem first >>= next) ((if first then [] else [',']) ++ (blanks ++ text)) := by
  intro part hpart hne
  rw [← List.append_assoc] at hpart
  rcases front_append_cases hpart with hfront | ⟨more, hmore, hnil, rfl⟩
  · exact bind_of_error (nextItem_front hblanks first hfront) next
  · have hitem := nextItem_append (htext.of_front hmore hnil) hblanks first []
    rw [List.append_nil] at hitem
    rw [List.append_assoc, bind_of_ok hitem]
    refine hnext more hmore fun heq => hne ?_
    rw [heq, List.append_assoc]

variable {document : α → Json}

/-- The elements of a list, up to its end. -/
theorem needs_items (hlayout : layout.Loose) (depth : ℕ) {values : List α}
    (hconveys : ∀ value ∈ values, Conveys layout read (document value) value true)
    (hbreaks : ∀ value ∈ values, BreaksOff layout read (document value)) (first : Bool)
    (bound : List Char) :
    Needs (items read bound first)
      (inside layout depth ']' first
        (values.map fun value => (document value).write layout (depth + 1))) := by
  induction values generalizing bound first with
  | nil =>
    rcases bound with _ | ⟨c, bound⟩
    · exact needs_truncated _
    · obtain ⟨blanks, hblanks, htext⟩ := exists_inside_nil hlayout depth ']' first []
      rw [List.append_nil] at htext
      rw [List.map_nil, htext]
      have hclose : Needs (nextItem first) (blanks ++ [']']) :=
        needs_lookAhead hblanks rfl rfl (needs_nil _)
      exact hclose.bind _
  | cons value values ih =>
    rcases bound with _ | ⟨c, bound⟩
    · exact needs_truncated _
    · obtain ⟨hvalue, hvalues⟩ := List.forall_mem_cons.1 hconveys
      obtain ⟨hbreak, hbreaks⟩ := List.forall_mem_cons.1 hbreaks
      have hothers := (ih hvalues hbreaks false bound).bind fun others => pure (value :: others)
      rw [List.map_cons, inside]
      refine needs_nextItem (hlayout.gap _) first ((hvalue.opens (depth + 1)).append _) ?_
      refine needs_value hlayout hvalue hbreak depth blank_nil (.inl rfl) (fun found => ?_) hothers
      -- Nothing is left behind the value, be the bound used up or not.
      cases bound <;> rfl

/-- A list, from its elements. -/
theorem needs_listOf (hlayout : layout.Loose) {values : List α}
    (hconveys : ∀ value ∈ values, Conveys layout read (document value) value true)
    (hbreaks : ∀ value ∈ values, BreaksOff layout read (document value)) (depth : ℕ)
    (hblanks : Blank blanks) :
    Needs (listOf read) (blanks ++ (Json.list (values.map document)).write layout depth) := by
  rw [write, writeItems_map, enclose_eq]
  refine needs_lookAhead hblanks rfl rfl fun part hpart hne => ?_
  exact needs_items hlayout depth hconveys hbreaks true part part hpart hne

theorem breaksOff_listOf (hlayout : layout.Loose) {values : List α}
    (hconveys : ∀ value ∈ values, Conveys layout read (document value) value true)
    (hbreaks : ∀ value ∈ values, BreaksOff layout read (document value)) :
    BreaksOff layout (listOf read) (.list (values.map document)) := by
  refine (conveys_listOf hlayout hconveys).breaksOff (List.all_eq_true.2 fun _ _ => rfl) ?_
  intro depth blanks hblanks
  exact needs_listOf hlayout hconveys hbreaks depth hblanks

/-! ### Choices -/

variable {content? : String → Option (Content α)} {name : String}

/-- A name in quotation marks, whether it is known or not. -/
theorem needs_word (hname : Plain name.toList) (depth : ℕ) (hblanks : Blank blanks) :
    Needs (choice content?) (blanks ++ (Json.word name).write layout depth) := by
  rw [write, quoted]
  refine needs_lookAhead hblanks rfl rfl ?_
  exact (token_quotedText hname).needs.bind _

/-- The text of a member, piece by piece. -/
theorem member_eq (key : String) {space : List Char} (hcolon : layout.colon = ':' :: space)
    (value rest : List Char) :
    quoted key ++ layout.colon ++ value ++ rest =
      ['"'] ++ ((key.toList ++ ['"']) ++ ([':'] ++ (space ++ (value ++ rest)))) := by
  rw [hcolon, quoted]
  simp only [List.cons_append, List.append_assoc, List.nil_append]

/-- A name with a finite number. -/
theorem needs_angled (hlayout : layout.Loose) {make : Binary64 → α} (hname : Plain name.toList)
    (hcontent : content? name = some (.angled make)) {angle : Binary64} (hangle : angle.isFinite)
    (depth : ℕ) (hblanks : Blank blanks) :
    Needs (choice content?)
      (blanks ++ (Json.object [(name, .ofBinary64 angle)]).write layout depth) := by
  obtain ⟨space, hspace, hcolon⟩ := hlayout.colon
  rw [write, enclose_eq, writeMembers, writeMembers, inside, if_pos rfl, List.nil_append,
    member_eq name hcolon, ← List.append_assoc]
  refine needs_lookAhead hblanks rfl rfl ?_
  refine Token.needs_bind (token_mark (hlayout.gap _) rfl) ?_
  refine Token.needs_bind (token_quotedText hname) ?_
  rw [hcontent]
  refine Token.needs_bind (token_mark blank_nil rfl) ?_
  have hclose : Needs (mark '\x7d' >>= fun _ => pure (make angle))
      (inside layout depth '\x7d' false []) := (token_mark (hlayout.gap depth) rfl).needs.bind _
  have hconveys := conveys_binary64 layout angle
  rw [hangle] at hconveys
  exact needs_value hlayout hconveys (breaksOff_binary64 layout hangle) depth hspace (.inr rfl)
    (fun _ => rfl) hclose

/-! ### Records -/

variable {fields : List (Field δ)} {draft final : δ} {pairs : List (String × Json)} {whole : Bool}

/-- The members of an object, up to its end. -/
theorem needs_members (hlayout : layout.Loose) (depth : ℕ) (first : Bool)
    (h : Fills layout fields draft pairs final whole) (hwhole : whole)
    (hbreaks : ∀ pair ∈ pairs, ∀ field, fields.find? (·.key == pair.1) = some field →
      ∀ draft, BreaksOff layout (field.read draft) pair.2) (bound : List Char) :
    Needs (members fields bound first draft)
      (inside layout depth '\x7d' first (writeMembers layout (depth + 1) pairs)) := by
  induction h generalizing bound first with
  | nil draft =>
    rcases bound with _ | ⟨c, bound⟩
    · exact needs_truncated _
    · obtain ⟨blanks, hblanks, htext⟩ := exists_inside_nil hlayout depth '\x7d' first []
      rw [List.append_nil] at htext
      rw [writeMembers, htext]
      have hclose : Needs (nextKey first) (blanks ++ ['\x7d']) :=
        needs_lookAhead hblanks rfl rfl (needs_nil _)
      exact hclose.bind _
  | @cons draft next final key value field others intact rest hkey hfield hgiven hvalue _ ih =>
    rcases bound with _ | ⟨c, bound⟩
    · exact needs_truncated _
    · obtain ⟨rfl, rfl⟩ := Bool.and_eq_true_iff.1 hwhole
      obtain ⟨hbreak, hbreaks⟩ := List.forall_mem_cons.1 hbreaks
      obtain ⟨space, hspace, hcolon⟩ := hlayout.colon
      rw [writeMembers, inside, member_eq key hcolon, ← List.append_assoc (layout.gap _),
        ← List.append_assoc (if first then [] else [','])]
      refine Token.needs_bind (token_nextKey (hlayout.gap _) first) ?_
      refine Token.needs_bind (token_quotedText hkey) ?_
      -- The field was not given before, so that its value is read.
      rw [hfield]
      simp only [hgiven]
      refine Token.needs_bind (token_mark blank_nil rfl) ?_
      refine needs_value hlayout hvalue (hbreak field hfield draft) depth hspace (.inr rfl)
        (fun found => ?_) (ih false rfl hbreaks bound)
      cases bound <;> rfl

/-- A record, from its members. -/
theorem needs_record (hlayout : layout.Loose) {finish : δ → Option α}
    (h : Fills layout fields draft pairs final whole) (hwhole : whole)
    (hbreaks : ∀ pair ∈ pairs, ∀ field, fields.find? (·.key == pair.1) = some field →
      ∀ draft, BreaksOff layout (field.read draft) pair.2) (depth : ℕ) (hblanks : Blank blanks) :
    Needs (record fields draft finish) (blanks ++ (Json.object pairs).write layout depth) := by
  rw [write, enclose_eq]
  refine Needs.bind (needs_lookAhead hblanks rfl rfl fun part hpart hne => ?_) _
  exact needs_members hlayout depth true h hwhole hbreaks part part hpart hne

end Reader

end GateGrid.Json

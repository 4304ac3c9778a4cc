import GateGrid.Proofs.Json.Skip

/-!
# Records in any layout

A record is gathered from the members of an object, in any order and among members of no interest,
or from the elements of a list in the order of the fields. Here the members and elements are those
of the grammar, with any blanks around their parts. One member after the other *adds* to the draft;
the first one that has the key of a field that was given before stops the reading, and what follows
that key does not matter.

* `Reader.Takes`: the reader takes a text as a value, whatever stands around it;
* `Reader.Adds`, `Reader.members_add`: one member;
* `Reader.Gathers`, `Reader.members_gathers`: all members of an object;
* `Reader.Clashes`, `Reader.members_clashes`: a field that is given twice;
* `Reader.InOrder`, `Reader.elements_inOrder`: the elements of a list;
* `Reader.takes_object`, `Reader.takes_list`: the two forms of a record;
* `Reader.record_clashes`, `Reader.record_incomplete`: objects that are refused.
-/

namespace GateGrid.Json.Reader

variable {α β δ : Type} {blanks text rest : List Char}

/-! ### Values -/

/-- The reader takes the text as the value, with any blanks in front of it and whatever follows. -/
def Takes (read : Reader α) (text : List Char) (value : α) : Prop :=
  ∀ ⦃blanks rest : List Char⦄, Blank blanks → Ends rest →
    read (blanks ++ (text ++ rest)) = .ok (value, rest)

/-- What is made of the value by a function. -/
theorem Takes.map {read : Reader α} {value : α} (h : Takes read text value) (f : α → β) :
    Takes (read >>= fun a => pure (f a)) text (f value) :=
  fun _ _ hblanks hrest => bind_of_ok (h hblanks hrest) _

/-- A name is taken as what it names. -/
theorem takes_choice {content? : String → Option (Content α)} {name : String} {value : α}
    (hname : Spells text name) (hcontent : content? name = some (.plain value)) :
    Takes (choice content?) ('"' :: (text ++ ['"'])) value := by
  intro blanks rest hblanks _
  rw [List.cons_append, List.append_assoc]
  exact choice_quoted hblanks (hname.quotedText_append rest) hcontent

/-- The text is all that is read, with blanks around it. -/
theorem Takes.readAll {read : Reader α} {value : α} (h : Takes read text value)
    {front back : List Char} (hfront : Blank front) (hback : Blank back) :
    read.readAll (String.ofList (front ++ (text ++ back))) = .ok value := by
  have hends := Ends.blank_append hback ends_nil
  rw [List.append_nil] at hends
  rw [Reader.readAll, String.toList_ofList, h hfront hends]
  exact if_pos (List.all_eq_true.2 hback)

/-- A numeral is taken as the number that it is read as when it stands alone. -/
theorem takes_binary64 {value : Binary64} (h : IsNumeral text)
    (hvalue : binary64.readAll (String.ofList text) = .ok value) : Takes binary64 text value := by
  obtain ⟨found, hfound⟩ := h.exists_numeral
  have hany {blanks rest : List Char} (hblanks : Blank blanks) :=
    h.numeric.anyNumber_append hblanks rest
  -- The numeral is the same whatever follows it, and so is the number nearest to it.
  cases hnearest : Binary64.ofDecimal? found.negative found.value with
  | none =>
    have hnumber : number (text ++ []) = .error .malformed := by
      rw [number, bind_of_ok (hfound [] ends_nil)]
      simp only [hnearest]
      rfl
    have hread : binary64 ([] ++ (text ++ [])) = .error .malformed :=
      bind_of_error ((hany blank_nil).trans hnumber) _
    rw [List.nil_append, List.append_nil] at hread
    rw [Reader.readAll, String.toList_ofList, hread] at hvalue
    exact absurd hvalue (by simp)
  | some nearest =>
    have htakes : Takes binary64 text nearest := by
      intro blanks rest hblanks hrest
      have hnumber : number (text ++ rest) = .ok ((found, nearest), rest) := by
        rw [number, bind_of_ok (hfound rest hrest)]
        simp only [hnearest]
        rfl
      exact bind_of_ok ((hany hblanks).trans hnumber) _
    have hread := htakes.readAll blank_nil blank_nil
    rw [List.nil_append, List.append_nil, hvalue] at hread
    exact Except.ok.inj hread ▸ htakes

/-! ### Members -/

/-- What a member adds to a draft: a field that was not given before, or nothing, if its key is that
    of no field. -/
inductive Adds (fields : List (Field δ)) (draft : δ) (member : Member) : δ → Prop
  /-- The value of a field is read. -/
  | field {name : String} {field : Field δ} {next : δ} : Spells member.key name →
      fields.find? (·.key == name) = some field → field.isGiven draft = false →
      Takes (field.read draft) member.item.value next → Adds fields draft member next
  /-- The value is of no interest. -/
  | other {name : String} : Spells member.key name → fields.find? (·.key == name) = none →
      IsValue member.item.value → Adds fields draft member draft

/-- The members add up to the final draft, one after the other. -/
inductive Gathers (fields : List (Field δ)) : δ → List Member → δ → Prop
  | nil (draft : δ) : Gathers fields draft [] draft
  | cons {draft next final : δ} {member : Member} {members : List Member} : member.Loose →
      Adds fields draft member next → Gathers fields next members final →
      Gathers fields draft (member :: members) final

/-- One of the members has the key of a field that was given before. Neither its value nor the
    members behind it need be anything. -/
inductive Clashes (fields : List (Field δ)) : δ → List Member → Prop
  | here {draft : δ} {member : Member} {members : List Member} {name : String} {field : Field δ} :
      Blank member.before → Spells member.key name → fields.find? (·.key == name) = some field →
      field.isGiven draft = true → Clashes fields draft (member :: members)
  | later {draft next : δ} {member : Member} {members : List Member} : member.Loose →
      Adds fields draft member next → Clashes fields next members →
      Clashes fields draft (member :: members)

variable {fields : List (Field δ)} {draft next final : δ} {member : Member}
  {written : List Member} {bound space : List Char}

theorem Gathers.append_clashes {others : List Member} (h : Gathers fields draft written next)
    (hothers : Clashes fields next others) : Clashes fields draft (written ++ others) := by
  induction h with
  | nil => exact hothers
  | cons hloose hadds _ ih => exact .later hloose hadds (ih hothers)

/-- Blanks before a comma or a closing bracket make no difference. -/
theorem members_blanks (hblanks : Blank blanks) (first : Bool) (text : List Char) :
    members fields bound first draft (blanks ++ text) = members fields bound first draft text := by
  have hnext : nextKey first (blanks ++ text) = nextKey first text := by
    rw [nextKey]
    exact bind_congr_text (lookAhead_blanks hblanks text) _
  cases bound with
  | nil => rfl
  | cons c bound =>
    rw [members]
    exact bind_congr_text hnext _

/-- A member is taken, and what it adds to the draft is there for those behind it. -/
theorem members_add (hloose : member.Loose) (hadds : Adds fields draft member next) (c : Char)
    (first : Bool) (hrest : Ends rest) :
    members fields (c :: bound) first draft
        ((if first then [] else [',']) ++ (member.text ++ rest)) =
      members fields bound false next rest := by
  obtain ⟨hbefore, hmiddle, hitem, hbehind⟩ := hloose
  have hends := Ends.blank_append hbehind hrest
  rw [member.text_append, members, bind_of_ok (nextKey_append hbefore first _)]
  change (quotedText >>= _) _ = _
  cases hadds with
  | field hkey hfield hgiven hvalue =>
    rw [bind_of_ok (hkey.quotedText_append _), hfield]
    -- The field was not given before, so that its value is read.
    simp only [hgiven]
    change (mark ':' >>= fun _ => _ >>= _) _ = _
    rw [bind_of_ok (mark_append hmiddle rfl), bind_of_ok (hvalue hitem hends)]
    exact members_blanks hbehind false rest
  | other hkey hnone hvalue =>
    rw [bind_of_ok (hkey.quotedText_append _), hnone]
    change (mark ':' >>= fun _ => skipValue >>= _) _ = _
    rw [bind_of_ok (mark_append hmiddle rfl), bind_of_ok (hvalue.skipValue_append hitem hends)]
    exact members_blanks hbehind false rest

/-- The reading stops at the key of a field that was given before. -/
theorem members_repeat {name : String} {field : Field δ} (hbefore : Blank member.before)
    (hkey : Spells member.key name) (hfield : fields.find? (·.key == name) = some field)
    (hgiven : field.isGiven draft = true) (c : Char) (first : Bool) (rest : List Char) :
    members fields (c :: bound) first draft
        ((if first then [] else [',']) ++ (member.text ++ rest)) = .error .mismatch := by
  rw [member.text_append, members, bind_of_ok (nextKey_append hbefore first _)]
  change (quotedText >>= _) _ = _
  rw [bind_of_ok (hkey.quotedText_append _), hfield]
  simp only [hgiven]
  rfl

/-- The members of an object are gathered up to its end. -/
theorem members_gathers (h : Gathers fields draft written final) (hspace : Blank space)
    (first : Bool) (hbound : written.length < bound.length) (rest : List Char) :
    members fields bound first draft
        (listing '\x7d' space first (written.map Member.text) ++ rest) = .ok (final, rest) := by
  -- The bound loses a character with each member, and the end takes one more.
  induction h generalizing bound first with
  | nil draft =>
    obtain ⟨c, bound, rfl⟩ := List.exists_cons_of_length_pos hbound
    obtain ⟨blanks, hblanks, htext⟩ := exists_listing_nil '\x7d' hspace first rest
    rw [List.map_nil, htext, members, bind_of_ok (nextKey_close hblanks first rest)]
    rfl
  | cons hloose hadds _ ih =>
    obtain ⟨c, bound, rfl⟩ := List.exists_cons_of_length_pos (Nat.zero_lt_of_lt hbound)
    rw [List.map_cons, listing, List.append_assoc, List.append_assoc,
      members_add hloose hadds c first (ends_listing (.inr rfl) space _ rest)]
    exact ih false (Nat.lt_of_succ_lt_succ hbound)

/-- A field that is given twice is a mismatch. -/
theorem members_clashes (h : Clashes fields draft written) (space : List Char) (first : Bool)
    (hbound : written.length < bound.length) (rest : List Char) :
    members fields bound first draft
        (listing '\x7d' space first (written.map Member.text) ++ rest) = .error .mismatch := by
  induction h generalizing bound first with
  | here hbefore hkey hfield hgiven =>
    obtain ⟨c, bound, rfl⟩ := List.exists_cons_of_length_pos (Nat.zero_lt_of_lt hbound)
    rw [List.map_cons, listing, List.append_assoc, List.append_assoc]
    exact members_repeat hbefore hkey hfield hgiven c first _
  | later hloose hadds _ ih =>
    obtain ⟨c, bound, rfl⟩ := List.exists_cons_of_length_pos (Nat.zero_lt_of_lt hbound)
    rw [List.map_cons, listing, List.append_assoc, List.append_assoc,
      members_add hloose hadds c first (ends_listing (.inr rfl) space _ rest)]
    exact ih false (Nat.lt_of_succ_lt_succ hbound)

/-! ### Elements -/

/-- The elements are the fields in their order, as far as they go. -/
inductive InOrder : List (Field δ) → δ → List Item → δ → Prop
  | nil (fields : List (Field δ)) (draft : δ) : InOrder fields draft [] draft
  | cons {field : Field δ} {fields : List (Field δ)} {draft next final : δ} {item : Item}
      {items : List Item} : item.Loose → Opens item.value →
      Takes (field.read draft) item.value next → InOrder fields next items final →
      InOrder (field :: fields) draft (item :: items) final

/-- Blanks before a comma or a closing bracket make no difference. -/
theorem elements_blanks (hblanks : Blank blanks) (first : Bool) (text : List Char) :
    elements fields first draft (blanks ++ text) = elements fields first draft text := by
  have hmark : mark ']' (blanks ++ text) = mark ']' text := by
    rw [mark]
    exact bind_congr_text (lookAhead_blanks hblanks text) _
  have hnext : nextItem first (blanks ++ text) = nextItem first text := by
    rw [nextItem]
    exact bind_congr_text (lookAhead_blanks hblanks text) _
  cases fields with
  | nil => exact bind_congr_text hmark _
  | cons field fields => exact bind_congr_text hnext _

/-- The elements of a list are taken as fields up to its end. -/
theorem elements_inOrder {items : List Item} (h : InOrder fields draft items final)
    (hspace : Blank space) (first : Bool) (rest : List Char) :
    elements fields first draft (listing ']' space first (items.map Item.text) ++ rest) =
      .ok (final, rest) := by
  induction h generalizing first with
  | nil fields draft =>
    obtain ⟨blanks, hblanks, htext⟩ := exists_listing_nil ']' hspace first rest
    rw [List.map_nil, htext]
    cases fields with
    | nil => exact bind_of_ok (mark_append hblanks rfl) _
    | cons field fields => exact bind_of_ok (nextItem_close hblanks first rest) _
  | @cons field fields draft next final item items hloose hopens hvalue _ ih =>
    have hends := Ends.blank_append hloose.2
      (ends_listing (.inl rfl) space (items.map Item.text) rest)
    have hitem := hvalue blank_nil hends
    rw [List.nil_append] at hitem
    rw [List.map_cons, listing, Item.text]
    simp only [List.append_assoc]
    rw [elements, bind_of_ok (nextItem_append hopens hloose.1 first _)]
    change (field.read draft >>= elements fields false) _ = _
    rw [bind_of_ok hitem, elements_blanks hloose.2]
    exact ih false

/-! ### Records -/

/-- Makes the value from the draft, where no field that must be given is missing. -/
def complete (finish : δ → Option α) (draft : δ) : Reader α :=
  (finish draft).elim (fail .mismatch) pure

/-- A record that is an object. -/
theorem record_object (finish : δ → Option α) (hblanks : Blank blanks) (text : List Char) :
    record fields draft finish (blanks ++ '\x7b' :: text) =
      (members fields text true draft >>= complete finish) text := by
  rw [record]
  refine (bind_congr_text (?_ : _ = members fields text true draft text) _).trans
    (congrArg (fun next => (members fields text true draft >>= next) text) (funext fun draft => ?_))
  · rw [bind_of_ok (lookAhead_append hblanks rfl)]
    rfl
  · rw [complete]
    cases finish draft <;> rfl

/-- A record that is a list. -/
theorem record_list (finish : δ → Option α) (hblanks : Blank blanks) (text : List Char) :
    record fields draft finish (blanks ++ '[' :: text) =
      (elements fields true draft >>= complete finish) text := by
  rw [record]
  refine (bind_congr_text (?_ : _ = elements fields true draft text) _).trans
    (congrArg (fun next => (elements fields true draft >>= next) text) (funext fun draft => ?_))
  · rw [bind_of_ok (lookAhead_append hblanks rfl)]
    rfl
  · rw [complete]
    cases finish draft <;> rfl

/-- The text of an object is longer than the number of its members. -/
theorem length_lt_length_object (written : List Member) (space rest : List Char) :
    written.length < (listing '\x7d' space true (written.map Member.text) ++ rest).length := by
  have hne : ∀ text ∈ written.map Member.text, text ≠ [] := by
    intro text htext
    obtain ⟨member, -, rfl⟩ := List.mem_map.1 htext
    simp [Member.text, Member.lead]
  have hlength := length_lt_length_listing '\x7d' space true hne
  rw [List.length_map] at hlength
  rw [List.length_append]
  omega

variable {finish : δ → Option α} {value : α}

/-- All members of an object are gathered, and the value is made of them. -/
theorem record_gathers (h : Gathers fields draft written final) (finish : δ → Option α)
    (hblanks : Blank blanks) (hspace : Blank space) (rest : List Char) :
    record fields draft finish (blanks ++ (objectText space written ++ rest)) =
      complete finish final rest := by
  have hmembers := members_gathers h hspace true (length_lt_length_object written space rest) rest
  rw [objectText, List.cons_append, record_object finish hblanks]
  exact bind_of_ok hmembers _

/-- An object is taken as the value that is made of all its members. -/
theorem takes_object (h : Gathers fields draft written final) (hspace : Blank space)
    (hfinish : finish final = some value) :
    Takes (record fields draft finish) (objectText space written) value := by
  intro blanks rest hblanks _
  rw [record_gathers h finish hblanks hspace, complete, hfinish]
  rfl

/-- An object without a field that must be given is a mismatch. -/
theorem record_incomplete (h : Gathers fields draft written final) (hfinish : finish final = none)
    (hblanks : Blank blanks) (hspace : Blank space) (rest : List Char) :
    record fields draft finish (blanks ++ (objectText space written ++ rest)) =
      .error .mismatch := by
  rw [record_gathers h finish hblanks hspace, complete, hfinish]
  rfl

/-- An object in which a field is given twice is a mismatch. -/
theorem record_clashes (h : Clashes fields draft written) (finish : δ → Option α)
    (hblanks : Blank blanks) (space rest : List Char) :
    record fields draft finish (blanks ++ (objectText space written ++ rest)) =
      .error .mismatch := by
  have hmembers := members_clashes h space true (length_lt_length_object written space rest) rest
  rw [objectText, List.cons_append, record_object finish hblanks]
  exact bind_of_error hmembers _

/-- A list is taken as the value that is made of its elements. -/
theorem takes_list {items : List Item} (h : InOrder fields draft items final)
    (hspace : Blank space) (hfinish : finish final = some value) :
    Takes (record fields draft finish) (listText space items) value := by
  intro blanks rest hblanks _
  rw [listText, List.cons_append, record_list finish hblanks,
    bind_of_ok (elements_inOrder h hspace true rest), complete, hfinish]
  rfl

end GateGrid.Json.Reader

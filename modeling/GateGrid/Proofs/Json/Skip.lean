import GateGrid.Proofs.Json.Grammar

/-!
# Values that are passed over

A value of no interest is passed over by a loop that keeps the brackets open around the current
place. However deeply a value is nested, the loop takes the whole of it and then goes on with the
brackets that were open before: it *skips* the value. This is shown along the grammar. A value
without brackets is taken in one step. Behind an opening bracket the elements are skipped one after
the other, each with this bracket open around it, up to the closing one.

Each step takes a character of the bound, and at least one of the text. So the bound stays as long
as the text, and does not run out before it.

* `Reader.Skips`: the loop takes a value, whatever brackets are open;
* `Reader.skips_of_skipHead`: values without brackets;
* `Reader.resume_further`, `Reader.skips_elements`: the elements between brackets;
* `IsValue.skips`, `IsValue.skipValue_append`: every value is taken whole.
-/

namespace GateGrid.Json

namespace Reader

variable {α β : Type} {outer : List Bracket} {bracket : Bracket}
  {bound blanks text rest value space : List Char}

/-! ### Blanks and brackets -/

/-- Looking ahead does not depend on the blanks in front. -/
theorem lookAhead_blanks (hblanks : Blank blanks) (text : List Char) :
    lookAhead (blanks ++ text) = lookAhead text := by
  have hskip : skipBlanks (blanks ++ text) = skipBlanks text := by
    rw [skipBlanks, skipBlanks, List.dropWhile_append_of_pos hblanks]
  rw [lookAhead, bind_apply, bind_apply, hskip]

/-- Readers that do the same at their places do so with the same reader behind them. -/
theorem bind_congr_text {read read' : Reader α} {text' : List Char} (h : read text = read' text')
    (next : α → Reader β) : (read >>= next) text = (read' >>= next) text' := by
  rw [bind_apply, bind_apply, h]

/-- Goes on with the brackets that are open around the next value; if there are none, the reading is
    done. -/
def descend (bound : List Char) : List Bracket → Reader Unit
  | [] => pure ()
  | outer => skipLoop bound outer

/-- Goes on behind a value. -/
def resume (bound : List Char) (outer : List Bracket) : Reader Unit :=
  afterValue outer >>= descend bound

theorem skipLoop_cons (c : Char) (bound : List Char) (outer : List Bracket) :
    skipLoop (c :: bound) outer = skipHead outer >>= descend bound := by
  rw [skipLoop]
  rfl

/-- Takes what stands before a value inside a bracket: nothing in a list, the key in an object. -/
def skipLead : Bracket → Reader Unit
  | .list => pure ()
  | .object => skipKey

/-- A closing bracket ends the elements, and reading goes on behind it. -/
theorem resume_close (bracket : Bracket) (hblanks : Blank blanks) (rest : List Char) :
    resume bound (bracket :: outer) (blanks ++ bracket.closing :: rest) =
      resume bound outer rest := by
  have hblank : isBlank bracket.closing = false := by cases bracket <;> rfl
  refine bind_congr_text ?_ _
  rw [afterValue, bind_of_ok (lookAhead_append hblanks hblank)]
  simp only [if_true]
  rfl

/-- Behind a comma the next value is read, in an object after its key. -/
theorem resume_comma (hblanks : Blank blanks) (hlead : skipLead bracket text = .ok ((), rest)) :
    resume bound (bracket :: outer) (blanks ++ ',' :: text) =
      skipLoop bound (bracket :: outer) rest := by
  have hafter : afterValue (bracket :: outer) (blanks ++ ',' :: text) =
      .ok (bracket :: outer, rest) := by
    rw [afterValue, bind_of_ok (lookAhead_append hblanks rfl)]
    cases bracket with
    | list =>
      obtain rfl : text = rest := congrArg Prod.snd (Except.ok.inj hlead)
      rfl
    | object => exact bind_of_ok hlead _
  rw [resume, bind_of_ok hafter]
  rfl

/-- A bracket that is closed at once. -/
theorem afterBracket_close (bracket : Bracket) (outer : List Bracket) (hblanks : Blank blanks)
    (rest : List Char) :
    afterBracket bracket outer (blanks ++ bracket.closing :: rest) = afterValue outer rest := by
  have hblank : isBlank bracket.closing = false := by cases bracket <;> rfl
  rw [afterBracket, bind_of_ok (lookAhead_append hblanks hblank), if_pos rfl]
  rfl

/-- The first element of a list. -/
theorem afterBracket_item (outer : List Bracket) (hblanks : Blank blanks) (hvalue : Opens value)
    (rest : List Char) :
    afterBracket .list outer (blanks ++ (value ++ rest)) = .ok (.list :: outer, value ++ rest) := by
  obtain ⟨c, tail, rfl, hblank, hclose⟩ := hvalue
  rw [afterBracket, List.cons_append, bind_of_ok (lookAhead_append hblanks hblank), if_neg]
  · rfl
  · exact fun heq => hclose (Option.some.inj heq)

/-- The first member of an object. -/
theorem afterBracket_member (outer : List Bracket) (hblanks : Blank blanks)
    (hkey : skipKey ('"' :: text) = .ok ((), rest)) :
    afterBracket .object outer (blanks ++ '"' :: text) = .ok (.object :: outer, rest) := by
  rw [afterBracket, bind_of_ok (lookAhead_append hblanks rfl), if_neg (by decide)]
  exact bind_of_ok hkey _

/-- A key and its colon. -/
theorem skipKey_append {key : List Char} {units : List ℕ} {middle : List Char}
    (hblanks : Blank blanks) (hkey : WritesUnits key units) (hmiddle : Blank middle)
    (rest : List Char) :
    skipKey (blanks ++ '"' :: (key ++ '"' :: (middle ++ ':' :: rest))) = .ok ((), rest) := by
  rw [skipKey, bind_of_ok (mark_append hblanks rfl), bind_of_ok (hkey.skipQuoted_append _)]
  exact mark_append hmiddle rfl

/-! ### Values -/

/-- The loop takes the value, whatever brackets are open, and goes on behind it. -/
def Skips (value : List Char) : Prop :=
  ∀ (outer : List Bracket) {bound blanks rest : List Char}, Blank blanks → Ends rest →
    (value ++ rest).length ≤ bound.length →
    ∃ bound', rest.length ≤ bound'.length ∧
      skipLoop bound outer (blanks ++ (value ++ rest)) = resume bound' outer rest

/-- A value that is taken in one step. -/
theorem skips_of_skipHead (hne : value ≠ [])
    (h : ∀ (outer : List Bracket) {blanks rest : List Char}, Blank blanks → Ends rest →
      skipHead outer (blanks ++ (value ++ rest)) = afterValue outer rest) : Skips value := by
  intro outer bound blanks rest hblanks hrest hbound
  have hpos := List.length_pos_iff.2 hne
  rw [List.length_append] at hbound
  obtain ⟨c, bound, rfl⟩ := List.exists_cons_of_length_pos (by omega : 0 < bound.length)
  rw [List.length_cons] at hbound
  refine ⟨bound, by omega, ?_⟩
  rw [skipLoop_cons]
  exact bind_congr_text (h outer hblanks hrest) _

/-- An element is skipped inside a bracket: the key before its value, if there has to be one, and
    the value. -/
structure Skippable (bracket : Bracket) (element : List Char × Item) : Prop where
  /-- What stands before the value is taken. -/
  lead : ∀ rest, skipLead bracket (element.1 ++ rest) = .ok ((), rest)
  /-- Right behind the opening bracket the value is found too. -/
  first : ∀ outer rest, ∃ blanks, Blank blanks ∧
    afterBracket bracket outer (element.1 ++ (element.2.before ++ (element.2.value ++ rest))) =
      .ok (bracket :: outer, blanks ++ (element.2.value ++ rest))
  /-- There are only blanks around the value. -/
  loose : element.2.Loose
  /-- The value is skipped. -/
  value : Skips element.2.value

/-- What stands behind an element: the other elements and the closing bracket. -/
def further (bracket : Bracket) (space : List Char) (elements : List (List Char × Item)) :
    List Char :=
  listing bracket.closing space false (elements.map fun element => element.1 ++ element.2.text)

theorem ends_further (bracket : Bracket) (space : List Char) (elements : List (List Char × Item))
    (rest : List Char) : Ends (further bracket space elements ++ rest) :=
  ends_listing (by cases bracket <;> decide) space _ rest

theorem further_cons (bracket : Bracket) (space lead : List Char) (item : Item)
    (elements : List (List Char × Item)) (rest : List Char) :
    further bracket space ((lead, item) :: elements) ++ rest = ',' :: (lead ++
      (item.before ++ (item.value ++ (item.behind ++
        (further bracket space elements ++ rest))))) := by
  simp [further, listing, Item.text]

/-- The elements behind an element are skipped one after the other, up to the closing bracket. -/
theorem resume_further {elements : List (List Char × Item)}
    (h : ∀ element ∈ elements, Skippable bracket element) {behind : List Char}
    (hbehind : Blank behind)
    (hbound : (behind ++ (further bracket space elements ++ rest)).length ≤ bound.length) :
    ∃ bound', rest.length ≤ bound'.length ∧
      resume bound (bracket :: outer) (behind ++ (further bracket space elements ++ rest)) =
        resume bound' outer rest := by
  induction elements generalizing behind bound with
  | nil =>
    refine ⟨bound, ?_, resume_close bracket hbehind rest⟩
    simp only [List.length_append] at hbound
    omega
  | cons element elements ih =>
    obtain ⟨lead, item⟩ := element
    obtain ⟨helement, helements⟩ := List.forall_mem_cons.1 h
    rw [further_cons] at hbound ⊢
    simp only [List.length_append, List.length_cons] at hbound
    rw [resume_comma hbehind (helement.lead _)]
    obtain ⟨bound₁, hbound₁, hvalue⟩ := helement.value (bracket :: outer) helement.loose.1
      (.blank_append helement.loose.2 (ends_further bracket space elements rest))
      (by simp only [List.length_append]; omega : _ ≤ bound.length)
    rw [hvalue]
    exact ih helements helement.loose.2 hbound₁

/-- All elements between brackets are skipped, with the brackets. -/
theorem skips_elements {opening : Char} {elements : List (List Char × Item)}
    (hopening : ∀ outer {blanks : List Char}, Blank blanks → ∀ text,
      skipHead outer (blanks ++ opening :: text) = afterBracket bracket outer text)
    (hspace : Blank space) (h : ∀ element ∈ elements, Skippable bracket element) :
    Skips (opening :: listing bracket.closing space true
      (elements.map fun element => element.1 ++ element.2.text)) := by
  cases elements with
  | nil =>
    refine skips_of_skipHead (List.cons_ne_nil _ _) fun outer blanks rest hblanks _ => ?_
    rw [List.cons_append, hopening outer hblanks, List.map_nil, listing, List.append_assoc]
    exact afterBracket_close bracket outer hspace rest
  | cons element elements =>
    intro outer bound blanks rest hblanks _ hbound
    obtain ⟨lead, item⟩ := element
    obtain ⟨helement, helements⟩ := List.forall_mem_cons.1 h
    have htext : listing bracket.closing space true
          (((lead, item) :: elements).map fun element => element.1 ++ element.2.text) ++ rest =
        lead ++ (item.before ++ (item.value ++ (item.behind ++
          (further bracket space elements ++ rest)))) := by
      simp [listing, further, Item.text]
    rw [List.cons_append, htext] at hbound ⊢
    obtain ⟨c, bound, rfl⟩ := List.exists_cons_of_length_pos (Nat.zero_lt_of_lt hbound)
    simp only [List.length_append, List.length_cons] at hbound
    -- The step at the opening bracket leads to the first value, and behind it are the others.
    obtain ⟨before, hbefore, hfirst⟩ := helement.first outer
      (item.behind ++ (further bracket space elements ++ rest))
    obtain ⟨bound₁, hbound₁, hvalue⟩ := helement.value (bracket :: outer) hbefore
      (.blank_append helement.loose.2 (ends_further bracket space elements rest))
      (by simp only [List.length_append]; omega : _ ≤ bound.length)
    obtain ⟨bound₂, hbound₂, hothers⟩ := resume_further helements helement.loose.2 hbound₁
    refine ⟨bound₂, hbound₂, ?_⟩
    rw [skipLoop_cons, bind_of_ok ((hopening outer hblanks _).trans hfirst), ← hothers, ← hvalue]
    rfl

end Reader

namespace IsValue

open Reader

variable {text rest : List Char}

theorem skips_literal (h : text ∈ [['n', 'u', 'l', 'l'], ['t', 'r', 'u', 'e'],
    ['f', 'a', 'l', 's', 'e']]) : Skips text := by
  simp only [List.mem_cons, List.not_mem_nil, or_false] at h
  rcases h with rfl | rfl | rfl
  all_goals
    refine skips_of_skipHead (List.cons_ne_nil _ _) fun outer blanks rest hblanks _ => ?_
    rw [skipHead, List.cons_append, bind_of_ok (lookAhead_append hblanks rfl)]
    rfl

theorem skips_numeral (h : IsNumeral text) : Skips text := by
  obtain ⟨found, hfound⟩ := h.exists_numeral
  have hopens := h.numeric.opens
  obtain ⟨c, tail, rfl, hc⟩ := h.numeric
  obtain ⟨_, _, ⟨⟩, hblank, -⟩ := hopens
  refine skips_of_skipHead (List.cons_ne_nil _ _) fun outer blanks rest hblanks hrest => ?_
  have hskip : skipNumeral (c :: (tail ++ rest)) = .ok ((), rest) := by
    rw [skipNumeral, ← List.cons_append, hfound rest hrest]
  -- The character is none of those that start other values.
  have hne (d : Char) (hd : startsNumeral d = false) : c ≠ d := by
    rintro rfl
    rw [hc] at hd
    exact Bool.noConfusion hd
  rw [skipHead, List.cons_append, bind_of_ok (lookAhead_append hblanks hblank)]
  refine (congrFun (?_ : _ = skipNumeral >>= fun _ => afterValue outer) _).trans
    (bind_of_ok hskip _)
  simp [hne '[' rfl, hne '\x7b' rfl, hne '"' rfl, hne 'n' rfl, hne 't' rfl, hne 'f' rfl, hc]

theorem skips_string {units : List ℕ} (h : WritesUnits text units) :
    Skips ('"' :: (text ++ ['"'])) := by
  refine skips_of_skipHead (List.cons_ne_nil _ _) fun outer blanks rest hblanks _ => ?_
  rw [skipHead, List.cons_append, List.append_assoc, bind_of_ok (lookAhead_append hblanks rfl)]
  change (skipQuoted >>= fun _ => afterValue outer) _ = _
  exact bind_of_ok (h.skipQuoted_append rest) _

theorem skipHead_list (outer : List Bracket) {blanks : List Char} (hblanks : Blank blanks)
    (text : List Char) :
    skipHead outer (blanks ++ '[' :: text) = afterBracket .list outer text := by
  rw [skipHead, bind_of_ok (lookAhead_append hblanks rfl)]
  rfl

theorem skipHead_object (outer : List Bracket) {blanks : List Char} (hblanks : Blank blanks)
    (text : List Char) :
    skipHead outer (blanks ++ '\x7b' :: text) = afterBracket .object outer text := by
  rw [skipHead, bind_of_ok (lookAhead_append hblanks rfl)]
  rfl

/-- An element of a list is skipped if its value is. -/
theorem skippable_item {item : Item} (hloose : item.Loose) (hopens : Opens item.value)
    (hvalue : Skips item.value) : Skippable .list ([], item) where
  lead := fun _ => rfl
  first := fun outer rest => ⟨[], blank_nil, afterBracket_item outer hloose.1 hopens rest⟩
  loose := hloose
  value := hvalue

theorem skips_list {space : List Char} {items : List Item} (hspace : Blank space)
    (hloose : ∀ item ∈ items, item.Loose) (hopens : ∀ item ∈ items, Opens item.value)
    (hvalues : ∀ item ∈ items, Skips item.value) : Skips (listText space items) := by
  let elements := items.map fun item => (([] : List Char), item)
  have htexts : elements.map (fun element => element.1 ++ element.2.text) =
      items.map Item.text := List.map_map
  rw [listText, ← htexts]
  refine skips_elements skipHead_list hspace fun element helement => ?_
  obtain ⟨item, hitem, rfl⟩ := List.mem_map.1 helement
  exact skippable_item (hloose item hitem) (hopens item hitem) (hvalues item hitem)

/-- A member of an object is skipped if its value is. -/
theorem skippable_member {member : Member} (hloose : member.Loose)
    (hkey : ∃ units, WritesUnits member.key units) (hvalue : Skips member.item.value) :
    Skippable .object (member.lead, member.item) := by
  obtain ⟨units, hunits⟩ := hkey
  obtain ⟨hbefore, hmiddle, hitem⟩ := hloose
  have hlead (rest : List Char) : member.lead ++ rest = member.before ++ '"' :: (member.key ++
      '"' :: (member.middle ++ ':' :: rest)) := by
    simp [Member.lead]
  refine ⟨fun rest => ?_, fun outer rest => ?_, hitem, hvalue⟩
  · rw [hlead]
    exact skipKey_append hbefore hunits hmiddle rest
  · refine ⟨member.item.before, hitem.1, ?_⟩
    rw [hlead]
    exact afterBracket_member outer hbefore (skipKey_append blank_nil hunits hmiddle _)

theorem skips_object {space : List Char} {members : List Member} (hspace : Blank space)
    (hloose : ∀ member ∈ members, member.Loose)
    (hkeys : ∀ member ∈ members, ∃ units, WritesUnits member.key units)
    (hvalues : ∀ member ∈ members, Skips member.item.value) :
    Skips (objectText space members) := by
  let elements := members.map fun member => (member.lead, member.item)
  have htexts : elements.map (fun element => element.1 ++ element.2.text) =
      members.map Member.text := List.map_map
  rw [objectText, ← htexts]
  refine skips_elements skipHead_object hspace fun element helement => ?_
  obtain ⟨member, hmember, rfl⟩ := List.mem_map.1 helement
  exact skippable_member (hloose member hmember) (hkeys member hmember) (hvalues member hmember)

/-- Every value is skipped. -/
theorem skips (h : IsValue text) : Skips text := by
  induction h with
  | literal h => exact skips_literal h
  | numeral h => exact skips_numeral h
  | string h => exact skips_string h
  | list hspace hloose hvalues ih =>
    exact skips_list hspace hloose (fun item hitem => (hvalues item hitem).opens) ih
  | object hspace hloose hkeys _ ih => exact skips_object hspace hloose hkeys ih

/-- A value is passed over, with the blanks in front of it. -/
theorem skipValue_append (h : IsValue text) {blanks : List Char} (hblanks : Blank blanks)
    (hrest : Ends rest) : skipValue (blanks ++ (text ++ rest)) = .ok ((), rest) := by
  obtain ⟨bound, -, hskip⟩ := h.skips [] hblanks hrest
    (by simp only [List.length_append]; omega : _ ≤ (blanks ++ (text ++ rest)).length)
  rw [skipValue, hskip]
  rfl

end IsValue

end GateGrid.Json

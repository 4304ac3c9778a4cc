import GateGrid.Proofs.Json.Conveys
import GateGrid.Proofs.Number.Front

/-!
# Pieces of a text that was cut off

Reading goes from left to right, so a text is looked at as a sequence of pieces, each taken by a
reader of its own. Where the text was cut off inside a piece, that reader notices; where it was cut
off behind a piece, the next one does.

Numerals are the exception, as a numeral that was cut off may still be a numeral. It takes all that
is left of the text, and who reads on notices. In between it must not have become too large to be
read; that it has not is shown in `GateGrid.Proofs.Number.Front`.

* `Reader.Needs`: every front of a text but the whole of it ended too early;
* `Reader.Token`: a piece, taken whole or not at all, whatever follows;
* `Reader.Exhausts`: on every front of a text a reader comes to its end;
* `Reader.Token.needs_bind`, `Reader.Exhausts.needs_bind`: one piece after another;
* `Reader.exhausts_number`: the text of a number.
-/

namespace GateGrid.Json

open Reader

variable {α β δ : Type}

namespace Reader

variable {read : Reader α} {next : α → Reader β} {text head tail part blanks : List Char}
  {value : α}

/-! ### Pieces of a text -/

/-- Every front of the text but the whole of it ended too early. -/
def Needs (read : Reader α) (text : List Char) : Prop :=
  ∀ part, part <+: text → part ≠ text → read part = .error .truncated

/-- The reader takes the text whole, whatever follows, and otherwise not at all. -/
structure Token (read : Reader α) (text : List Char) (value : α) : Prop where
  /-- Any other front of the text ended too early. -/
  needs : Needs read text
  /-- What follows the text stays. -/
  take : ∀ rest, read (text ++ rest) = .ok (value, rest)

/-- On every front of the text the reader comes to its end: too early, or with nothing left. -/
def Exhausts (read : Reader α) (text : List Char) : Prop :=
  ∀ part, part <+: text → read part = .error .truncated ∨ ∃ value, read part = .ok (value, [])

theorem needs_nil (read : Reader α) : Needs read [] := by
  intro part hpart hne
  exact absurd (List.prefix_nil.1 hpart) hne

theorem needs_truncated (text : List Char) : Needs (fail .truncated : Reader α) text := by
  intro part _ _
  rfl

/-- What would come after the text makes no difference where it ended too early. -/
theorem Needs.bind (h : Needs read text) (next : α → Reader β) : Needs (read >>= next) text := by
  intro part hpart hne
  exact bind_of_error (h part hpart hne) next

theorem Needs.exhausts (h : Needs read text) (htake : read text = .ok (value, [])) :
    Exhausts read text := by
  intro part hpart
  by_cases hpart' : part = text
  · exact .inr ⟨value, hpart' ▸ htake⟩
  · exact .inl (h part hpart hpart')

theorem Exhausts.map (h : Exhausts read text) (f : α → β) :
    Exhausts (read >>= fun a => pure (f a)) text := by
  intro part hpart
  rcases h part hpart with htruncated | ⟨value, hvalue⟩
  · exact .inl (bind_of_error htruncated _)
  · exact .inr ⟨f value, bind_of_ok hvalue _⟩

/-- A piece that is taken whole or not at all, and what comes after it. -/
theorem Token.needs_bind (h : Token read head value) (hnext : Needs (next value) tail) :
    Needs (read >>= next) (head ++ tail) := by
  intro part hpart hne
  rcases front_append_cases hpart with hhead | ⟨more, hmore, -, rfl⟩
  · by_cases hwhole : part = head
    · -- The text ended between the two.
      have htake := h.take []
      rw [List.append_nil] at htake
      rw [hwhole, bind_of_ok htake]
      refine hnext [] List.nil_prefix fun htail => hne ?_
      rw [hwhole, ← htail, List.append_nil]
    · exact h.needs.bind next part hhead hwhole
  · rw [bind_of_ok (h.take more)]
    exact hnext more hmore fun htail => hne (htail ▸ rfl)

theorem Ends.of_front (h : Ends tail) (hpart : part <+: tail) : Ends part := by
  obtain ⟨more, rfl⟩ := hpart
  intro c hc
  refine h c ?_
  rw [Option.mem_def] at hc ⊢
  rw [List.head?_append, hc]
  rfl

/-- A piece that may be taken when it was cut off, and what comes after it, which is not there
    then. -/
theorem Exhausts.needs_bind (h : Exhausts read head)
    (htake : ∀ rest, Ends rest → read (head ++ rest) = .ok (value, rest)) (hends : Ends tail)
    (hnil : ∀ a, next a [] = .error .truncated) (hnext : Needs (next value) tail) :
    Needs (read >>= next) (head ++ tail) := by
  intro part hpart hne
  rcases front_append_cases hpart with hhead | ⟨more, hmore, -, rfl⟩
  · rcases h part hhead with htruncated | ⟨found, hfound⟩
    · exact bind_of_error htruncated next
    · rw [bind_of_ok hfound, hnil]
  · rw [bind_of_ok (htake more (hends.of_front hmore))]
    exact hnext more hmore fun htail => hne (htail ▸ rfl)

/-! ### Blanks and marks -/

theorem Blank.of_front (h : Blank blanks) (hpart : part <+: blanks) : Blank part := by
  intro c hc
  exact h c (hpart.subset hc)

/-- Among blanks there is nothing to be seen ahead. -/
theorem lookAhead_blank (h : Blank blanks) : lookAhead blanks = .ok (none, []) := by
  have hskip : skipBlanks blanks = .ok ((), []) := by
    rw [skipBlanks, List.dropWhile_eq_nil_iff.2 h]
  rw [lookAhead, bind_of_ok hskip]
  rfl

/-- A reader that looks ahead needs the blanks in front and what it finds behind them. -/
theorem needs_lookAhead {next : Option Char → Reader β} {c : Char} (hblanks : Blank blanks)
    (hc : isBlank c = false) (hnone : next none = fail .truncated)
    (hsome : Needs (fun rest => next (some c) (c :: rest)) tail) :
    Needs (lookAhead >>= next) (blanks ++ c :: tail) := by
  intro part hpart hne
  rcases front_append_cases hpart with hpart | ⟨more, hmore, hnil, rfl⟩
  · rw [bind_of_ok (lookAhead_blank (hblanks.of_front hpart)), hnone]
    rfl
  · obtain ⟨rest, hrest, rfl⟩ := exists_cons_of_front hmore hnil
    rw [bind_of_ok (lookAhead_append hblanks hc)]
    exact hsome rest hrest fun htail => hne (htail ▸ rfl)

/-- A mark with the blanks in front of it. -/
theorem token_mark {c : Char} (hblanks : Blank blanks) (hc : isBlank c = false) :
    Token (mark c) (blanks ++ [c]) () where
  needs := needs_lookAhead hblanks hc rfl (needs_nil _)
  take := fun rest => by
    rw [List.append_assoc]
    exact mark_append hblanks hc

/-- The start of a key: a comma if it is not the first one, blanks, and a quotation mark. -/
theorem token_nextKey (hblanks : Blank blanks) (first : Bool) :
    Token (nextKey first) ((if first then [] else [',']) ++ (blanks ++ ['"'])) true where
  needs := by
    cases first with
    | true => exact needs_lookAhead hblanks rfl rfl (needs_nil _)
    | false =>
      have hmark : Needs (mark '"' >>= fun _ => pure true) (blanks ++ ['"']) :=
        (token_mark hblanks rfl).needs.bind _
      exact needs_lookAhead blank_nil rfl rfl hmark
  take := fun rest => by
    rw [List.append_assoc, List.append_assoc]
    exact nextKey_append hblanks first rest

/-! ### Words -/

/-- A word without its closing quotation mark is scanned to the end of the text. -/
theorem scan_plain {word : List Char} (h : Plain word) :
    scan word = ⟨word.map Char.toNat, .error .truncated⟩ := by
  induction word with
  | nil => simp [scan, Scan.halt]
  | cons c word ih =>
    obtain ⟨⟨hquote, hslash, hlow⟩, hword⟩ := List.forall_mem_cons.1 h
    rw [scan_cons hquote hslash hlow, ih hword]
    rfl

/-- A word without escapes and its closing quotation mark. -/
theorem token_quotedText {word : String} (h : Plain word.toList) :
    Token quotedText (word.toList ++ ['"']) word where
  needs := by
    intro part hpart hne
    rcases List.prefix_concat_iff.1 hpart with heq | hfront
    · exact absurd heq hne
    · have hplain : Plain part := fun c hc => h c (hfront.subset hc)
      rw [quotedText, scan_plain hplain, joinUnits_map_toNat]
      rfl
  take := fun rest => by
    rw [List.append_assoc]
    exact quotedText_append h

/-! ### Numerals -/

variable {spelling front : Spelling} {digits places : List Char}

/-- The text ended where a digit was wanted, or it is read as a front of the numeral. -/
def ReadsFront (spelling : Spelling) (part : List Char) : Prop :=
  numeral part = .error .truncated ∨
    ∃ front found, spelling.Front front ∧ found.value = front.decimal ∧
      numeral part = .ok (found, [])

theorem readsFront_text (h : spelling.Front front) (hwell : front.WellFormed) (negative : Bool) :
    ReadsFront spelling ((if negative then ['-'] else []) ++ front.text) := by
  have hnumeral := numeral_append hwell negative ends_nil
  rw [List.append_nil] at hnumeral
  exact .inr ⟨front, _, h, rfl, hnumeral⟩

/-- Behind the digits before the point reading goes on with a fraction. -/
theorem numeral_of_fraction_error (h : spelling.WellFormed) (negative : Bool) {rest : List Char}
    (hrest : ∀ c ∈ rest.head?, c.isDigit = false) {fault : Fault}
    (hfraction : fraction rest = .error fault) :
    numeral ((if negative then ['-'] else []) ++ (spelling.whole ++ rest)) = .error fault := by
  rw [numeral, bind_of_ok (minus_append negative (h.whole.head?_ne_minus rest)),
    bind_of_ok (wholeDigits_append h.whole h.lead hrest)]
  exact bind_of_error hfraction _

/-- Behind the fraction reading goes on with an exponent. -/
theorem numeral_of_exponent_error (h : spelling.WellFormed) (negative : Bool) {rest : List Char}
    (hrest : ∀ c ∈ rest.head?, c.isDigit = false ∧ c ≠ '.') {fault : Fault}
    (hexponent : exponent rest = .error fault) :
    numeral ((if negative then ['-'] else []) ++
      (spelling.whole ++ (spelling.fractionText ++ rest))) = .error fault := by
  have hwhole := spelling.head?_fractionText_append fun c hc => (hrest c hc).1
  rw [numeral, bind_of_ok (minus_append negative (h.whole.head?_ne_minus _)),
    bind_of_ok (wholeDigits_append h.whole h.lead hwhole), bind_of_ok (fraction_append h hrest)]
  exact bind_of_error hexponent _

/-- Cut off before the point. -/
theorem readsFront_whole (h : spelling.WellFormed) (negative : Bool)
    (hdigits : digits <+: spelling.whole) (hne : digits ≠ []) :
    ReadsFront spelling ((if negative then ['-'] else []) ++ digits) := by
  have hwell : (Spelling.mk digits none none).WellFormed := by
    refine ⟨h.whole.of_front hdigits hne, fun hzero => ?_, nofun, nofun⟩
    -- A zero in front is all there is.
    have hlead : spelling.whole.head? = some '0' := by
      obtain ⟨more, hmore⟩ := hdigits
      rw [← hmore, List.head?_append_of_ne_nil _ hne]
      exact hzero
    exact hdigits.length_le.trans (h.lead hlead)
  have hreads := readsFront_text (.whole hdigits) hwell negative
  simpa only [Spelling.text, Spelling.fractionText, Spelling.exponentText, List.append_nil]
    using hreads

/-- Cut off at the point or behind it. -/
theorem readsFront_fraction (h : spelling.WellFormed) (negative : Bool)
    (hplaces : spelling.fraction = some places) (hdigits : digits <+: places) :
    ReadsFront spelling
      ((if negative then ['-'] else []) ++ (spelling.whole ++ '.' :: digits)) := by
  by_cases hne : digits = []
  · left
    rw [hne]
    exact numeral_of_fraction_error h negative (by rintro _ ⟨⟩; rfl) rfl
  · have hfront : Spelling.Front spelling { whole := spelling.whole, fraction := some digits } :=
      .fraction hplaces hdigits
    have hwell : (Spelling.mk spelling.whole (some digits) none).WellFormed := by
      refine ⟨h.whole, h.lead, ?_, nofun⟩
      rintro _ ⟨⟩
      exact (h.fraction places hplaces).of_front hdigits hne
    have hreads := readsFront_text hfront hwell negative
    simpa only [Spelling.text, Spelling.fractionText, Spelling.exponentText, List.append_nil]
      using hreads

/-- Cut off in the exponent, or at its mark. -/
theorem readsFront_exponent (h : spelling.WellFormed) (negative : Bool) {rest : List Char}
    (hrest : rest <+: spelling.exponentText) (hne : rest ≠ []) :
    ReadsFront spelling ((if negative then ['-'] else []) ++
      (spelling.whole ++ (spelling.fractionText ++ rest))) := by
  cases hexponent : spelling.exponent with
  | none =>
    rw [Spelling.exponentText, hexponent] at hrest
    exact absurd (List.prefix_nil.1 hrest) hne
  | some part =>
    obtain ⟨below, size⟩ := part
    have hmark (rest : List Char) :
        ∀ c ∈ ('e' :: rest).head?, c.isDigit = false ∧ c ≠ '.' := by
      rintro _ ⟨⟩
      exact ⟨rfl, by decide⟩
    rw [Spelling.exponentText, hexponent] at hrest
    obtain ⟨more, hmore, rfl⟩ := exists_cons_of_front hrest hne
    rcases List.prefix_cons_iff.1 hmore with rfl | ⟨digits, rfl, hdigits⟩
    · exact .inl (numeral_of_exponent_error h negative (hmark _) rfl)
    by_cases hnil : digits = []
    · left
      rw [hnil]
      exact numeral_of_exponent_error h negative (hmark _) (by cases below <;> rfl)
    · have hwell : { spelling with exponent := some (below, digits) : Spelling }.WellFormed := by
        refine ⟨h.whole, h.lead, h.fraction, ?_⟩
        rintro _ ⟨⟩
        exact (h.exponent _ hexponent).of_front hdigits hnil
      have hreads := readsFront_text (.exponent hexponent hdigits) hwell negative
      rw [Spelling.text, List.append_assoc] at hreads
      exact hreads

/-- Wherever a numeral is cut off, a front of it is read, or the text ended too early. -/
theorem readsFront_numeral (h : spelling.WellFormed) (negative : Bool)
    (hpart : part <+: (if negative then ['-'] else []) ++ spelling.text) :
    ReadsFront spelling part := by
  rw [Spelling.text, List.append_assoc] at hpart
  rcases front_append_cases hpart with hsign | ⟨more, hmore, hne, rfl⟩
  · -- Nothing, or a sign alone.
    left
    cases negative with
    | false =>
      rw [List.prefix_nil.1 hsign]
      rfl
    | true =>
      rcases List.prefix_cons_iff.1 hsign with rfl | ⟨rest, rfl, hrest⟩
      · rfl
      · rw [List.prefix_nil.1 hrest]
        rfl
  rcases front_append_cases hmore with hwhole | ⟨rest, hrest, hne', rfl⟩
  · exact readsFront_whole h negative hwhole hne
  rcases front_append_cases hrest with hfraction | ⟨rest, hexponent, hne'', rfl⟩
  · cases hplaces : spelling.fraction with
    | none =>
      rw [Spelling.fractionText, hplaces] at hfraction
      exact absurd (List.prefix_nil.1 hfraction) hne'
    | some places =>
      rw [Spelling.fractionText, hplaces] at hfraction
      obtain ⟨digits, hdigits, rfl⟩ := exists_cons_of_front hfraction hne'
      exact readsFront_fraction h negative hplaces hdigits
  · exact readsFront_exponent h negative hexponent hne''

/-- Wherever the text of a finite number is cut off, a number is read, or the text ended too
    early. -/
theorem exhausts_number {a : Binary64} (h : a.isFinite) :
    Exhausts number (numberStyle.text a) := by
  obtain ⟨spelling, hwell, hnormal, htext, hvalue⟩ := numberStyle.exists_spelling rfl
    (a.shortest numberStyle.tie)
  have hfinite : spelling.decimal.magnitude?.isSome := by
    rw [Decimal.magnitude?_eq_of_value_eq hvalue, Binary64.magnitude?_shortest _ h]
    rfl
  intro part hpart
  rw [Style.text, ← htext] at hpart
  rcases readsFront_numeral hwell a.negative hpart with
    htruncated | ⟨front, found, hfront, hdecimal, hfound⟩
  · exact .inl (bind_of_error htruncated _)
  · obtain ⟨value, hread⟩ := Binary64.exists_ofDecimal?_of_isSome
      (hfront.isSome_magnitude? hwell hnormal hfinite) found.negative
    rw [← hdecimal] at hread
    right
    refine ⟨(found, value), ?_⟩
    rw [number, bind_of_ok hfound, hread]
    rfl

end Reader

end GateGrid.Json

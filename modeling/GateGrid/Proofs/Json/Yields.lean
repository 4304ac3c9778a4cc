import GateGrid.Json.Record
import GateGrid.Proofs.Number.Nearest

/-!
# What readers can give

A reader *yields* values of a property if every value that it gives has the property, whatever the
text was. The rules follow the way readers are put together, so that nothing has to be known about
texts: only numbers matter, and a number that is read is finite.

* `Reader.Yields`: every value that a reader gives has a property;
* `Reader.yields_binary64`: numbers that are read are finite;
* `Reader.yields_listOf`, `Reader.yields_choice`, `Reader.yields_record`: the property of a whole
  from that of its parts.
-/

namespace GateGrid.Json

/-- What is made of the content of a name has the property; a number in it may be any finite one. -/
def Content.Makes {α : Type} (P : α → Prop) : Content α → Prop
  | .plain value => P value
  | .angled make => ∀ angle : Binary64, angle.isFinite → P (make angle)

namespace Reader

variable {α β δ : Type} {P : α → Prop} {Q : β → Prop}

/-- Every value that the reader gives has the property. -/
def Yields (read : Reader α) (P : α → Prop) : Prop :=
  ∀ text value rest, read text = .ok (value, rest) → P value

namespace Yields

theorem of_true (read : Reader α) : Yields read fun _ => True := fun _ _ _ _ => trivial

theorem pure {value : α} (h : P value) : Yields (pure value) P := by
  rintro text _ _ ⟨⟩
  exact h

theorem fail (fault : Fault) : Yields (fail fault : Reader α) P := nofun

/-- One reader after another. -/
theorem bind {read : Reader α} {next : α → Reader β} (h : Yields read P)
    (hnext : ∀ value, P value → Yields (next value) Q) : Yields (read >>= next) Q := by
  intro text result rest hbind
  rw [bind_apply] at hbind
  cases hread : read text with
  | error fault => simp [hread] at hbind
  | ok found =>
    obtain ⟨value, middle⟩ := found
    rw [hread] at hbind
    exact hnext value (h _ _ _ hread) _ _ _ hbind

/-- One reader after another, where it does not matter what the first one gives. -/
theorem andThen {read : Reader α} {next : α → Reader β} (hnext : ∀ value, Yields (next value) Q) :
    Yields (read >>= next) Q :=
  bind (of_true read) fun value _ => hnext value

/-- What a whole text is read as. -/
theorem of_readAll {read : Reader α} (h : Yields read P) {text : String} {value : α}
    (hread : read.readAll text = .ok value) : P value := by
  rw [readAll] at hread
  split at hread
  · contradiction
  · next found rest htext =>
    split at hread
    · exact Except.ok.inj hread ▸ h _ _ _ htext
    · contradiction

end Yields

/-- At a value of the wrong kind there is no result. -/
theorem yields_wrongShape : Yields (wrongShape : Reader α) P := by
  refine .andThen fun next => ?_
  split
  · exact .fail _
  · exact .fail _
  · exact .fail _
  · exact .andThen fun _ => .andThen fun _ => .fail _
  · exact .andThen fun _ => .andThen fun _ => .fail _
  · exact .andThen fun _ => .andThen fun _ => .fail _
  · exact .andThen fun _ => .andThen fun _ => .fail _
  · split
    · exact .andThen fun _ => .fail _
    · exact .fail _

/-! ### Numbers -/

theorem yields_number : Yields number fun found => found.2.isFinite := by
  refine .andThen fun found => ?_
  split
  · next value hvalue => exact .pure (Binary64.isFinite_of_ofDecimal? hvalue)
  · exact .fail _

/-- Numbers that are read are finite. -/
theorem yields_binary64 : Yields binary64 fun a => a.isFinite := by
  refine .bind (P := fun found => found.2.isFinite) (.andThen fun next => ?_)
    fun _ hfound => .pure hfound
  split
  · exact .fail _
  · split
    · exact yields_number
    · exact yields_wrongShape

/-! ### Lists -/

theorem yields_items {read : Reader α} (h : Yields read P) (bound : List Char) (first : Bool) :
    Yields (items read bound first) fun values => ∀ value ∈ values, P value := by
  induction bound generalizing first with
  | nil => exact .fail _
  | cons c bound ih =>
    refine .andThen fun more => ?_
    split
    · exact .bind h fun value hvalue => .bind (ih false) fun values hvalues =>
        .pure (List.forall_mem_cons.2 ⟨hvalue, hvalues⟩)
    · exact .pure nofun

/-- The elements of a list have the property that its reader gives them. -/
theorem yields_listOf {read : Reader α} (h : Yields read P) :
    Yields (listOf read) fun values => ∀ value ∈ values, P value := by
  refine .andThen fun next => ?_
  split
  · exact .fail _
  · exact .andThen fun _ text => yields_items h text true text
  · exact yields_wrongShape

/-! ### Choices -/

/-- The values of a choice have the property if what is made of the contents of its names has
    it. -/
theorem yields_choice {content? : String → Option (Content α)}
    (h : ∀ name, ∀ content ∈ content? name, Content.Makes P content) :
    Yields (choice content?) P := by
  refine .andThen fun next => ?_
  split
  · exact .fail _
  · refine .andThen fun _ => .andThen fun name => ?_
    split
    · next value hvalue => exact .pure (h name _ hvalue)
    · exact .fail _
  · refine .andThen fun _ => .andThen fun _ => .andThen fun name => ?_
    split
    · exact .fail _
    · next value hvalue =>
      exact .andThen fun _ => .andThen fun _ => .andThen fun _ => .pure (h name _ hvalue)
    · next make hmake =>
      exact .andThen fun _ => .bind yields_binary64 fun angle hangle => .andThen fun _ =>
        .pure (h name _ hmake angle hangle)
  · exact .fail _

/-! ### Records -/

variable {fields : List (Field δ)} {I : δ → Prop}

theorem yields_members (h : ∀ field ∈ fields, ∀ draft, I draft → Yields (field.read draft) I)
    (bound : List Char) (first : Bool) {draft : δ} (hdraft : I draft) :
    Yields (members fields bound first draft) I := by
  induction bound generalizing first draft with
  | nil => exact .fail _
  | cons c bound ih =>
    refine .andThen fun more => ?_
    split
    · refine .andThen fun key => ?_
      split
      · next field hfield =>
        split
        · exact .fail _
        · exact .andThen fun _ => .bind (h field (List.mem_of_find?_eq_some hfield) draft hdraft)
            fun next hnext => ih false hnext
      · exact .andThen fun _ => .andThen fun _ => ih false hdraft
    · exact .pure hdraft

theorem yields_elements (h : ∀ field ∈ fields, ∀ draft, I draft → Yields (field.read draft) I)
    (first : Bool) {draft : δ} (hdraft : I draft) : Yields (elements fields first draft) I := by
  induction fields generalizing first draft with
  | nil => exact .andThen fun _ => .pure hdraft
  | cons field fields ih =>
    obtain ⟨hfield, hfields⟩ := List.forall_mem_cons.1 h
    refine .andThen fun more => ?_
    split
    · exact .bind (hfield draft hdraft) fun next hnext => ih hfields false hnext
    · exact .pure hdraft

/-- The values of a record have a property if its drafts have one, each field keeps that, and it
    gives the property at the end. -/
theorem yields_record {start : δ} {finish : δ → Option α} (hstart : I start)
    (h : ∀ field ∈ fields, ∀ draft, I draft → Yields (field.read draft) I)
    (hfinish : ∀ draft, I draft → ∀ value ∈ finish draft, P value) :
    Yields (record fields start finish) P := by
  refine .bind (P := I) (.andThen fun next => ?_) fun draft hdraft => ?_
  · split
    · exact .fail _
    · exact .andThen fun _ text => yields_members h text true hstart text
    · exact .andThen fun _ => yields_elements h true hstart
    · exact yields_wrongShape
  · split
    · next value hvalue => exact .pure (hfinish draft hdraft value hvalue)
    · exact .fail _

end Reader

end GateGrid.Json

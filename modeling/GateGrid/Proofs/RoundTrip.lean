import GateGrid.Policy
import GateGrid.Proofs.Node.Codec

/-!
# Everything that is handed over comes back

Nine types of values are handed over as compact JSON text: wires and columns, the kinds of nodes
and nodes, the kinds and groups of operations and operations, policies and settings. One law holds
for all of them (`Json.RoundTrips`). A value comes back as it was if and only if every number in it
is finite; otherwise the one who reads it is told of a mismatch. And a value that was read comes
back when it is written again, however the text was laid out from which it was read: as all numbers
that are read are finite, nothing stands in its way.

* `Json.RoundTrips`: the law, for a way of writing and one of reading;
* `Json.RoundTrips.of_conveys`: the law follows from what documents convey and what readers yield;
* `roundTrips_all`: the law holds for the nine types.
-/

namespace GateGrid

open Json (Conveys Layout Plain Reader)
open Json.Reader (Fills Yields)

/-- Values of a type are written as documents and read back, where `numbers` are the floating-point
    numbers in a value. -/
structure Json.RoundTrips {α : Type} (json : α → Json) (read : Reader α)
    (numbers : α → List Binary64) : Prop where
  /-- A value comes back if and only if all numbers in it are finite. -/
  exists_ok_iff : ∀ value, (∃ back, read.readAll (json value).compact = .ok back) ↔
    ∀ a ∈ numbers value, a.isFinite
  /-- What comes back is the value. -/
  eq_of_ok : ∀ value back, read.readAll (json value).compact = .ok back → back = value
  /-- What keeps a value from coming back is a mismatch. -/
  eq_of_error : ∀ value fault, read.readAll (json value).compact = .error fault →
    fault = .mismatch
  /-- A value that was read, whatever the text, comes back. -/
  again : ∀ text value, read.readAll text = .ok value →
    read.readAll (json value).compact = .ok value

/-- If documents convey the values whose numbers are finite, and only such values are read, then
    values come back. -/
theorem Json.RoundTrips.of_conveys {α : Type} {json : α → Json} {read : Reader α}
    {numbers : α → List Binary64}
    (hconveys : ∀ value,
      Conveys .compact read (json value) value ((numbers value).all Binary64.isFinite))
    (hyields : Yields read fun value => (numbers value).all Binary64.isFinite) :
    RoundTrips json read numbers := by
  have hread (value : α) : read.readAll (json value).compact =
      if (numbers value).all Binary64.isFinite then .ok value else .error .mismatch :=
    (hconveys value).readAll
  refine ⟨fun value => ?_, fun value back hback => ?_, fun value fault hfault => ?_,
    fun text value htext => ?_⟩
  · rw [hread, ← List.all_eq_true]
    split <;> simp [*]
  · rw [hread] at hback
    split at hback
    · exact (Except.ok.inj hback).symm
    · exact absurd hback nofun
  · rw [hread] at hfault
    split at hfault
    · exact absurd hfault nofun
    · exact (Except.error.inj hfault).symm
  · rw [hread, if_pos (hyields.of_readAll htext)]

/-- Values without numbers come back if they arrive. -/
theorem Json.RoundTrips.of_conveys_intact {α : Type} {json : α → Json} {read : Reader α}
    (hconveys : ∀ value, Conveys .compact read (json value) value true) :
    RoundTrips json read fun _ => [] :=
  .of_conveys hconveys fun _ _ _ _ => rfl

/-! ### The types -/

/-- A column arrives. -/
theorem Column.conveys (layout : Layout) (column : Column) :
    Conveys layout Column.read column.json column true :=
  (Json.Reader.conveys_natural32 layout column.index).map Column.mk

theorem Operation.Group.plain_name (group : Group) : Plain group.name.toList := by
  cases group <;> decide

/-- A group arrives. -/
theorem Operation.Group.conveys (layout : Layout) (group : Group) :
    Conveys layout Group.read group.json group true :=
  Json.Reader.conveys_word group.plain_name (by cases group <;> rfl)

theorem Policy.plain_name (policy : Policy) : Plain policy.name.toList := by
  cases policy <;> decide

/-- A policy arrives. -/
theorem Policy.conveys (layout : Layout) (policy : Policy) :
    Conveys layout Policy.read policy.json policy true :=
  Json.Reader.conveys_word policy.plain_name (by cases policy <;> rfl)

/-- Settings arrive. -/
theorem Settings.conveys {layout : Layout} (hlayout : layout.Loose) (settings : Settings) :
    Conveys layout Settings.read settings.json settings true := by
  have hpolicy := (settings.policy.conveys layout).map some
  have hfills : Fills layout fields none [("policy", settings.policy.json)]
      (some settings.policy) (true && true) :=
    .cons (by decide) rfl rfl hpolicy (.nil _)
  exact Json.Reader.conveys_record hlayout hfills rfl

/-- The angle of a kind as a list of numbers. -/
theorem Operation.Kind.all_toList_angle? (kind : Kind) :
    kind.angle?.toList.all Binary64.isFinite = kind.isFinite := by
  rw [isFinite]
  cases kind.angle? <;> simp

/-- Wires, columns, kinds of nodes, nodes (whether they fit anywhere or not), kinds of operations,
    groups, operations, policies and settings: a value comes back from its compact text exactly if
    the numbers in it are finite, and what was read from any text comes back. -/
theorem roundTrips_all :
    Json.RoundTrips Wire.json Wire.read (fun _ => []) ∧
    Json.RoundTrips Column.json Column.read (fun _ => []) ∧
    Json.RoundTrips Node.Kind.json Node.Kind.read (fun _ => []) ∧
    Json.RoundTrips Node.json Node.read (fun node => [node.angle]) ∧
    Json.RoundTrips Operation.Kind.json Operation.Kind.read (fun kind => kind.angle?.toList) ∧
    Json.RoundTrips Operation.Group.json Operation.Group.read (fun _ => []) ∧
    Json.RoundTrips Operation.json Operation.read (fun operation =>
      operation.kind.angle?.toList) ∧
    Json.RoundTrips Policy.json Policy.read (fun _ => []) ∧
    Json.RoundTrips Settings.json Settings.read (fun _ => []) := by
  have hloose := Layout.loose_compact
  refine ⟨.of_conveys_intact fun wire => wire.conveys _,
    .of_conveys_intact fun column => column.conveys _,
    .of_conveys_intact fun kind => kind.conveys _, .of_conveys (fun node => ?_) ?_,
    .of_conveys (fun kind => ?_) ?_, .of_conveys_intact fun group => group.conveys _,
    .of_conveys (fun operation => ?_) ?_, .of_conveys_intact fun policy => policy.conveys _,
    .of_conveys_intact fun settings => settings.conveys hloose⟩
  · simpa using node.conveys hloose
  · simpa using Node.yields_read
  · simpa only [Operation.Kind.all_toList_angle?] using kind.conveys hloose
  · simpa only [Operation.Kind.all_toList_angle?] using Operation.Kind.yields_read
  · simpa only [Operation.Kind.all_toList_angle?] using operation.conveys hloose
  · simpa only [Operation.Kind.all_toList_angle?] using Operation.yields_read

end GateGrid

import GateGrid.Operation.Codec
import GateGrid.Proofs.Json.Conveys
import GateGrid.Proofs.Json.Yields

/-!
# Operations handed over as JSON text

An operation whose angle is finite arrives as it was, and so does one without an angle, with
whatever wires it has. Where the angle is not finite, the reader stops with a mismatch. Whatever
text an operation was read from, its angle is finite.

* `Operation.conveys`: an operation arrives if its angle is finite;
* `Operation.yields_read`: an operation that was read has a finite angle, if any.
-/

namespace GateGrid

open Json (Conveys Layout Plain)
open Json.Reader (Fills Yields)

variable {layout : Layout}

/-- A wire arrives. -/
theorem Wire.conveys (layout : Layout) (wire : Wire) :
    Conveys layout Wire.read wire.json wire true :=
  (Json.Reader.conveys_natural32 layout wire.index).map Wire.mk

namespace Operation

namespace Kind

/-- The angle is finite, if there is one. -/
def isFinite (kind : Kind) : Bool := kind.angle?.all Binary64.isFinite

theorem plain_jsonName (kind : Kind) : Plain kind.jsonName.toList := by
  cases kind <;> simp only [jsonName] <;> decide

/-- A kind arrives if its angle does. -/
theorem conveys (hlayout : layout.Loose) (kind : Kind) :
    Conveys layout Kind.read kind.json kind kind.isFinite := by
  have hname := kind.plain_jsonName
  cases kind with
  | rx angle => exact Json.Reader.conveys_angled hlayout hname rfl angle
  | ry angle => exact Json.Reader.conveys_angled hlayout hname rfl angle
  | rz angle => exact Json.Reader.conveys_angled hlayout hname rfl angle
  | crz angle => exact Json.Reader.conveys_angled hlayout hname rfl angle
  | _ => exact Json.Reader.conveys_word hname rfl

/-- The angle of a kind that was read is finite. -/
theorem yields_read : Yields Kind.read fun kind => kind.isFinite := by
  refine Json.Reader.yields_choice fun name content hcontent => ?_
  rw [content?, Option.mem_def] at hcontent
  split at hcontent
  · next kind hkind =>
    obtain rfl := Option.some_inj.1 hcontent
    have hplain : ∀ kind ∈ plainKinds, kind.isFinite := by decide
    exact hplain kind (List.mem_of_find?_eq_some hkind)
  · obtain ⟨make, hmake, rfl⟩ := Option.map_eq_some_iff.1 hcontent
    have hangled : ∀ make ∈ angledKinds, ∀ angle : Binary64, angle.isFinite →
        (make angle).isFinite := by
      simp [angledKinds, isFinite, angle?]
    exact hangled make (List.mem_of_find?_eq_some hmake)

end Kind

/-- What is written of an operation fills in a draft of it. -/
theorem fills (hlayout : layout.Loose) (operation : Operation) :
    Fills layout fields {}
      [("kind", operation.kind.json), ("wires", .list (operation.wires.map Wire.json))]
      ⟨some operation.kind, some operation.wires⟩ operation.kind.isFinite := by
  have hkind := (operation.kind.conveys hlayout).map fun kind => ({ kind := some kind } : Draft)
  have hwires := (Json.Reader.conveys_listOf hlayout fun wire (_ : wire ∈ operation.wires) =>
    wire.conveys layout).map fun wires => Draft.mk (some operation.kind) (some wires)
  have hwhole : operation.kind.isFinite =
      (operation.kind.isFinite && (operation.wires.all (fun _ => true) && true)) := by simp
  rw [hwhole]
  exact .cons (by decide) rfl rfl hkind (.cons (by decide) rfl rfl hwires (.nil _))

/-- An operation arrives if its kind does. -/
theorem conveys (hlayout : layout.Loose) (operation : Operation) :
    Conveys layout Operation.read operation.json operation operation.kind.isFinite :=
  Json.Reader.conveys_record hlayout (operation.fills hlayout) rfl

/-- The angle of a draft, if any, is finite. -/
def Draft.isFinite (draft : Draft) : Bool := draft.kind.all Kind.isFinite

/-- The angle of an operation that was read is finite. -/
theorem yields_read : Yields Operation.read fun operation => operation.kind.isFinite := by
  have hfields : ∀ field ∈ fields, ∀ draft : Draft, draft.isFinite →
      Yields (field.read draft) fun draft => draft.isFinite := by
    simp only [fields, List.forall_mem_cons]
    refine ⟨fun draft _ => ?_, fun draft hdraft => ?_, nofun⟩
    · exact Kind.yields_read.bind fun kind hkind => .pure hkind
    · exact .andThen fun wires => .pure hdraft
  refine Json.Reader.yields_record (I := fun draft => draft.isFinite) rfl hfields ?_
  rintro ⟨_ | kind, _ | wires⟩ hdraft operation ⟨⟩
  exact hdraft

end Operation

end GateGrid

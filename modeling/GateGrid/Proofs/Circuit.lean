import GateGrid.Circuit
import GateGrid.Proofs.Operation.Codec

/-!
# Circuits handed over as JSON text

A circuit whose angles are all finite arrives as it was: the number of its wires, its operations in
their order, their wires, however many, and their angles bit for bit. A single angle that is not
finite keeps all of it from arriving, and the one who reads it is told of a mismatch. Since angles
that were read are finite, a circuit that arrived once can be handed on as often as one likes.

* `Circuit.ofJson_toJson_eq`: what becomes of a circuit that is handed over;
* `Circuit.ofJson_toJson`: the same for all circuits and all texts.
-/

namespace GateGrid.Circuit

open Json (Conveys Layout)
open Json.Reader (Fills Yields)

variable {layout : Layout}

/-- All angles of the circuit are finite. -/
def isFinite (circuit : Circuit) : Bool :=
  circuit.operations.all fun operation => operation.kind.isFinite

theorem isFinite_iff (circuit : Circuit) :
    circuit.isFinite ↔ ∀ operation ∈ circuit.operations, ∀ angle ∈ operation.kind.angle?,
      angle.isFinite := by
  simp only [isFinite, List.all_eq_true, Operation.Kind.isFinite, Option.all_eq_true,
    Option.mem_def]

/-- What is written of a circuit fills in a draft of it. -/
theorem fills (hlayout : layout.Loose) (circuit : Circuit) :
    Fills layout fields {}
      [("num_wires", .ofNat circuit.wires.toNat),
        ("operations", .list (circuit.operations.map Operation.json))]
      ⟨some circuit.wires, some circuit.operations⟩ circuit.isFinite := by
  have hwires := (Json.Reader.conveys_natural32 layout circuit.wires).map fun wires =>
    ({ wires := some wires } : Draft)
  have hoperations := (Json.Reader.conveys_listOf hlayout
    fun operation (_ : operation ∈ circuit.operations) => operation.conveys hlayout).map
      fun operations => Draft.mk (some circuit.wires) (some operations)
  have hwhole : circuit.isFinite = (true && (circuit.isFinite && true)) := by simp
  rw [hwhole]
  exact .cons (by decide) rfl rfl hwires (.cons (by decide) rfl rfl hoperations (.nil _))

/-- A circuit arrives if all of its operations do. -/
theorem conveys (hlayout : layout.Loose) (circuit : Circuit) :
    Conveys layout Circuit.read circuit.json circuit circuit.isFinite :=
  Json.Reader.conveys_record hlayout (circuit.fills hlayout) rfl

/-- What becomes of a circuit that is handed over. -/
theorem ofJson_toJson_eq (circuit : Circuit) :
    ofJson circuit.toJson = if circuit.isFinite then .ok circuit else .error .mismatch :=
  (circuit.conveys Layout.loose_indented).readAll

/-- All angles of a draft are finite. -/
def Draft.isFinite (draft : Draft) : Bool :=
  draft.operations.all fun operations => operations.all fun operation => operation.kind.isFinite

/-- The angles of a circuit that was read are finite. -/
theorem yields_read : Yields Circuit.read fun circuit => circuit.isFinite := by
  have hfields : ∀ field ∈ fields, ∀ draft : Draft, draft.isFinite →
      Yields (field.read draft) fun draft => draft.isFinite := by
    simp only [fields, List.forall_mem_cons]
    refine ⟨fun draft hdraft => ?_, fun draft _ => ?_, nofun⟩
    · exact .andThen fun wires => .pure hdraft
    · exact (Json.Reader.yields_listOf Operation.yields_read).bind fun operations hoperations =>
        .pure (List.all_eq_true.2 hoperations)
  refine Json.Reader.yields_record (I := fun draft => draft.isFinite) rfl hfields ?_
  rintro ⟨_ | wires, _ | operations⟩ hdraft circuit ⟨⟩
  exact hdraft

/-- A circuit that is handed over arrives if and only if all of its angles are finite. What arrives
    is the circuit, and what keeps it from arriving is a mismatch. And whatever text a circuit was
    read from, it arrives when it is handed on. -/
theorem ofJson_toJson (circuit : Circuit) :
    ((∃ back, ofJson circuit.toJson = .ok back) ↔
      ∀ operation ∈ circuit.operations, ∀ angle ∈ operation.kind.angle?, angle.isFinite) ∧
    (∀ back, ofJson circuit.toJson = .ok back → back = circuit) ∧
    (∀ fault, ofJson circuit.toJson = .error fault → fault = .mismatch) ∧
    ∀ text, ofJson text = .ok circuit → ofJson circuit.toJson = .ok circuit := by
  rw [ofJson_toJson_eq, ← isFinite_iff]
  refine ⟨?_, ?_, ?_, fun text htext => if_pos (yields_read.of_readAll htext)⟩ <;>
    cases circuit.isFinite <;> simp

end GateGrid.Circuit

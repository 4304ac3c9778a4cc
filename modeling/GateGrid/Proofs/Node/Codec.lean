import GateGrid.Node.Codec
import GateGrid.Proofs.Operation.Codec

/-!
# Nodes handed over as JSON text

A node arrives with its kind, its angle to the last bit, and its lanes, whether it fits anywhere or
not. Lanes that are not set are not written, and where none is written none is set when the node is
read. Only an angle that is not finite keeps a node from arriving.

* `Node.conveys`: a node arrives if its angle is finite;
* `Node.yields_read`: the angle of a node that was read is finite.
-/

namespace GateGrid.Node

open Json (Conveys Layout Plain)
open Json.Reader (Fills Yields)

variable {layout : Layout}

theorem Kind.plain_jsonName (kind : Kind) : Plain kind.jsonName.toList := by
  cases kind <;> decide

/-- A kind arrives. -/
theorem Kind.conveys (layout : Layout) (kind : Kind) :
    Conveys layout Kind.read kind.json kind true :=
  Json.Reader.conveys_word kind.plain_jsonName (by cases kind <;> rfl)

/-- A lane that is set arrives. -/
theorem conveys_lane (layout : Layout) (lane : Wire) :
    Conveys layout (Json.Reader.optional Wire.read) lane.json (some lane) true := by
  refine Json.Reader.conveys_optional (lane.conveys layout) fun depth hhead => ?_
  have hdigits := digits_toDigits lane.index.toNat
  rw [Wire.json, Json.ofNat, Json.write] at hhead
  exact absurd (hdigits.2 'n' (List.mem_of_head? hhead)) (by decide)

/-- What is written of a node fills in a draft of it, with the lanes that are set. -/
theorem fills (layout : Layout) (node : Node) :
    Fills layout fields {}
      ([("kind", node.kind.json), ("angle", .ofBinary64 node.angle)] ++
        node.controlA.toList.map (fun wire => ("control_a", wire.json)) ++
        node.controlB.toList.map (fun wire => ("control_b", wire.json)) ++
        node.swapPartner.toList.map (fun wire => ("swap_partner", wire.json)))
      ⟨some node.kind, some node.angle, node.controlA.map some, node.controlB.map some,
        node.swapPartner.map some⟩ node.angle.isFinite := by
  -- A draft with the kind and the angle, and with lanes as far as they have been reached.
  let draft (a b partner : Option Wire) : Draft :=
    ⟨some node.kind, some node.angle, a.map some, b.map some, partner.map some⟩
  have hkind := (node.kind.conveys layout).map fun kind => ({ kind := some kind } : Draft)
  have hangle := (Json.Reader.conveys_binary64 layout node.angle).map fun angle =>
    ({ kind := some node.kind, angle := some angle } : Draft)
  have hcontrolA (wire : Wire) := (conveys_lane layout wire).map fun lane =>
    ({ draft none none none with controlA := some lane } : Draft)
  have hcontrolB (wire : Wire) := (conveys_lane layout wire).map fun lane =>
    ({ draft node.controlA none none with controlB := some lane } : Draft)
  have hpartner (wire : Wire) := (conveys_lane layout wire).map fun lane =>
    ({ draft node.controlA node.controlB none with swapPartner := some lane } : Draft)
  have hlanes : Fills layout fields (draft none none none)
      (node.controlA.toList.map (fun wire => ("control_a", wire.json)) ++
        (node.controlB.toList.map (fun wire => ("control_b", wire.json)) ++
        (node.swapPartner.toList.map (fun wire => ("swap_partner", wire.json)) ++ [])))
      (draft node.controlA node.controlB node.swapPartner) true := by
    refine .cons_option (draft · none none) node.controlA (by decide) rfl rfl rfl hcontrolA ?_
    refine .cons_option (draft node.controlA · none) node.controlB (by decide) rfl rfl rfl
      hcontrolB ?_
    exact .cons_option (draft node.controlA node.controlB ·) node.swapPartner (by decide) rfl rfl
      rfl hpartner (.nil _)
  have hwhole : node.angle.isFinite = (true && (node.angle.isFinite && true)) := by simp
  rw [hwhole, List.append_assoc, List.append_assoc,
    ← List.append_nil (node.swapPartner.toList.map _)]
  exact .cons (by decide) rfl rfl hkind (.cons (by decide) rfl rfl hangle hlanes)

/-- A node arrives if its angle does. -/
theorem conveys (hlayout : layout.Loose) (node : Node) :
    Conveys layout Node.read node.json node node.angle.isFinite := by
  refine Json.Reader.conveys_record hlayout (node.fills layout) ?_
  have hlane (lane : Option Wire) : (lane.map some).getD none = lane := by
    cases lane <;> rfl
  simp only [Draft.finish, Option.map_some, hlane, Option.getD_some]

/-- The angle of a draft, if any, is finite. -/
def Draft.isFinite (draft : Draft) : Bool := draft.angle.all Binary64.isFinite

/-- The angle of a node that was read is finite; a missing one is zero. -/
theorem yields_read : Yields Node.read fun node => node.angle.isFinite := by
  have hfields : ∀ field ∈ fields, ∀ draft : Draft, draft.isFinite →
      Yields (field.read draft) fun draft => draft.isFinite := by
    simp only [fields, List.forall_mem_cons]
    refine ⟨fun draft hdraft => ?_, fun draft _ => ?_, fun draft hdraft => ?_,
      fun draft hdraft => ?_, fun draft hdraft => ?_, nofun⟩
    · exact .andThen fun kind => .pure hdraft
    · exact Json.Reader.yields_binary64.bind fun angle hangle => .pure hangle
    · exact .andThen fun lane => .pure hdraft
    · exact .andThen fun lane => .pure hdraft
    · exact .andThen fun lane => .pure hdraft
  refine Json.Reader.yields_record (I := fun draft => draft.isFinite) rfl hfields ?_
  rintro ⟨_ | kind, angle, _, _, _⟩ hdraft node ⟨⟩
  cases angle with
  | none => rfl
  | some angle => exact hdraft

end GateGrid.Node

import GateGrid.Proofs.Equal
import GateGrid.Proofs.Report

/-!
# Where operations come from

Every operation that can be carried out comes from a node, and from one node only. Its kind tells
the kind of the node, and whether its wires begin with one or two controls or with none. Behind the
controls stands the wire of the node, and behind that, for an exchange, the partner. So the node and
its wire can be read off the operation.

Read off an operation that can be carried out, the node fits and resolves to this operation with no
field left over. And whenever a node resolves with no field left over, it is the one that is read
off the operation, but for the sign of a zero angle. Only the wire of a barrier cannot be told.

* `Operation.origin?`: the node that is read off an operation, and its wire;
* `Operation.WellFormed.exists_resolve`: this node resolves to the operation;
* `Node.origin?_of_resolve`: any node that resolves with no field left over is this one;
* `Node.resolve_inverse`: every operation that can be carried out comes from one node.
-/

namespace GateGrid

namespace Operation

/-- The kind of node that an operation comes from. -/
def Kind.source : Kind → Node.Kind
  | .id => .identity
  | .x | .rx _ | .cx | .ccx => .x
  | .y | .ry _ | .cy => .y
  | .z | .rz _ | .cz | .crz _ => .z
  | .h | .ch => .h
  | .s => .s
  | .sdg => .sdg
  | .t => .t
  | .tdg => .tdg
  | .swap | .cswap => .swap
  | .barrier => .barrier

/-- The node that an operation comes from, still without lanes. -/
def Kind.bare (kind : Kind) : Node where
  kind := kind.source
  angle := kind.angle?.getD .zero

/-- The wire and the node that an operation comes from, if it has as many wires as it takes. That of
    a barrier may lie on any wire; it is taken to lie on the first. -/
def origin? (operation : Operation) : Option (Wire × Node) :=
  match operation.kind.group, operation.wires with
  | .identity, [wire] | .singleQubit, [wire] | .rotation, [wire] => some (wire, operation.kind.bare)
  | .controlled, [a, wire] | .controlledRotation, [a, wire] =>
    some (wire, { operation.kind.bare with controlA := some a })
  | .doublyControlled, [a, b, wire] =>
    some (wire, { operation.kind.bare with controlA := some a, controlB := some b })
  | .swap, [wire, partner] => some (wire, { operation.kind.bare with swapPartner := some partner })
  | .controlledSwap, [a, wire, partner] =>
    some (wire, { operation.kind.bare with controlA := some a, swapPartner := some partner })
  | .barrier, _ => some (⟨0⟩, operation.kind.bare)
  | _, _ => none

variable {operation : Operation} {wire : Wire} {node : Node} {wires : UInt32}

/-! ### From operations to nodes -/

/-- The wires of an operation are the controls, the wire and the partner of its origin; the origin
    of a barrier has no lanes. -/
theorem wires_of_origin? (h : operation.origin? = some (wire, node)) :
    operation.wires = node.operands wire [] ∨ wire = ⟨0⟩ ∧ node.lanes = [] := by
  revert h
  fun_cases origin? operation <;> rintro ⟨⟩
  case case9 => exact .inr ⟨rfl, rfl⟩
  all_goals exact .inl ‹_›

theorem control_of_origin? (h : operation.origin? = some (wire, node)) :
    node.controlB.isSome → node.controlA.isSome := by
  revert h
  fun_cases origin? operation <;> rintro ⟨⟩ <;> simp [Kind.bare]

/-- The wires of a barrier are all wires, from the top. -/
theorem WellFormed.wires_eq_range (h : operation.WellFormed wires)
    (hkind : operation.kind = .barrier) : operation.wires = Wire.range wires := by
  have hinjective : Function.Injective fun wire : Wire => wire.index.toNat :=
    fun _ _ heq => congrArg Wire.mk (UInt32.toNat_inj.1 heq)
  have hnumbers := h.barrier hkind
  rw [← Wire.map_toNat_range] at hnumbers
  exact List.map_injective_iff.2 hinjective hnumbers

/-- An operation that can be carried out has an origin, and is chosen for it with no field left
    over. -/
theorem WellFormed.exists_origin? (h : operation.WellFormed wires) :
    ∃ wire node controls, operation.origin? = some (wire, node) ∧
      node.choose wire wires = .ok (operation, controls) ∧
      (node.kind.leavesOut ++ controls).filter node.holds = [] := by
  have hrange := h.wires_eq_range
  obtain ⟨kind, operands⟩ := operation
  cases kind with
  | id | x | y | z | h | s | sdg | t | tdg =>
    obtain ⟨wire, rfl⟩ := List.length_eq_one_iff.1 (h.arity 1 rfl)
    exact ⟨_, _, _, rfl, rfl, rfl⟩
  | cx | cy | cz | ch | swap =>
    obtain ⟨a, b, rfl⟩ := List.length_eq_two.1 (h.arity 2 rfl)
    exact ⟨_, _, _, rfl, rfl, rfl⟩
  | ccx | cswap =>
    obtain ⟨a, b, c, rfl⟩ := List.length_eq_three.1 (h.arity 3 rfl)
    exact ⟨_, _, _, rfl, rfl, rfl⟩
  | barrier =>
    obtain rfl : operands = Wire.range wires := hrange rfl
    exact ⟨_, _, _, rfl, rfl, rfl⟩
  -- The angle of a rotation is not zero, so that the node is turned by it.
  | rx angle | ry angle =>
    obtain ⟨wire, rfl⟩ := List.length_eq_one_iff.1 (h.arity 1 rfl)
    exact ⟨_, _, _, rfl, if_pos (congrArg (!·) (h.rotation angle rfl)), rfl⟩
  | rz angle =>
    obtain ⟨wire, rfl⟩ := List.length_eq_one_iff.1 (h.arity 1 rfl)
    refine ⟨_, _, [.controlB], rfl, ?_, rfl⟩
    simp [Node.choose, Node.isRotated, Kind.bare, Kind.source, Kind.angle?, h.rotation angle rfl]
  | crz angle =>
    obtain ⟨a, wire, rfl⟩ := List.length_eq_two.1 (h.arity 2 rfl)
    refine ⟨_, _, [.controlB], rfl, ?_, rfl⟩
    simp [Node.choose, Node.isRotated, Kind.bare, Kind.source, Kind.angle?, h.rotation angle rfl]

/-- The origin of an operation that can be carried out lies on a wire of the grid. It resolves to
    the operation, with no field left over. -/
theorem WellFormed.exists_resolve (h : operation.WellFormed wires) (hwires : 0 < wires) :
    ∃ wire node, operation.origin? = some (wire, node) ∧ wire.index < wires ∧
      node.resolve wire wires = .ok ⟨operation, []⟩ := by
  obtain ⟨wire, node, controls, horigin, hchoose, hunused⟩ := h.exists_origin?
  have hcontrol := control_of_origin? horigin
  have hpartner := Node.partner_of_choose hchoose
  suffices hplace : wire.index < wires ∧ node.Fits wire wires from
    ⟨wire, node, horigin, hplace.1,
      Node.resolve_eq_ok_iff.2 ⟨hplace.2, controls, hchoose, hunused.symm⟩⟩
  rcases wires_of_origin? horigin with hoperands | ⟨rfl, hlanes⟩
  · -- The wire and the lanes are the wires of the operation: different ones, all of the grid.
    have hperm : operation.wires.Perm (wire :: node.lanes) := by
      rw [hoperands]
      exact node.operands_nil_perm wire
    have hinside : ∀ lane ∈ wire :: node.lanes, lane.index < wires :=
      fun lane hlane => h.inside lane (hperm.mem_iff.2 hlane)
    obtain ⟨hforeign, hdistinct⟩ := List.nodup_cons.1 (hperm.nodup_iff.1 h.distinct)
    obtain ⟨hwire, hlanes⟩ := List.forall_mem_cons.1 hinside
    exact ⟨hwire, hcontrol, hlanes, fun lane hlane heq => hforeign (heq ▸ hlane), hdistinct,
      hpartner⟩
  · -- A barrier has no lanes, and the first wire is there.
    refine ⟨hwires, hcontrol, ?_, ?_, ?_, hpartner⟩ <;> rw [hlanes]
    · exact List.forall_mem_nil _
    · exact List.forall_mem_nil _
    · exact List.nodup_nil

end Operation

namespace Node

variable {operation : Operation} {wire : Wire} {node : Node} {wires : UInt32}

/-! ### From nodes to operations -/

/-- The kind of an operation tells that of the node. -/
theorem source_of_choose {controls : List Field}
    (h : node.choose wire wires = .ok (operation, controls)) :
    operation.kind.source = node.kind := by
  revert h
  fun_cases choose node wire wires <;> rintro ⟨⟩ <;> simp_all [Operation.Kind.source]

/-- If no field is left over, the wires of an operation tell the wire and the lanes of the node. -/
theorem origin?_of_choose (hfits : node.Fits wire wires) {controls : List Field}
    (h : node.choose wire wires = .ok (operation, controls))
    (hunused : ∀ field ∈ node.kind.leavesOut ++ controls, node.holds field = false) :
    operation.origin? = some (if operation.isBarrier then ⟨0⟩ else wire,
      { operation.kind.bare with
        controlA := node.controlA
        controlB := node.controlB
        swapPartner := node.swapPartner }) := by
  -- In each branch what is left out is not set, so the lanes are those that the branch uses.
  have hcontrol := hfits.control
  revert h
  fun_cases choose node wire wires <;> rintro ⟨⟩ <;>
    simp_all [Kind.leavesOut, Kind.isRotatable, holds, Operation.origin?, Operation.Kind.bare,
      Operation.Kind.group, Operation.isBarrier]

/-- Any node that resolves with no field left over is the origin of its operation, but for the sign
    of a zero angle. -/
theorem origin?_of_resolve (h : node.resolve wire wires = .ok ⟨operation, []⟩) :
    operation.origin? = some (if operation.isBarrier then ⟨0⟩ else wire, node.unsigned) := by
  obtain ⟨hfits, controls, hchoose, hunused⟩ := resolve_eq_ok_iff.1 h
  have hnone : ∀ field ∈ node.kind.leavesOut ++ controls, node.holds field = false := by
    intro field hmem
    rw [← Bool.not_eq_true]
    exact List.filter_eq_nil_iff.1 hunused.symm field hmem
  rw [origin?_of_choose hfits hchoose hnone, Operation.Kind.bare, source_of_choose hchoose,
    angle?_of_resolve h]
  cases hrotated : node.isRotated with
  | true =>
    rw [unsigned_of_isRotated hrotated]
    simp
  | false =>
    rw [unsigned_of_not_isRotated hrotated]
    simp

/-- Every operation that can be carried out on some wires is what a node on one of them resolves to,
    with no field left over. And there is only one such node, but for the sign of a zero angle, and
    only one wire for it, unless the operation is a barrier. -/
theorem resolve_inverse (hwires : 0 < wires) :
    (∀ operation : Operation, operation.WellFormed wires →
      ∃ wire node, wire.index < wires ∧ Node.resolve node wire wires = .ok ⟨operation, []⟩) ∧
    ∀ (operation : Operation) (wire wire' : Wire) (node node' : Node),
      node.resolve wire wires = .ok ⟨operation, []⟩ →
      node'.resolve wire' wires = .ok ⟨operation, []⟩ →
        node.unsigned = node'.unsigned ∧ (operation.isBarrier = false → wire = wire') := by
  refine ⟨fun operation h => ?_, fun operation wire wire' node node' h h' => ?_⟩
  · obtain ⟨wire, node, -, hwire, hresolve⟩ := h.exists_resolve hwires
    exact ⟨wire, node, hwire, hresolve⟩
  · have heq := (origin?_of_resolve h).symm.trans (origin?_of_resolve h')
    obtain ⟨hwire, hnode⟩ := Prod.mk.inj (Option.some.inj heq)
    refine ⟨hnode, fun hbarrier => ?_⟩
    rw [hbarrier] at hwire
    exact hwire

/-- On three wires: there is a node for an exchange of the first two with the third as control. And
    two nodes for a controlled `z` differ in the sign of their zero angles, and in nothing else. -/
theorem resolve_inverse_signs :
    let exchange : Operation := ⟨.cswap, [⟨2⟩, ⟨0⟩, ⟨1⟩]⟩
    let node : Node := ⟨.z, .ofBits 0x8000000000000000, some ⟨2⟩, none, none⟩
    let node' : Node := ⟨.z, .zero, some ⟨2⟩, none, none⟩
    (∃ wire node, wire.index < 3 ∧ Node.resolve node wire 3 = .ok ⟨exchange, []⟩) ∧
      node.resolve ⟨1⟩ 3 = node'.resolve ⟨1⟩ 3 ∧ node ≠ node' ∧ node.unsigned = node'.unsigned := by
  intro exchange node node'
  have hexchange : exchange.WellFormed 3 := by
    refine ⟨?_, by decide, by decide, nofun, nofun⟩
    rintro _ ⟨⟩
    rfl
  obtain ⟨hexists, hunique⟩ := resolve_inverse (by decide : (0 : UInt32) < 3)
  exact ⟨hexists exchange hexchange, rfl, by decide,
    (hunique ⟨.cz, [⟨2⟩, ⟨1⟩]⟩ ⟨1⟩ ⟨1⟩ node node' rfl rfl).1⟩

end Node

end GateGrid

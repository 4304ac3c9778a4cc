import GateGrid.Proofs.Log

/-!
# Equal grids

Two grids are equal when they have the same size and in each cell the same node, with the angles
compared as numbers. So equal grids may differ in their bits: zero has two signs. Nobody who
compiles them can tell. An angle is looked at by asking first whether it is zero, and if it is, it
is not used at all: not in the operation, not among the fields left out, and not in the text of the
node.

The sign of a zero angle can therefore be dropped. A grid without such signs is compiled as before,
and equal grids without them are the same, bit by bit.

* `Node.unsigned`, `Grid.unsigned`: a node, or a grid, without the signs of zero angles;
* `Node.resolve_unsigned`, `Node.display_unsigned`: the node resolves and is shown as before;
* `Grid.compile_unsigned`, `Grid.log_unsigned`: the grid is compiled as before, with the same log;
* `Grid.unsigned_eq_of_numEq`: equal grids are the same without the signs;
* `Grid.compile_of_numEq`: equal grids are compiled to the same circuit or refused for the same
  reason, with the same log.
-/

namespace GateGrid

/-- Equal numbers are the same bits, or both zero. -/
theorem Binary64.eq_or_isZero_of_numEq {a b : Binary64} (h : a.numEq b) :
    a = b ∨ a.isZero ∧ b.isZero := by
  simp only [numEq, Bool.and_eq_true, Bool.or_eq_true, beq_iff_eq] at h
  exact h.2

/-! ### Nodes without the sign of zero -/

namespace Node

variable {node : Node}

/-- The node, with the positive sign on its angle if that is zero. -/
def unsigned (node : Node) : Node :=
  if node.isRotated then node else { node with angle := .zero }

theorem unsigned_of_isRotated (h : node.isRotated = true) : node.unsigned = node := if_pos h

theorem unsigned_of_not_isRotated (h : node.isRotated = false) :
    node.unsigned = { node with angle := .zero } := by
  rw [unsigned, h]
  rfl

/-- Equal nodes are the same without the sign of zero. -/
theorem unsigned_eq_of_numEq {a b : Node} (h : a.numEq b) : a.unsigned = b.unsigned := by
  obtain ⟨kind, angle, controlA, controlB, swapPartner⟩ := a
  obtain ⟨kind', angle', controlA', controlB', swapPartner'⟩ := b
  simp only [numEq, Bool.and_eq_true, beq_iff_eq] at h
  obtain ⟨⟨⟨⟨rfl, hangle⟩, rfl⟩, rfl⟩, rfl⟩ := h
  rcases Binary64.eq_or_isZero_of_numEq hangle with rfl | ⟨hzero, hzero'⟩
  · rfl
  · rw [unsigned_of_not_isRotated (by simp [isRotated, hzero]),
      unsigned_of_not_isRotated (by simp [isRotated, hzero'])]

theorem kind_unsigned (node : Node) : node.unsigned.kind = node.kind := by
  rw [unsigned]
  split <;> rfl

theorem isRotated_unsigned (node : Node) : node.unsigned.isRotated = node.isRotated := by
  cases h : node.isRotated with
  | true => rw [unsigned_of_isRotated h, h]
  | false =>
    rw [unsigned_of_not_isRotated h]
    rfl

theorem holds_unsigned (node : Node) : node.unsigned.holds = node.holds := by
  funext field
  cases field with
  | angle => exact node.isRotated_unsigned
  | controlA | controlB | swapPartner =>
    rw [unsigned]
    split <;> rfl

theorem check_unsigned (node : Node) (wire : Wire) (wires : UInt32) :
    node.unsigned.check wire wires = node.check wire wires := by
  rw [unsigned]
  split <;> rfl

/-- The angle is used only if the node is turned. -/
theorem choose_unsigned (node : Node) (wire : Wire) (wires : UInt32) :
    node.unsigned.choose wire wires = node.choose wire wires := by
  cases h : node.isRotated with
  | true => rw [unsigned_of_isRotated h]
  | false =>
    have h' := node.isRotated_unsigned
    rw [unsigned_of_not_isRotated h] at h' ⊢
    obtain ⟨kind, angle, controlA, controlB, swapPartner⟩ := node
    -- Three kinds look at the angle, and each of them asks first whether it is set.
    cases kind with
    | x | y =>
      unfold choose
      rw [h', h]
      rfl
    | z =>
      unfold choose
      rw [h', h]
      cases controlA <;> rfl
    | identity | s | sdg | t | tdg | h | swap | barrier => rfl

/-- Without the sign of zero a node resolves as before. -/
theorem resolve_unsigned (node : Node) (wire : Wire) (wires : UInt32) :
    node.unsigned.resolve wire wires = node.resolve wire wires := by
  rw [resolve, check_unsigned, choose_unsigned, holds_unsigned, kind_unsigned, resolve]

/-- Without the sign of zero a node is shown as before. -/
theorem display_unsigned (node : Node) : node.unsigned.display = node.display := by
  cases h : node.isRotated with
  | true => rw [unsigned_of_isRotated h]
  | false =>
    have h' := node.isRotated_unsigned
    rw [unsigned_of_not_isRotated h] at h' ⊢
    rw [display, display, details, details, h', h]
    rfl

end Node

/-! ### What is told -/

/-- The placed node without the sign of a zero angle. -/
def Placement.unsigned (placement : Placement) : Placement :=
  { placement with node := placement.node.unsigned }

namespace Event

/-- The event without the sign of a zero angle. -/
def unsigned : Event → Event
  | .emitted placement operation => .emitted placement.unsigned operation
  | event => event

/-- Without the sign of zero the line of an event is the same. -/
theorem line_unsigned (event : Event) : event.unsigned.line = event.line := by
  cases event with
  | emitted placement operation =>
    have hdisplay : placement.unsigned.node.display = placement.node.display :=
      placement.node.display_unsigned
    change line (.emitted placement.unsigned operation) = _
    -- Opened as one match, since its equations for each event are slow to state.
    unfold line
    dsimp only
    rw [hdisplay]
    rfl
  | span | started | ignored | finished => exact congrArg line rfl

end Event

/-- Without the sign of zero a policy makes the same of the fields left out. -/
theorem Policy.review_unsigned (policy : Policy) (placement : Placement)
    (unused : List Node.Field) :
    policy.review placement.unsigned unused =
      (policy.review placement unused).map (·.map Event.unsigned) := by
  have hkind : placement.unsigned.node.kind = placement.node.kind := placement.node.kind_unsigned
  cases policy with
  | permissive =>
    simp only [review, hkind, Except.map, List.map_map]
    rfl
  | strict =>
    cases unused with
    | nil => rfl
    | cons field rest =>
      simp only [review, hkind]
      rfl

/-- Without the sign of zero a node is compiled as before, and the same is told about it. -/
theorem Placement.compile_unsigned (policy : Policy) (wires : UInt32) (placement : Placement) :
    placement.unsigned.compile policy wires =
      (placement.compile policy wires).map fun compiled =>
        (compiled.1, compiled.2.map Event.unsigned) := by
  have hresolve : placement.unsigned.node.resolve placement.unsigned.cell.wire wires =
      placement.node.resolve placement.cell.wire wires := placement.node.resolve_unsigned _ _
  rw [compile, hresolve, compile]
  cases placement.node.resolve placement.cell.wire wires with
  | error reason => rfl
  | ok resolution =>
    simp only [policy.review_unsigned]
    cases policy.review placement resolution.unused with
    | error error => rfl
    | ok warnings =>
      simp only [Except.map, List.map_append, List.map_cons, List.map_nil, Event.unsigned]

namespace Grid

/-! ### Grids without the sign of zero -/

/-- Without the sign of zero a sequence of nodes is compiled as before. -/
theorem compilePlacements_unsigned (policy : Policy) (wires : UInt32)
    (placements : List Placement) :
    compilePlacements policy wires (placements.map Placement.unsigned) =
      ((compilePlacements policy wires placements).1,
        (compilePlacements policy wires placements).2.map Event.unsigned) := by
  induction placements with
  | nil => rfl
  | cons placement rest ih =>
    have hunsigned := placement.compile_unsigned policy wires
    rw [List.map_cons]
    cases hcompile : placement.compile policy wires with
    | error error =>
      rw [hcompile] at hunsigned
      rw [compilePlacements_cons_error hcompile, compilePlacements_cons_error hunsigned]
      rfl
    | ok compiled =>
      rw [hcompile] at hunsigned
      rw [compilePlacements_cons hcompile, compilePlacements_cons hunsigned, ih, List.map_append]

/-- The grid without the signs of zero angles. -/
def unsigned (grid : Grid) : Grid where
  wires := grid.wires
  columns := grid.columns
  slots := grid.slots.map (·.map Node.unsigned)
  size_slots := by rw [Array.size_map, grid.size_slots]

@[simp] theorem wires_unsigned (grid : Grid) : grid.unsigned.wires = grid.wires := rfl

@[simp] theorem columns_unsigned (grid : Grid) : grid.unsigned.columns = grid.columns := rfl

theorem node?_unsigned (grid : Grid) (cell : Cell) :
    grid.unsigned.node? cell = (grid.node? cell).map Node.unsigned := by
  change ((grid.slots.map (·.map Node.unsigned))[grid.slot cell]?).join = _
  rw [Array.getElem?_map, Option.join_map_eq_map_join, node?]

theorem placements_unsigned (grid : Grid) :
    grid.unsigned.placements = grid.placements.map Placement.unsigned := by
  rw [placements, placements, List.map_filterMap]
  refine List.filterMap_congr fun cell _ => ?_
  rw [node?_unsigned, Option.map_map, Option.map_map]
  rfl

theorem numOccupied_unsigned (grid : Grid) : grid.unsigned.numOccupied = grid.numOccupied := by
  rw [← length_placements, placements_unsigned, List.length_map, length_placements]

/-- Without the signs of zero a grid is compiled as before, and the same is told about it. -/
theorem compile_unsigned (policy : Policy) (grid : Grid) :
    grid.unsigned.compile policy =
      ((grid.compile policy).1, (grid.compile policy).2.map Event.unsigned) := by
  have hunsigned := compilePlacements_unsigned policy grid.wires grid.placements
  simp only [compile, wires_unsigned, columns_unsigned, numOccupied_unsigned, placements_unsigned,
    hunsigned]
  generalize compilePlacements policy grid.wires grid.placements = compiled
  obtain ⟨outcome, events⟩ := compiled
  cases outcome with
  | error error =>
    simp only [List.map_append]
    rfl
  | ok operations =>
    simp only [List.map_append]
    rfl

theorem log_unsigned (policy : Policy) (grid : Grid) :
    grid.unsigned.log policy = grid.log policy := by
  rw [log, compile_unsigned, List.map_map, log]
  exact List.map_congr_left fun event _ => event.line_unsigned

/-- Equal contents are the same without the sign of zero. -/
theorem map_unsigned_of_slotNumEq {a b : Option Node} (h : slotNumEq a b) :
    a.map Node.unsigned = b.map Node.unsigned := by
  cases a <;> cases b
  · rfl
  · exact absurd h nofun
  · exact absurd h nofun
  · exact congrArg some (Node.unsigned_eq_of_numEq h)

/-- Equal grids are the same without the signs of zero. -/
theorem unsigned_eq_of_numEq {a b : Grid} (h : a.numEq b) : a.unsigned = b.unsigned := by
  obtain ⟨wires, columns, slots, hsize⟩ := a
  obtain ⟨wires', columns', slots', hsize'⟩ := b
  simp only [numEq, Bool.and_eq_true, beq_iff_eq, List.all_eq_true] at h
  obtain ⟨⟨rfl, rfl⟩, h⟩ := h
  simp only [unsigned, mk.injEq, true_and]
  refine Array.ext (by simp [hsize, hsize']) fun i hi hi' => ?_
  rw [Array.size_map] at hi hi'
  rw [Array.getElem_map, Array.getElem_map]
  refine map_unsigned_of_slotNumEq (h (slots[i], slots'[i]) ?_)
  rw [List.mem_iff_getElem?]
  exact ⟨i, List.getElem?_zip_eq_some.2 ⟨by simp [hi], by simp [hi']⟩⟩

/-- Equal grids cannot be told apart by compiling them. Whatever the policy, both are compiled to
    the same circuit, bit by bit, or both are refused for the same reason, and the two logs have the
    same lines. -/
theorem compile_of_numEq {a b : Grid} (h : a.numEq b) (policy : Policy) :
    (a.compile policy).1 = (b.compile policy).1 ∧ a.log policy = b.log policy := by
  have hunsigned := unsigned_eq_of_numEq h
  constructor
  · calc (a.compile policy).1 = (a.unsigned.compile policy).1 := by rw [compile_unsigned]
      _ = (b.unsigned.compile policy).1 := by rw [hunsigned]
      _ = (b.compile policy).1 := by rw [compile_unsigned]
  · calc a.log policy = a.unsigned.log policy := (log_unsigned policy a).symm
      _ = b.unsigned.log policy := by rw [hunsigned]
      _ = b.log policy := log_unsigned policy b

/-- In both cells the angles of the two grids are zeros of different sign: in one cell of a kind of
    node that may be turned, in the other of a kind that leaves the angle out. -/
theorem compile_of_numEq_signs :
    let a := build 2 1 [.set ⟨⟨0⟩, ⟨0⟩⟩ { kind := .z, controlA := some ⟨1⟩ },
      .set ⟨⟨1⟩, ⟨0⟩⟩ { kind := .h, angle := ⟨true, 0, by decide⟩ }]
    let b := build 2 1 [.set ⟨⟨0⟩, ⟨0⟩⟩
        { kind := .z, angle := ⟨true, 0, by decide⟩, controlA := some ⟨1⟩ },
      .set ⟨⟨1⟩, ⟨0⟩⟩ { kind := .h }]
    a.node? ⟨⟨0⟩, ⟨0⟩⟩ ≠ b.node? ⟨⟨0⟩, ⟨0⟩⟩ ∧ a.node? ⟨⟨1⟩, ⟨0⟩⟩ ≠ b.node? ⟨⟨1⟩, ⟨0⟩⟩ ∧
    a.numEq b ∧ (a.compile .strict).1 = .ok ⟨2, [⟨.cz, [⟨1⟩, ⟨0⟩]⟩, ⟨.h, [⟨1⟩]⟩]⟩ ∧
    (b.compile .strict).1 = .ok ⟨2, [⟨.cz, [⟨1⟩, ⟨0⟩]⟩, ⟨.h, [⟨1⟩]⟩]⟩ ∧
    a.log .strict = b.log .strict := by
  intro a b
  have hequal : a.numEq b := rfl
  have ha : (a.compile .strict).1 = .ok ⟨2, [⟨.cz, [⟨1⟩, ⟨0⟩]⟩, ⟨.h, [⟨1⟩]⟩]⟩ := by decide
  obtain ⟨houtcome, hlog⟩ := compile_of_numEq hequal .strict
  exact ⟨by decide, by decide, hequal, ha, houtcome.symm.trans ha, hlog⟩

end Grid

end GateGrid

import GateGrid.Compile
import GateGrid.Proofs.Grid.Run
import GateGrid.Proofs.Grid.Scan
import GateGrid.Proofs.Resolution
import Mathlib.Data.List.Forall2

/-!
# Circuits of grids

The nodes of a grid are compiled one after the other, and the first error ends the work. After any
run of requests every node fits its wire, so every node resolves, and the only error left is that a
node is over-specified under the strict policy.

* `Grid.compilePlacements_permissive`, `Grid.compilePlacements_strict`: the two policies over nodes
  that resolve;
* `Grid.compile_permissive_build`: the permissive policy compiles every grid, to the operations of
  its nodes in the order of time;
* `Grid.wellFormed_of_compile_build`: what is compiled can be carried out;
* `Grid.compile_strict_build`: the strict policy compiles the grids without over-specified nodes, to
  the same circuits, and else refuses the first such node for its first such field.
-/

namespace GateGrid

/-! ### Single nodes -/

namespace Placement

variable {placement : Placement} {resolution : Resolution} {wires : UInt32}

/-- What is told about a node that resolves and is not refused. -/
def told (placement : Placement) (resolution : Resolution) : List Event :=
  resolution.unused.map (.ignored placement.cell placement.node.kind ·) ++
    [.emitted placement resolution.operation]

theorem compile_permissive
    (h : placement.node.resolve placement.cell.wire wires = .ok resolution) :
    placement.compile .permissive wires =
      .ok (resolution.operation, placement.told resolution) := by
  rw [compile, h]
  rfl

theorem compile_strict_of_nil
    (h : placement.node.resolve placement.cell.wire wires = .ok resolution)
    (hunused : resolution.unused = []) :
    placement.compile .strict wires =
      .ok (resolution.operation, placement.told resolution) := by
  simp only [compile, h, hunused, Policy.review, told, List.map_nil]

theorem compile_strict_of_cons {field : Node.Field} {rest : List Node.Field}
    (h : placement.node.resolve placement.cell.wire wires = .ok resolution)
    (hunused : resolution.unused = field :: rest) :
    placement.compile .strict wires =
      .error (.malformed placement.cell (.unusedField placement.node.kind field)) := by
  simp only [compile, h, hunused, Policy.review]

/-- An operation is compiled only by resolving the node. -/
theorem resolve_of_compile {policy : Policy} {operation : Operation} {events : List Event}
    (h : placement.compile policy wires = .ok (operation, events)) :
    ∃ resolution, placement.node.resolve placement.cell.wire wires = .ok resolution ∧
      resolution.operation = operation := by
  rw [compile] at h
  split at h
  · exact absurd h nofun
  next resolution hresolve =>
  split at h
  · exact absurd h nofun
  · obtain ⟨rfl, _⟩ := Prod.mk.inj (Except.ok.inj h)
    exact ⟨resolution, hresolve, rfl⟩

end Placement

namespace Grid

/-! ### Sequences of nodes -/

section Sequences

variable {wires : UInt32} {placements : List Placement} {resolutions : List Resolution}

/-- The placed nodes resolve, each to the resolution at its place. -/
def Resolves (wires : UInt32) : List Placement → List Resolution → Prop :=
  List.Forall₂ fun placement resolution =>
    placement.node.resolve placement.cell.wire wires = .ok resolution

theorem exists_resolves
    (h : ∀ placement ∈ placements, placement.node.Fits placement.cell.wire wires) :
    ∃ resolutions, Resolves wires placements resolutions := by
  induction placements with
  | nil => exact ⟨[], .nil⟩
  | cons placement rest ih =>
    rw [List.forall_mem_cons] at h
    obtain ⟨resolution, hresolve⟩ := Node.exists_resolve h.1
    obtain ⟨resolutions, hrest⟩ := ih h.2
    exact ⟨resolution :: resolutions, .cons hresolve hrest⟩

theorem Resolves.map_operation (h : Resolves wires placements resolutions) :
    placements.map (fun placement =>
      (placement.node.resolve placement.cell.wire wires).map (·.operation)) =
        (resolutions.map (·.operation)).map .ok := by
  induction h with
  | nil => rfl
  | cons hresolve _ ih =>
    rw [List.map_cons, ih, hresolve]
    rfl

/-- Nothing is reported of nodes that are not over-specified. -/
theorem Resolves.unused_eq_nil (h : Resolves wires placements resolutions)
    (hexact : ∀ placement ∈ placements, ¬placement.node.Overspecified) :
    ∀ resolution ∈ resolutions, resolution.unused = [] := by
  induction h with
  | nil => exact fun _ hmem => absurd hmem List.not_mem_nil
  | cons hresolve _ ih =>
    rw [List.forall_mem_cons] at hexact ⊢
    exact ⟨(Node.unused_eq_nil_iff hresolve).2 hexact.1, ih hexact.2⟩

theorem compilePlacements_cons {policy : Policy} {placement : Placement} {operation : Operation}
    {events : List Event} (h : placement.compile policy wires = .ok (operation, events)) :
    compilePlacements policy wires (placement :: placements) =
      ((compilePlacements policy wires placements).1.map (operation :: ·),
        events ++ (compilePlacements policy wires placements).2) := by
  rw [compilePlacements, h]

theorem compilePlacements_cons_error {policy : Policy} {placement : Placement} {error : Error}
    (h : placement.compile policy wires = .error error) :
    compilePlacements policy wires (placement :: placements) = (.error error, []) := by
  rw [compilePlacements, h]

/-- The operations of nodes, without what is told on the way. -/
theorem fst_compilePlacements_cons (policy : Policy) (wires : UInt32) (placement : Placement)
    (later : List Placement) :
    (compilePlacements policy wires (placement :: later)).1 =
      ((placement.compile policy wires).map (·.1)).bind fun operation =>
        (compilePlacements policy wires later).1.map (operation :: ·) := by
  rw [compilePlacements]
  cases placement.compile policy wires <;> rfl

/-- Nodes behind others are compiled only if none of the others is refused. -/
theorem fst_compilePlacements_append (policy : Policy) (wires : UInt32)
    (placements later : List Placement) :
    (compilePlacements policy wires (placements ++ later)).1 =
      (compilePlacements policy wires placements).1.bind fun operations =>
        (compilePlacements policy wires later).1.map (operations ++ ·) := by
  induction placements with
  | nil =>
    rw [List.nil_append]
    cases (compilePlacements policy wires later).1 <;> rfl
  | cons placement rest ih =>
    rw [List.cons_append, fst_compilePlacements_cons, fst_compilePlacements_cons, ih]
    cases (placement.compile policy wires).map (·.1) with
    | error error => rfl
    | ok operation =>
      cases (compilePlacements policy wires rest).1 with
      | error error => rfl
      | ok operations => cases (compilePlacements policy wires later).1 <;> rfl

/-- The permissive policy compiles all nodes that resolve, and tells of each of them. -/
theorem compilePlacements_permissive (h : Resolves wires placements resolutions) :
    compilePlacements .permissive wires placements =
      (.ok (resolutions.map (·.operation)),
        (List.zipWith Placement.told placements resolutions).flatten) := by
  induction h with
  | nil => rfl
  | cons hresolve _ ih =>
    rw [compilePlacements_cons (Placement.compile_permissive hresolve), ih]
    rfl

/-- Where nothing is reported, the strict policy does what the permissive one does. -/
theorem compilePlacements_strict (h : Resolves wires placements resolutions)
    (hunused : ∀ resolution ∈ resolutions, resolution.unused = []) :
    compilePlacements .strict wires placements =
      compilePlacements .permissive wires placements := by
  induction h with
  | nil => rfl
  | cons hresolve _ ih =>
    rw [List.forall_mem_cons] at hunused
    rw [compilePlacements_cons (Placement.compile_permissive hresolve),
      compilePlacements_cons (Placement.compile_strict_of_nil hresolve hunused.1), ih hunused.2]

/-- The strict policy stops at the first node of which something is reported. -/
theorem compilePlacements_strict_error {placement : Placement} {later : List Placement}
    {resolution : Resolution} {field : Node.Field} {rest : List Node.Field}
    (h : Resolves wires placements resolutions)
    (hunused : ∀ resolution ∈ resolutions, resolution.unused = [])
    (hresolve : placement.node.resolve placement.cell.wire wires = .ok resolution)
    (hfield : resolution.unused = field :: rest) :
    compilePlacements .strict wires (placements ++ placement :: later) =
      (.error (.malformed placement.cell (.unusedField placement.node.kind field)),
        (compilePlacements .permissive wires placements).2) := by
  induction h with
  | nil => exact compilePlacements_cons_error (Placement.compile_strict_of_cons hresolve hfield)
  | cons hfirst _ ih =>
    rw [List.forall_mem_cons] at hunused
    rw [List.cons_append, compilePlacements_cons (Placement.compile_permissive hfirst),
      compilePlacements_cons (Placement.compile_strict_of_nil hfirst hunused.1), ih hunused.2]
    rfl

/-- Under either policy, an operation comes from one of the nodes. -/
theorem exists_of_mem_compilePlacements {policy : Policy} {operations : List Operation}
    (h : (compilePlacements policy wires placements).1 = .ok operations) :
    ∀ operation ∈ operations, ∃ placement ∈ placements, ∃ resolution,
      placement.node.resolve placement.cell.wire wires = .ok resolution ∧
        resolution.operation = operation := by
  induction placements generalizing operations with
  | nil =>
    obtain rfl : [] = operations := Except.ok.inj h
    exact fun _ hmem => absurd hmem List.not_mem_nil
  | cons placement rest ih =>
    -- Neither this node nor a later one can have been refused.
    cases hcompile : placement.compile policy wires with
    | error error =>
      rw [compilePlacements_cons_error hcompile] at h
      exact absurd h nofun
    | ok compiled =>
      obtain ⟨first, events⟩ := compiled
      rw [compilePlacements_cons hcompile] at h
      cases hrest : (compilePlacements policy wires rest).1 with
      | error error =>
        rw [hrest] at h
        exact absurd h nofun
      | ok others =>
        rw [hrest] at h
        obtain rfl : first :: others = operations := Except.ok.inj h
        intro operation hmem
        rcases List.mem_cons.1 hmem with rfl | hmem
        · exact ⟨placement, List.mem_cons_self, Placement.resolve_of_compile hcompile⟩
        · obtain ⟨other, hother, hresolve⟩ := ih hrest operation hmem
          exact ⟨other, List.mem_cons_of_mem _ hother, hresolve⟩

end Sequences

/-! ### Whole grids -/

variable {grid : Grid}

/-- The circuit of a grid is made of the operations of its nodes. -/
theorem fst_compile (policy : Policy) (grid : Grid) :
    (grid.compile policy).1 =
      (compilePlacements policy grid.wires grid.placements).1.map (Circuit.mk grid.wires) := by
  rw [compile]
  obtain ⟨outcome, events⟩ := compilePlacements policy grid.wires grid.placements
  cases outcome <;> rfl

/-- The permissive policy compiles every grid whose nodes resolve. -/
theorem fst_compile_permissive {resolutions : List Resolution}
    (h : Resolves grid.wires grid.placements resolutions) :
    (grid.compile .permissive).1 = .ok ⟨grid.wires, resolutions.map (·.operation)⟩ := by
  rw [fst_compile, compilePlacements_permissive h]
  rfl

/-- The nodes of a sound grid fit their wires. -/
theorem Sound.fits (h : grid.Sound) :
    ∀ placement ∈ grid.placements, placement.node.Fits placement.cell.wire grid.wires :=
  fun placement hmem =>
    Node.check_eq_ok_iff.1 (h placement.cell placement.node (mem_placements.1 hmem))

/-- What is compiled can be carried out on the wires of the grid. -/
theorem wellFormed_of_compile {policy : Policy} {circuit : Circuit}
    (h : (grid.compile policy).1 = .ok circuit) :
    ∀ operation ∈ circuit.operations, operation.WellFormed grid.wires := by
  rw [fst_compile] at h
  cases hcompile : (compilePlacements policy grid.wires grid.placements).1 with
  | error error =>
    rw [hcompile] at h
    exact absurd h nofun
  | ok operations =>
    rw [hcompile] at h
    obtain rfl : Circuit.mk grid.wires operations = circuit := Except.ok.inj h
    intro operation hmem
    obtain ⟨placement, hplacement, resolution, hresolve, rfl⟩ :=
      exists_of_mem_compilePlacements hcompile operation hmem
    have hcell := (get_eq_ok_iff.1 (mem_placements.1 hplacement)).1
    exact Node.wellFormed_of_resolve hcell.1 hresolve

/-- After any run the permissive policy compiles the grid, to the operations of the nodes that two
    loops over the columns and the wires find, in their order. There are as many as cells in use,
    each passes the test of its number of wires, and no look-up on the way misses the slots. -/
theorem compile_permissive_build (wires columns : UInt32) (requests : List Request) :
    ∃ operations,
      ((build wires columns requests).compile .permissive).1 = .ok ⟨wires, operations⟩ ∧
      (build wires columns requests).wires = wires ∧
      (build wires columns requests).columns = columns ∧
      (build wires columns requests).scan.map (fun placement =>
        (placement.node.resolve placement.cell.wire wires).map (·.operation)) =
          operations.map .ok ∧
      operations.length = (build wires columns requests).numOccupied ∧
      (∀ operation ∈ operations, Operation.make operation.kind operation.wires = .ok operation) ∧
      ∀ cell ∈ (build wires columns requests).cells,
        (build wires columns requests).slot cell < (build wires columns requests).slots.size := by
  obtain ⟨resolutions, hresolves⟩ := exists_resolves (sound_build wires columns requests).fits
  have hcompile : ((build wires columns requests).compile .permissive).1 =
      .ok ⟨wires, resolutions.map (·.operation)⟩ := by
    rw [fst_compile_permissive hresolves, wires_build]
  refine ⟨resolutions.map (·.operation), hcompile, wires_build .., columns_build .., ?_, ?_, ?_, ?_⟩
  · rw [← placements_eq_scan]
    have hmap := hresolves.map_operation
    rwa [wires_build] at hmap
  · rw [List.length_map, ← hresolves.length_eq, length_placements]
  · exact fun operation hmem => (wellFormed_of_compile hcompile operation hmem).make_eq
  · exact fun cell hcell => slot_lt (mem_cells.1 hcell)

/-- Whatever the policy, what is compiled after any run can be carried out on the wires of the grid,
    and passes the test of its number of wires. -/
theorem wellFormed_of_compile_build (wires columns : UInt32) (requests : List Request)
    (policy : Policy) (circuit : Circuit)
    (h : ((build wires columns requests).compile policy).1 = .ok circuit) :
    ∀ operation ∈ circuit.operations, operation.WellFormed wires ∧
      Operation.make operation.kind operation.wires = .ok operation := by
  intro operation hmem
  have hwell := wellFormed_of_compile h operation hmem
  rw [wires_build] at hwell
  exact ⟨hwell, hwell.make_eq⟩

/-- A doubly controlled gate and a barrier, one written after a request that fails. -/
theorem wellFormed_of_compile_controls_barrier :
    ((build 3 2 [.set ⟨⟨2⟩, ⟨0⟩⟩ { kind := .x, controlA := some ⟨0⟩, controlB := some ⟨1⟩ },
      .clear ⟨⟨5⟩, ⟨0⟩⟩, .set ⟨⟨1⟩, ⟨1⟩⟩ { kind := .barrier }]).compile .strict).1 =
        .ok ⟨3, [⟨.ccx, [⟨0⟩, ⟨1⟩, ⟨2⟩]⟩, ⟨.barrier, [⟨0⟩, ⟨1⟩, ⟨2⟩]⟩]⟩ ∧
    ∀ operation ∈ [Operation.mk .ccx [⟨0⟩, ⟨1⟩, ⟨2⟩], ⟨.barrier, [⟨0⟩, ⟨1⟩, ⟨2⟩]⟩],
      operation.WellFormed 3 ∧ Operation.make operation.kind operation.wires = .ok operation := by
  refine (fun h => ⟨h, wellFormed_of_compile_build _ _ _ _ _ h⟩) ?_
  rfl

/-! ### The strict policy -/

/-- No node of the grid is over-specified. -/
def Exact (grid : Grid) : Prop :=
  ∀ cell node, grid.get cell = .ok (some node) → ¬node.Overspecified

theorem exact_iff : grid.Exact ↔ ∀ placement ∈ grid.placements, ¬placement.node.Overspecified := by
  constructor
  · intro h placement hmem
    exact h placement.cell placement.node (mem_placements.1 hmem)
  · intro h cell node hget
    exact h ⟨cell, node⟩ (mem_placements.2 hget)

/-- On an exact grid the strict policy does what the permissive one does. -/
theorem Sound.compile_strict (h : grid.Sound) (hexact : grid.Exact) :
    grid.compile .strict = grid.compile .permissive := by
  obtain ⟨resolutions, hresolves⟩ := exists_resolves h.fits
  have hunused := hresolves.unused_eq_nil (exact_iff.1 hexact)
  rw [compile, compile, compilePlacements_strict hresolves hunused]

/-- On any other grid the strict policy refuses the first over-specified node in the order of time,
    for the first field that over-specifies it. -/
theorem Sound.compile_strict_error (h : grid.Sound) (hexact : ¬grid.Exact) :
    ∃ before placement later field,
      grid.scan = before ++ placement :: later ∧
      (∀ earlier ∈ before, ¬earlier.node.Overspecified) ∧
      Node.Field.order.find? (placement.node.Overspecifies ·) = some field ∧
      (grid.compile .strict).1 =
        .error (.malformed placement.cell (.unusedField placement.node.kind field)) := by
  -- The first over-specified node, and those before it.
  have hsome : (grid.placements.find? (·.node.Overspecified)).isSome := by
    rw [exact_iff] at hexact
    push Not at hexact
    obtain ⟨placement, hmem, hover⟩ := hexact
    exact List.find?_isSome.2 ⟨placement, hmem, decide_eq_true hover⟩
  obtain ⟨placement, hfind⟩ := Option.isSome_iff_exists.1 hsome
  obtain ⟨hover, before, later, hsplit, hbefore⟩ := List.find?_eq_some_iff_append.1 hfind
  have hover : placement.node.Overspecified := of_decide_eq_true hover
  have hbefore : ∀ earlier ∈ before, ¬earlier.node.Overspecified := fun earlier hmem => by
    simpa using hbefore earlier hmem
  -- Those before it compile, and it is refused.
  have hfits := h.fits
  rw [hsplit, List.forall_mem_append, List.forall_mem_cons] at hfits
  obtain ⟨resolutions, hresolves⟩ := exists_resolves hfits.1
  obtain ⟨resolution, hresolve⟩ := Node.exists_resolve hfits.2.1
  obtain ⟨field, rest, hunused, hfield⟩ := Node.exists_unused_eq_cons hresolve hover
  refine ⟨before, placement, later, field, ?_, hbefore, hfield, ?_⟩
  · rw [← placements_eq_scan, hsplit]
  · rw [fst_compile, hsplit, compilePlacements_strict_error hresolves
      (hresolves.unused_eq_nil hbefore) hresolve hunused]
    rfl

/-- After any run the strict policy compiles the grid if and only if no node is over-specified, and
    then to the circuit of the permissive policy. Else it refuses the first over-specified node in
    the order of time, for the first field that over-specifies it. -/
theorem compile_strict_build (wires columns : UInt32) (requests : List Request) :
    ((∃ circuit, ((build wires columns requests).compile .strict).1 = .ok circuit) ↔
      (build wires columns requests).Exact) ∧
    ((build wires columns requests).Exact →
      ((build wires columns requests).compile .strict).1 =
        ((build wires columns requests).compile .permissive).1) ∧
    (¬(build wires columns requests).Exact →
      ∃ before placement later field,
        (build wires columns requests).scan = before ++ placement :: later ∧
        (∀ earlier ∈ before, ¬earlier.node.Overspecified) ∧
        Node.Field.order.find? (placement.node.Overspecifies ·) = some field ∧
        ((build wires columns requests).compile .strict).1 =
          .error (.malformed placement.cell (.unusedField placement.node.kind field))) := by
  have hsound := sound_build wires columns requests
  have hequal : (build wires columns requests).Exact →
      ((build wires columns requests).compile .strict).1 =
        ((build wires columns requests).compile .permissive).1 := fun hexact => by
    rw [hsound.compile_strict hexact]
  refine ⟨⟨?_, ?_⟩, hequal, hsound.compile_strict_error⟩
  · rintro ⟨circuit, hcircuit⟩
    by_contra hexact
    obtain ⟨_, _, _, _, _, _, _, herror⟩ := hsound.compile_strict_error hexact
    rw [hcircuit] at herror
    exact absurd herror nofun
  · intro hexact
    obtain ⟨resolutions, hresolves⟩ := exists_resolves hsound.fits
    exact ⟨_, (hequal hexact).trans (fst_compile_permissive hresolves)⟩

/-- Of two over-specified nodes the one in the earlier column is refused, though its wire is the
    lower one. -/
example :
    ((build 2 2 [.set ⟨⟨0⟩, ⟨1⟩⟩ { kind := .s, controlA := some ⟨1⟩ },
      .set ⟨⟨1⟩, ⟨0⟩⟩ { kind := .h, swapPartner := some ⟨0⟩ }]).compile .strict).1 =
        .error (.malformed ⟨⟨1⟩, ⟨0⟩⟩ (.unusedField .h .swapPartner)) := rfl

end Grid

end GateGrid

import GateGrid.Proofs.Grid.Run
import GateGrid.Proofs.Grid.Scan
import GateGrid.Proofs.Resolution

/-!
# What is always true of the slots

Nodes come from anywhere: nothing is checked when they are put together, and requests may name any
cell. A grid trusts what it stores all the same. What it relies on is an invariant of its size and
its slots, which every request keeps, whether it is carried out or refused.

* `Grid.Invariant`: the size of the grid, the number of its slots, and that each of them is empty or
  holds a node that fits the wire it belongs to;
* `Grid.Invariant.answer`: a request keeps it;
* `Grid.invariant_build`: it holds after any run, so that every node of the grid resolves.
-/

namespace GateGrid.Grid

variable {grid : Grid} {wires columns : UInt32}

/-- The slots of a grid with `wires` wires and `columns` columns are as they should be. -/
structure Invariant (grid : Grid) (wires columns : UInt32) : Prop where
  /-- The number of wires is the one the grid was made with. -/
  wires_eq : grid.wires = wires
  /-- So is the number of columns. -/
  columns_eq : grid.columns = columns
  /-- There is a slot for each cell. -/
  size_eq : grid.slots.size = wires.toNat * columns.toNat
  /-- Every slot belongs to a cell. -/
  owned : ∀ i < grid.slots.size, ∃ cell : Cell,
    cell.wire.index < wires ∧ cell.column.index < columns ∧
      cell.wire.index.toNat * columns.toNat + cell.column.index.toNat = i
  /-- A node in the slot of a cell passes the check for the wire of the cell. -/
  fits : ∀ cell : Cell, cell.wire.index < wires → cell.column.index < columns → ∀ node,
    grid.slots[cell.wire.index.toNat * columns.toNat + cell.column.index.toNat]? =
      some (some node) → node.check cell.wire wires = .ok ()

/-- Beside the size, the invariant says that the grid is sound: a slot is read through its cell. -/
theorem invariant_iff :
    grid.Invariant wires columns ↔ grid.wires = wires ∧ grid.columns = columns ∧ grid.Sound := by
  constructor
  · rintro ⟨rfl, rfl, _, _, hfits⟩
    refine ⟨rfl, rfl, fun cell node hget => ?_⟩
    obtain ⟨hcell, hnode⟩ := get_eq_ok_iff.1 hget
    refine hfits cell hcell.1 hcell.2 node ?_
    rw [← hnode]
    exact getElem?_slot hcell
  · rintro ⟨rfl, rfl, hsound⟩
    refine ⟨rfl, rfl, grid.size_slots, fun i hi => ?_, fun cell hw hc node hslot => ?_⟩
    · obtain ⟨cell, hcell, rfl⟩ := exists_cell hi
      exact ⟨cell, hcell.1, hcell.2, rfl⟩
    · have hcell : grid.Contains cell := ⟨hw, hc⟩
      have hnode : some (grid.node? cell) = some (some node) := by
        rw [← getElem?_slot hcell]
        exact hslot
      exact hsound cell node (get_eq_ok_iff.2 ⟨hcell, Option.some_inj.1 hnode⟩)

theorem invariant_empty (wires columns : UInt32) :
    (empty wires columns).Invariant wires columns :=
  invariant_iff.2 ⟨rfl, rfl, sound_empty wires columns⟩

/-- A request keeps the invariant, whatever its cell and its node. -/
theorem Invariant.answer (h : grid.Invariant wires columns) (request : Request) :
    (grid.answer request).2.Invariant wires columns := by
  obtain ⟨hw, hc, hsound⟩ := invariant_iff.1 h
  exact invariant_iff.2 ⟨(wires_answer request).trans hw, (columns_answer request).trans hc,
    hsound.answer request⟩

/-- Where the invariant holds, every node that the walk finds resolves. -/
theorem Invariant.exists_resolve (h : grid.Invariant wires columns) {placement : Placement}
    (hmem : placement ∈ grid.placements) :
    ∃ resolution, placement.node.resolve placement.cell.wire wires = .ok resolution := by
  obtain ⟨rfl, _, hsound⟩ := invariant_iff.1 h
  have hcheck := hsound placement.cell placement.node (mem_placements.1 hmem)
  exact Node.exists_resolve (Node.check_eq_ok_iff.1 hcheck)

/-- After any run, with any cells and any nodes, the invariant holds, and every node that the walk
    finds resolves. -/
theorem invariant_build (wires columns : UInt32) (requests : List Request) :
    (build wires columns requests).Invariant wires columns ∧
    ∀ placement ∈ (build wires columns requests).placements,
      ∃ resolution, placement.node.resolve placement.cell.wire wires = .ok resolution := by
  have h : (build wires columns requests).Invariant wires columns :=
    after_induction (P := fun grid => grid.Invariant wires columns)
      (fun _ request hgrid => hgrid.answer request) requests (invariant_empty wires columns)
  exact ⟨h, fun _ hmem => h.exists_resolve hmem⟩

end GateGrid.Grid

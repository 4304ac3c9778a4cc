import GateGrid.Grid
import Mathlib.Data.Nat.Basic

/-!
# What the cells of a grid hold

The slots of a grid stand in one row, wire after wire, and a cell finds its own by the numbers of
its wire and its column. Both numbers can be read off the slot again, so no two cells share a slot
and no slot is without a cell.

* `Grid.slot_inj`: different cells have different slots;
* `Grid.exists_cell`: every slot is the slot of a cell;
* `Grid.node?_write`: a write changes the content of one cell;
* `Grid.ext_node?`: a grid is known by its size and the contents of its cells.
-/

namespace GateGrid.Grid

variable {grid : Grid} {cell other : Cell}

/-! ### Cells and slots -/

theorem column_lt_of_contains (h : grid.Contains cell) :
    cell.column.index.toNat < grid.columns.toNat :=
  UInt32.lt_iff_toNat_lt.1 h.2

/-- The slot of a cell tells its wire. -/
theorem slot_div_columns (h : grid.Contains cell) :
    grid.slot cell / grid.columns.toNat = cell.wire.index.toNat := by
  have hc := column_lt_of_contains h
  rw [slot, Nat.mul_comm, Nat.mul_add_div (by omega), Nat.div_eq_of_lt hc, Nat.add_zero]

/-- The slot of a cell tells its column. -/
theorem slot_mod_columns (h : grid.Contains cell) :
    grid.slot cell % grid.columns.toNat = cell.column.index.toNat := by
  rw [slot, Nat.mul_comm, Nat.mul_add_mod, Nat.mod_eq_of_lt (column_lt_of_contains h)]

/-- Different cells have different slots. -/
theorem slot_inj (h : grid.Contains cell) (h' : grid.Contains other)
    (heq : grid.slot cell = grid.slot other) : cell = other := by
  have hw : cell.wire.index.toNat = other.wire.index.toNat := by
    rw [← slot_div_columns h, ← slot_div_columns h', heq]
  have hc : cell.column.index.toNat = other.column.index.toNat := by
    rw [← slot_mod_columns h, ← slot_mod_columns h', heq]
  obtain ⟨⟨w⟩, ⟨c⟩⟩ := cell
  obtain ⟨⟨w'⟩, ⟨c'⟩⟩ := other
  obtain rfl : w = w' := UInt32.toNat_inj.1 hw
  obtain rfl : c = c' := UInt32.toNat_inj.1 hc
  rfl

/-- Every slot is the slot of a cell. -/
theorem exists_cell {i : ℕ} (h : i < grid.slots.size) :
    ∃ cell, grid.Contains cell ∧ grid.slot cell = i := by
  rw [grid.size_slots] at h
  have hpos : 0 < grid.columns.toNat := Nat.pos_of_mul_pos_left (Nat.zero_lt_of_lt h)
  have hw : i / grid.columns.toNat < grid.wires.toNat :=
    Nat.div_lt_of_lt_mul (by rwa [Nat.mul_comm])
  have hc : i % grid.columns.toNat < grid.columns.toNat := Nat.mod_lt _ hpos
  -- Neither number is changed by being stored in 32 bits, as the size of the grid fits there.
  have hw' := UInt32.toNat_ofNat_of_lt' (Nat.lt_trans hw grid.wires.toNat_lt)
  have hc' := UInt32.toNat_ofNat_of_lt' (Nat.lt_trans hc grid.columns.toNat_lt)
  refine ⟨⟨⟨.ofNat (i / grid.columns.toNat)⟩, ⟨.ofNat (i % grid.columns.toNat)⟩⟩, ⟨?_, ?_⟩, ?_⟩
  · rw [UInt32.lt_iff_toNat_lt, hw']
    exact hw
  · rw [UInt32.lt_iff_toNat_lt, hc']
    exact hc
  · rw [slot, hw', hc', Nat.div_add_mod']

/-! ### Reading and writing -/

@[simp] theorem contains_write (content : Option Node) :
    (grid.write cell content).Contains other ↔ grid.Contains other := Iff.rfl

/-- The slot of a cell holds its node. -/
theorem getElem?_slot (h : grid.Contains cell) :
    grid.slots[grid.slot cell]? = some (grid.node? cell) := by
  rw [node?, Array.getElem?_eq_getElem (slot_lt h), Option.join_some]

/-- Reading a cell succeeds in the grid, and tells its node. -/
theorem get_eq_ok_iff {content : Option Node} :
    grid.get cell = .ok content ↔ grid.Contains cell ∧ grid.node? cell = content := by
  rw [get]
  split
  · next h => simp [h]
  · next h => simp [h]

/-- The cells of an empty grid are empty. -/
@[simp] theorem node?_empty (wires columns : UInt32) : (empty wires columns).node? cell = none := by
  rw [node?, empty, Array.getElem?_replicate]
  split <;> rfl

/-- A cell holds what is written into it. -/
theorem node?_write_self (h : grid.Contains cell) (content : Option Node) :
    (grid.write cell content).node? cell = content := by
  have hs : (grid.write cell content).slots[grid.slot cell]? = some content := by
    rw [write, Array.getElem?_setIfInBounds_self_of_lt (slot_lt h)]
  exact congrArg Option.join hs

/-- A write leaves every other cell as it was. -/
theorem node?_write_of_ne (h : grid.Contains cell) (h' : grid.Contains other) (hne : other ≠ cell)
    (content : Option Node) : (grid.write cell content).node? other = grid.node? other := by
  have hs : grid.slot cell ≠ grid.slot other := fun heq => hne (slot_inj h h' heq).symm
  change ((grid.slots.setIfInBounds _ _)[grid.slot other]?).join = _
  rw [Array.getElem?_setIfInBounds_ne hs, node?]

/-- A write changes the content of one cell. -/
theorem node?_write (h : grid.Contains cell) (h' : grid.Contains other) (content : Option Node) :
    (grid.write cell content).node? other = if other = cell then content else grid.node? other := by
  split
  · next heq => rw [heq, node?_write_self h]
  · next hne => rw [node?_write_of_ne h h' hne]

/-- A grid is known by its size and the contents of its cells. -/
theorem ext_node? {a b : Grid} (hw : a.wires = b.wires) (hc : a.columns = b.columns)
    (h : ∀ cell, a.Contains cell → a.node? cell = b.node? cell) : a = b := by
  obtain ⟨wires, columns, slots, hsize⟩ := a
  obtain ⟨wires', columns', slots', hsize'⟩ := b
  obtain rfl : wires = wires' := hw
  obtain rfl : columns = columns' := hc
  congr
  refine Array.ext (hsize.trans hsize'.symm) fun i hi hi' => ?_
  -- The two grids have the same size, so a cell has the same slot in both.
  let a : Grid := ⟨wires, columns, slots, hsize⟩
  let b : Grid := ⟨wires, columns, slots', hsize'⟩
  obtain ⟨cell, hcell, rfl⟩ := a.exists_cell hi
  have hs : slots[a.slot cell]? = slots'[a.slot cell]? := by
    calc slots[a.slot cell]? = some (a.node? cell) := a.getElem?_slot hcell
      _ = some (b.node? cell) := by rw [h cell hcell]
      _ = slots'[a.slot cell]? := (b.getElem?_slot hcell).symm
  rwa [Array.getElem?_eq_getElem hi, Array.getElem?_eq_getElem hi', Option.some_inj] at hs

/-- Writing what a cell holds changes nothing. -/
theorem write_node? (h : grid.Contains cell) : grid.write cell (grid.node? cell) = grid := by
  refine ext_node? rfl rfl fun other hother => ?_
  rw [node?_write h hother]
  split
  · next heq => rw [heq]
  · rfl

end GateGrid.Grid

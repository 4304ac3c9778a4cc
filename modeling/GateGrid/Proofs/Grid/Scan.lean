import GateGrid.Proofs.Grid.Content
import Mathlib.Data.List.Basic
import Mathlib.Data.List.Nodup

/-!
# Walking a grid in the order of time

The slots of a grid stand wire by wire, and the cells are walked column by column. The walk counts
through one range of numbers and splits each number into a wire and a column. It is the same as two
loops, one inside the other, that ask the grid for each cell in turn.

* `Cell.Before`: the order of time; `Grid.pairwise_cells`: the walk keeps to it;
* `Grid.scan`: the nodes found by the two loops;
* `Grid.placements_eq_scan`: the walk finds the same nodes in the same order;
* `Grid.mem_placements`: it finds a node in a cell if and only if reading the cell tells it;
* `Grid.length_placements`: it finds as many nodes as there are slots in use, since the cells and
  the slots are the same up to their order (`Grid.map_node?_cells_perm`);
* `Grid.placements_walk`: all of this at once, with the order in which the nodes are found.
-/

namespace GateGrid

/-- The columns of a grid with `count` of them, in the order of time. -/
def Column.range (count : UInt32) : List Column :=
  (List.range count.toNat).map fun i => ⟨UInt32.ofNat i⟩

/-- The numbers below a bound of 32 bits, stored in 32 bits. -/
theorem exists_range_ofNat_iff {count index : UInt32} :
    (∃ i ∈ List.range count.toNat, UInt32.ofNat i = index) ↔ index < count := by
  rw [UInt32.lt_iff_toNat_lt]
  constructor
  · rintro ⟨i, hi, rfl⟩
    rw [List.mem_range] at hi
    rwa [UInt32.toNat_ofNat_of_lt' (Nat.lt_trans hi count.toNat_lt)]
  · intro h
    exact ⟨index.toNat, List.mem_range.2 h, UInt32.ofNat_toNat⟩

theorem Wire.mem_range {count : UInt32} {wire : Wire} :
    wire ∈ Wire.range count ↔ wire.index < count := by
  obtain ⟨index⟩ := wire
  rw [Wire.range, List.mem_map, ← exists_range_ofNat_iff]
  simp only [Wire.mk.injEq]

theorem Column.mem_range {count : UInt32} {column : Column} :
    column ∈ Column.range count ↔ column.index < count := by
  obtain ⟨index⟩ := column
  rw [Column.range, List.mem_map, ← exists_range_ofNat_iff]
  simp only [Column.mk.injEq]

/-- A cell comes before another one in the order of time: in an earlier column, or above it in the
    same column. -/
def Cell.Before (cell other : Cell) : Prop :=
  cell.column.index < other.column.index ∨
    cell.column.index = other.column.index ∧ cell.wire.index < other.wire.index

instance (cell other : Cell) : Decidable (cell.Before other) :=
  inferInstanceAs (Decidable (_ ∨ _))

/-- Of two cells at most one comes before the other. -/
theorem Cell.Before.asymm {cell other : Cell} (h : cell.Before other) : ¬other.Before cell := by
  rcases h with hc | ⟨hc, hw⟩
  · rintro (hc' | ⟨hc', _⟩)
    · exact UInt32.lt_asymm hc hc'
    · exact UInt32.ne_of_lt hc hc'.symm
  · rintro (hc' | ⟨_, hw'⟩)
    · exact UInt32.ne_of_lt hc' hc.symm
    · exact UInt32.lt_asymm hw hw'

theorem Cell.Before.ne {cell other : Cell} (h : cell.Before other) : cell ≠ other := by
  rintro rfl
  exact h.asymm h

/-- A range of `n * m` numbers is `m` stretches of `n` numbers each. -/
theorem range_mul_eq_flatMap (n m : ℕ) :
    List.range (n * m) = (List.range m).flatMap fun q => (List.range n).map (n * q + ·) := by
  induction m with
  | zero => rfl
  | succ m ih =>
    rw [Nat.mul_succ, List.range_add, ih, List.range_succ, List.flatMap_append,
      List.flatMap_singleton]

namespace Grid

variable {grid : Grid} {cell : Cell}

/-! ### The cells in the order of time -/

/-- The number of a cell in the order of time. -/
def moment (grid : Grid) (cell : Cell) : ℕ :=
  cell.column.index.toNat * grid.wires.toNat + cell.wire.index.toNat

/-- The cells are numbered in the order in which they are walked. -/
theorem map_moment_cells (grid : Grid) :
    grid.cells.map grid.moment = List.range (grid.wires.toNat * grid.columns.toNat) := by
  rw [cells, List.map_map]
  refine (List.map_congr_left fun i hi => ?_).trans (List.map_id _)
  -- Storing the two parts of a number in 32 bits loses nothing, as both are within the size.
  rw [List.mem_range] at hi
  have hw : i % grid.wires.toNat < grid.wires.toNat :=
    Nat.mod_lt _ (Nat.pos_of_mul_pos_right (Nat.zero_lt_of_lt hi))
  have hc : i / grid.wires.toNat < grid.columns.toNat := Nat.div_lt_of_lt_mul hi
  change (UInt32.ofNat (i / _)).toNat * _ + (UInt32.ofNat (i % _)).toNat = i
  rw [UInt32.toNat_ofNat_of_lt' (Nat.lt_trans hw grid.wires.toNat_lt),
    UInt32.toNat_ofNat_of_lt' (Nat.lt_trans hc grid.columns.toNat_lt), Nat.div_add_mod']

/-- No cell is walked twice. -/
theorem nodup_cells (grid : Grid) : grid.cells.Nodup := by
  refine List.Nodup.of_map grid.moment ?_
  rw [map_moment_cells]
  exact List.nodup_range

/-- The cells are walked by two loops: over the columns, and over the wires in each of them. -/
theorem cells_eq_flatMap (grid : Grid) :
    grid.cells = (Column.range grid.columns).flatMap fun column =>
      (Wire.range grid.wires).map fun wire => ⟨wire, column⟩ := by
  rw [cells, range_mul_eq_flatMap, List.map_flatMap, Column.range, List.flatMap_map]
  refine List.flatMap_congr fun q _ => ?_
  rw [List.map_map, Wire.range, List.map_map]
  refine List.map_congr_left fun r hr => ?_
  rw [List.mem_range] at hr
  have hmod : (grid.wires.toNat * q + r) % grid.wires.toNat = r := by
    rw [Nat.mul_add_mod, Nat.mod_eq_of_lt hr]
  have hdiv : (grid.wires.toNat * q + r) / grid.wires.toNat = q := by
    rw [Nat.mul_add_div (Nat.zero_lt_of_lt hr), Nat.div_eq_of_lt hr, Nat.add_zero]
  simp only [Function.comp_apply, hmod, hdiv]

/-- The cells that are walked are those of the grid. -/
theorem mem_cells : cell ∈ grid.cells ↔ grid.Contains cell := by
  rw [cells_eq_flatMap, List.mem_flatMap]
  constructor
  · rintro ⟨column, hc, h⟩
    obtain ⟨wire, hw, rfl⟩ := List.mem_map.1 h
    exact ⟨Wire.mem_range.1 hw, Column.mem_range.1 hc⟩
  · intro h
    exact ⟨cell.column, Column.mem_range.2 h.2,
      List.mem_map.2 ⟨cell.wire, Wire.mem_range.2 h.1, rfl⟩⟩

/-- A cell with a smaller number comes before one with a larger number. -/
theorem before_of_moment_lt {other : Cell} (hcell : grid.Contains cell)
    (h : grid.moment cell < grid.moment other) (hother : grid.Contains other) :
    cell.Before other := by
  have hw := UInt32.lt_iff_toNat_lt.1 hcell.1
  have hw' := UInt32.lt_iff_toNat_lt.1 hother.1
  rw [moment, moment] at h
  rcases Nat.lt_trichotomy cell.column.index.toNat other.column.index.toNat with hc | hc | hc
  · exact .inl (UInt32.lt_iff_toNat_lt.2 hc)
  · rw [hc] at h
    exact .inr ⟨UInt32.toNat_inj.1 hc, UInt32.lt_iff_toNat_lt.2 (by omega)⟩
  · -- In a later column all numbers are larger.
    have hmul := Nat.mul_le_mul_right grid.wires.toNat hc
    rw [Nat.succ_mul] at hmul
    omega

/-- The cells are walked in the order of time. -/
theorem pairwise_cells (grid : Grid) : grid.cells.Pairwise Cell.Before := by
  have hmoments : (grid.cells.map grid.moment).Pairwise (· < ·) := by
    rw [map_moment_cells]
    exact List.pairwise_lt_range
  rw [List.pairwise_map] at hmoments
  exact hmoments.imp_of_mem fun hcell hother h =>
    before_of_moment_lt (mem_cells.1 hcell) h (mem_cells.1 hother)

/-! ### The nodes in the order of time -/

/-- The nodes that two loops find, one over the columns in the order of time and inside it one over
    the wires from the top, by reading each cell. -/
def scan (grid : Grid) : List Placement :=
  (Column.range grid.columns).flatMap fun column =>
    (Wire.range grid.wires).filterMap fun wire =>
      match grid.get ⟨wire, column⟩ with
      | .ok (some node) => some ⟨⟨wire, column⟩, node⟩
      | _ => none

/-- The walk finds what the two loops find, in the same order. -/
theorem placements_eq_scan (grid : Grid) : grid.placements = grid.scan := by
  rw [placements, cells_eq_flatMap, List.filterMap_flatMap, scan]
  refine List.flatMap_congr fun column hc => ?_
  rw [List.filterMap_map]
  refine List.filterMap_congr fun wire hw => ?_
  have h : grid.Contains ⟨wire, column⟩ := ⟨Wire.mem_range.1 hw, Column.mem_range.1 hc⟩
  rw [get_eq_ok_iff.2 ⟨h, rfl⟩, Function.comp_apply]
  cases grid.node? ⟨wire, column⟩ <;> rfl

/-- The walk finds a node in a cell if and only if reading the cell tells it. -/
theorem mem_placements {placement : Placement} :
    placement ∈ grid.placements ↔ grid.get placement.cell = .ok (some placement.node) := by
  rw [placements, List.mem_filterMap, get_eq_ok_iff]
  constructor
  · rintro ⟨cell, hcell, h⟩
    obtain ⟨node, hnode, rfl⟩ := Option.map_eq_some_iff.1 h
    exact ⟨mem_cells.1 hcell, hnode⟩
  · rintro ⟨hcell, hnode⟩
    exact ⟨placement.cell, mem_cells.2 hcell, by rw [hnode]; rfl⟩

/-- The walk finds the nodes in the order of time. -/
theorem pairwise_placements (grid : Grid) :
    grid.placements.Pairwise fun earlier later => earlier.cell.Before later.cell := by
  rw [placements, List.pairwise_filterMap]
  refine grid.pairwise_cells.imp fun hbefore earlier hearlier later hlater => ?_
  obtain ⟨_, _, rfl⟩ := Option.map_eq_some_iff.1 hearlier
  obtain ⟨_, _, rfl⟩ := Option.map_eq_some_iff.1 hlater
  exact hbefore

/-! ### Counting -/

/-- The slots of the cells are all slots, in another order. -/
theorem map_slot_cells_perm (grid : Grid) :
    (grid.cells.map grid.slot).Perm (List.range grid.slots.size) := by
  have hnodup : (grid.cells.map grid.slot).Nodup :=
    grid.nodup_cells.map_on fun a ha b hb h => slot_inj (mem_cells.1 ha) (mem_cells.1 hb) h
  rw [List.perm_ext_iff_of_nodup hnodup List.nodup_range]
  intro i
  rw [List.mem_map, List.mem_range]
  constructor
  · rintro ⟨cell, hcell, rfl⟩
    exact slot_lt (mem_cells.1 hcell)
  · intro hi
    obtain ⟨cell, hcell, h⟩ := exists_cell hi
    exact ⟨cell, mem_cells.2 hcell, h⟩

/-- The contents of the cells in the order of time are the slots, in another order. -/
theorem map_node?_cells_perm (grid : Grid) :
    (grid.cells.map grid.node?).Perm grid.slots.toList := by
  have hslots : (List.range grid.slots.size).map (fun i => grid.slots[i]?.join) =
      grid.slots.toList := by
    refine List.ext_getElem (by simp) fun i hi hi' => ?_
    simp at hi'
    simp [hi']
  rw [← hslots]
  have h := grid.map_slot_cells_perm.map fun i => grid.slots[i]?.join
  rwa [List.map_map] at h

/-- The walk finds as many nodes as there are slots in use. -/
theorem length_placements (grid : Grid) : grid.placements.length = grid.numOccupied := by
  calc grid.placements.length
      = grid.cells.countP fun cell => (grid.node? cell).isSome := by
        rw [placements, List.length_filterMap_eq_countP]
        simp
    _ = (grid.cells.map grid.node?).countP Option.isSome := by
        rw [List.countP_map]
        rfl
    _ = grid.slots.toList.countP Option.isSome := grid.map_node?_cells_perm.countP_eq _
    _ = grid.numOccupied := Array.countP_toList

/-- The walk finds nothing exactly if no slot is in use. -/
theorem isEmpty_iff_placements (grid : Grid) : grid.isEmpty ↔ grid.placements = [] := by
  rw [← List.length_eq_zero_iff, length_placements, numOccupied, Array.countP_eq_zero, isEmpty,
    Array.all_eq_true_iff_forall_mem]
  simp only [Option.isNone_iff_eq_none, Option.not_isSome_iff_eq_none]

/-- In any grid, the walk goes strictly forward in time, finds a node in a cell if and only if
    reading the cell tells it, finds as many nodes as there are slots in use, and finds none exactly
    if the grid is empty. -/
theorem placements_walk (grid : Grid) :
    (grid.placements.Pairwise fun earlier later =>
      earlier.cell.column.index < later.cell.column.index ∨
        earlier.cell.column.index = later.cell.column.index ∧
          earlier.cell.wire.index < later.cell.wire.index) ∧
    (∀ cell node, ⟨cell, node⟩ ∈ grid.placements ↔ grid.get cell = .ok (some node)) ∧
    grid.placements.length = grid.numOccupied ∧
    (grid.isEmpty ↔ grid.placements = []) :=
  ⟨grid.pairwise_placements, fun _ _ => mem_placements, grid.length_placements,
    grid.isEmpty_iff_placements⟩

end Grid

end GateGrid

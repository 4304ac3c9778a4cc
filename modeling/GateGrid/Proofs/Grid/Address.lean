import GateGrid.Proofs.Grid.Run
import GateGrid.Proofs.Grid.Scan
import Mathlib.Data.Set.Function
import Mathlib.Order.Interval.Set.Defs

/-!
# Addresses in machine words

The slots of a grid are counted by natural numbers, which know no bound. A machine counts in words
of 64 bits, and it stops where a number does not fit and where there is no slot. Here a grid is
addressed in this way: every sum and every product is checked, and so is every access to the slots.

No check ever fails. The numbers of wires and of columns have 32 bits each, so that 64 bits are
enough for the number of slots, and no number that is computed on the way is larger.

* `Word.add?`, `Word.mul?`: sums and products that fit into a word;
* `Grid.load?`, `Grid.store?`, `Grid.slice?`: checked accesses to a cell and to a row;
* `Grid.answer?`, `Grid.walk?`: requests and the walk in the order of time, by checked accesses;
* `Grid.bijOn_slot`: the cells and the slots belong together one by one;
* `Grid.row_eq_map`, `Grid.flatMap_row`: a row holds what its cells hold, and the rows are all
  slots;
* `Grid.addressing_build`: after any run, all numbers fit and all accesses find a slot.
-/

namespace GateGrid

/-! ### Words -/

namespace Word

/-- The sum of two words, if it is a word. -/
def add? (a b : UInt64) : Option UInt64 :=
  if a.toNat + b.toNat < UInt64.size then some (a + b) else none

/-- The product of two words, if it is a word. -/
def mul? (a b : UInt64) : Option UInt64 :=
  if a.toNat * b.toNat < UInt64.size then some (a * b) else none

variable {a b : UInt64}

theorem exists_add? (h : a.toNat + b.toNat < UInt64.size) :
    ∃ sum, add? a b = some sum ∧ sum.toNat = a.toNat + b.toNat :=
  ⟨a + b, if_pos h, by rw [UInt64.toNat_add, Nat.mod_eq_of_lt h]⟩

theorem exists_mul? (h : a.toNat * b.toNat < UInt64.size) :
    ∃ product, mul? a b = some product ∧ product.toNat = a.toNat * b.toNat :=
  ⟨a * b, if_pos h, by rw [UInt64.toNat_mul, Nat.mod_eq_of_lt h]⟩

/-- Two numbers of 32 bits have a product of 64 bits. The first one may also be the next number, as
    it is where the row of the last wire ends. -/
theorem mul_lt_size {m n : ℕ} (hm : m ≤ UInt32.size) (hn : n < UInt32.size) :
    m * n < UInt64.size :=
  calc m * n ≤ UInt32.size * n := Nat.mul_le_mul_right n hm
    _ < UInt32.size * UInt32.size := Nat.mul_lt_mul_of_pos_left hn (by decide)
    _ = UInt64.size := by decide

/-- The product of two numbers of 32 bits is a word. -/
theorem exists_mul?_toUInt64 (m n : UInt32) :
    ∃ product, mul? m.toUInt64 n.toUInt64 = some product ∧
      product.toNat = m.toNat * n.toNat := by
  have h := mul_lt_size m.toNat_lt.le n.toNat_lt
  rw [← UInt32.toNat_toUInt64, ← UInt32.toNat_toUInt64] at h ⊢
  exact exists_mul? h

end Word

open Word (add? mul?)

namespace Grid

variable {grid : Grid} {cell : Cell} {wire : Wire}

/-! ### Checked computations -/

/-- The number of slots of a grid, computed in words. -/
def capacity? (wires columns : UInt32) : Option UInt64 :=
  mul? wires.toUInt64 columns.toUInt64

/-- The slot of a cell, computed in words. -/
def address? (grid : Grid) (cell : Cell) : Option UInt64 := do
  let start ← mul? cell.wire.index.toUInt64 grid.columns.toUInt64
  add? start cell.column.index.toUInt64

/-- The slots where the row of a wire starts and where it ends, computed in words. -/
def bounds? (grid : Grid) (wire : Wire) : Option (UInt64 × UInt64) := do
  let start ← mul? wire.index.toUInt64 grid.columns.toUInt64
  let next ← add? wire.index.toUInt64 1
  let stop ← mul? next grid.columns.toUInt64
  return (start, stop)

/-- The content of a cell. There has to be a slot at its address. -/
def load? (grid : Grid) (cell : Cell) : Option (Option Node) := do
  let address ← grid.address? cell
  grid.slots[address.toNat]?

/-- The grid with another content in a cell. There has to be a slot at its address. -/
def store? (grid : Grid) (cell : Cell) (content : Option Node) : Option Grid := do
  let address ← grid.address? cell
  if h : address.toNat < grid.slots.size then
    some { grid with
      slots := grid.slots.set address.toNat content h
      size_slots := by rw [Array.size_set, grid.size_slots] }
  else none

/-- The slots of a wire. They have to end where the slots end or before, and not before they
    start. -/
def slice? (grid : Grid) (wire : Wire) : Option (List (Option Node)) := do
  let (start, stop) ← grid.bounds? wire
  if start.toNat ≤ stop.toNat ∧ stop.toNat ≤ grid.slots.size then
    some (grid.slots.extract start.toNat stop.toNat).toList
  else none

/-- The answer to a request about a cell of the grid, by checked accesses. -/
def access? (grid : Grid) : Request → Option (Except Error Reply × Grid)
  | .set cell node =>
    match node.check cell.wire grid.wires with
    | .error reason => some (.error (.malformed cell reason), grid)
    | .ok () => do
      let next ← grid.store? cell (some node)
      return (.ok .stored, next)
  | .get cell => do
    let content ← grid.load? cell
    return (.ok (.content content), grid)
  | .clear cell => do
    let content ← grid.load? cell
    let next ← grid.store? cell none
    return (.ok (.content content), next)

/-- The answer to a request. A cell outside the grid is refused and not accessed. -/
def answer? (grid : Grid) (request : Request) : Option (Except Error Reply × Grid) :=
  if grid.Contains request.cell then grid.access? request
  else some (.error (.outside request.cell grid.wires grid.columns), grid)

/-- What a walk finds in a cell, by a checked access. -/
def visit? (grid : Grid) (cell : Cell) : Option (Option Placement) := do
  let content ← grid.load? cell
  return content.map fun node => ⟨cell, node⟩

/-- The nodes of the grid with their cells, in the order of time, by checked accesses. -/
def walk? (grid : Grid) : Option (List Placement) := do
  let found ← grid.cells.mapM grid.visit?
  return found.reduceOption

/-! ### No number is too large -/

/-- The number of slots is a word. -/
theorem size_slots_lt (grid : Grid) : grid.slots.size < UInt64.size := by
  rw [grid.size_slots]
  exact Word.mul_lt_size grid.wires.toNat_lt.le grid.columns.toNat_lt

theorem exists_address? (h : grid.Contains cell) :
    ∃ address, grid.address? cell = some address ∧ address.toNat = grid.slot cell := by
  obtain ⟨start, hstart, htoNat⟩ := Word.exists_mul?_toUInt64 cell.wire.index grid.columns
  have hsum : start.toNat + cell.column.index.toUInt64.toNat = grid.slot cell := by
    rw [htoNat, UInt32.toNat_toUInt64, slot]
  have hlt : start.toNat + cell.column.index.toUInt64.toNat < UInt64.size := by
    rw [hsum]
    exact (slot_lt h).trans grid.size_slots_lt
  obtain ⟨address, haddress, heq⟩ := Word.exists_add? hlt
  refine ⟨address, ?_, heq.trans hsum⟩
  rw [address?, hstart]
  exact haddress

theorem exists_bounds? (h : wire.index < grid.wires) :
    ∃ start stop, grid.bounds? wire = some (start, stop) ∧
      start.toNat = wire.index.toNat * grid.columns.toNat ∧
      stop.toNat = (wire.index.toNat + 1) * grid.columns.toNat := by
  have hnext : wire.index.toNat + 1 ≤ UInt32.size :=
    (UInt32.lt_iff_toNat_lt.1 h).trans_le grid.wires.toNat_lt.le
  obtain ⟨start, hstart, hstart'⟩ := Word.exists_mul?_toUInt64 wire.index grid.columns
  obtain ⟨next, hadd, hadd'⟩ : ∃ next, add? wire.index.toUInt64 1 = some next ∧
      next.toNat = wire.index.toNat + 1 := by
    rw [← UInt32.toNat_toUInt64] at hnext ⊢
    exact Word.exists_add? (hnext.trans_lt (by decide))
  obtain ⟨stop, hstop, hstop'⟩ : ∃ stop, mul? next grid.columns.toUInt64 = some stop ∧
      stop.toNat = (wire.index.toNat + 1) * grid.columns.toNat := by
    have hlt := Word.mul_lt_size hnext grid.columns.toNat_lt
    rw [← hadd', ← UInt32.toNat_toUInt64] at hlt ⊢
    exact Word.exists_mul? hlt
  refine ⟨start, stop, ?_, hstart', hstop'⟩
  rw [bounds?, hstart, hadd]
  change (mul? next _).bind _ = _
  rw [hstop]
  rfl

/-! ### Cells, slots and rows -/

/-- The cells and the slots belong together one by one. -/
theorem bijOn_slot (grid : Grid) :
    Set.BijOn grid.slot {cell | grid.Contains cell} (Set.Iio grid.slots.size) :=
  ⟨fun _ hcell => slot_lt hcell, fun _ hcell _ hother heq => slot_inj hcell hother heq,
    fun _ hi => exists_cell hi⟩

/-- A row is a part of the slots. -/
theorem row_eq_take_drop (grid : Grid) (wire : Wire) :
    grid.row wire = (grid.slots.toList.drop (wire.index.toNat * grid.columns.toNat)).take
      grid.columns.toNat := by
  rw [row, Array.toList_extract, List.extract_eq_take_drop, Nat.add_sub_cancel_left]

/-- The row of a wire ends where the slots end or before. -/
theorem stop_le_size (h : wire.index < grid.wires) :
    (wire.index.toNat + 1) * grid.columns.toNat ≤ grid.slots.size := by
  rw [grid.size_slots]
  exact Nat.mul_le_mul_right _ (UInt32.lt_iff_toNat_lt.1 h)

/-- A row holds what its cells hold, in the order of the columns. -/
theorem row_eq_map (h : wire.index < grid.wires) :
    grid.row wire = (Column.range grid.columns).map fun column => grid.node? ⟨wire, column⟩ := by
  have hstop := stop_le_size h
  rw [Nat.succ_mul] at hstop
  rw [row_eq_take_drop, Column.range, List.map_map]
  refine List.ext_getElem ?_ fun i hi hi' => ?_
  · rw [List.length_take, List.length_drop, Array.length_toList, List.length_map,
      List.length_range]
    omega
  · rw [List.length_map, List.length_range] at hi'
    have hi32 := UInt32.toNat_ofNat_of_lt' (Nat.lt_trans hi' grid.columns.toNat_lt)
    have hcell : grid.Contains ⟨wire, ⟨UInt32.ofNat i⟩⟩ := by
      refine ⟨h, UInt32.lt_iff_toNat_lt.2 ?_⟩
      rw [hi32]
      exact hi'
    have hslot : grid.slots[wire.index.toNat * grid.columns.toNat + i]? =
        some (grid.node? ⟨wire, ⟨UInt32.ofNat i⟩⟩) := by
      rw [← getElem?_slot hcell, slot, hi32]
    rw [Array.getElem?_eq_getElem (by omega), Option.some_inj] at hslot
    rw [List.getElem_take, List.getElem_drop, Array.getElem_toList, hslot, List.getElem_map,
      List.getElem_range]
    rfl

/-- The parts of a list between the multiples of a number make up the list. -/
theorem flatMap_range_take_drop {α : Type} (list : List α) (step count : ℕ) :
    ((List.range count).flatMap fun i => (list.drop (i * step)).take step) =
      list.take (count * step) := by
  induction count with
  | zero => simp
  | succ count ih =>
    rw [List.range_succ, List.flatMap_append, ih, List.flatMap_singleton, Nat.succ_mul,
      List.take_add]

/-- The rows, from the top, are all slots. -/
theorem flatMap_row (grid : Grid) :
    (Wire.range grid.wires).flatMap grid.row = grid.slots.toList := by
  have hrow : ∀ i ∈ List.range grid.wires.toNat, grid.row ⟨UInt32.ofNat i⟩ =
      (grid.slots.toList.drop (i * grid.columns.toNat)).take grid.columns.toNat := by
    intro i hi
    rw [row_eq_take_drop,
      UInt32.toNat_ofNat_of_lt' (Nat.lt_trans (List.mem_range.1 hi) grid.wires.toNat_lt)]
  rw [Wire.range, List.flatMap_map, List.flatMap_congr hrow, flatMap_range_take_drop,
    List.take_of_length_le]
  rw [Array.length_toList, grid.size_slots]

/-! ### No access fails -/

theorem load?_eq (h : grid.Contains cell) : grid.load? cell = some (grid.node? cell) := by
  obtain ⟨address, haddress, heq⟩ := exists_address? h
  rw [load?, haddress]
  change grid.slots[address.toNat]? = _
  rw [heq, getElem?_slot h]

theorem store?_eq (h : grid.Contains cell) (content : Option Node) :
    grid.store? cell content = some (grid.write cell content) := by
  obtain ⟨address, haddress, heq⟩ := exists_address? h
  have hlt : address.toNat < grid.slots.size := by
    rw [heq]
    exact slot_lt h
  rw [store?, haddress]
  change (if h : address.toNat < grid.slots.size then _ else _) = _
  rw [dif_pos hlt]
  simp only [heq, write, Array.setIfInBounds, dif_pos (slot_lt h)]

theorem slice?_eq (h : wire.index < grid.wires) : grid.slice? wire = some (grid.row wire) := by
  obtain ⟨start, stop, hbounds, hstart, hstop⟩ := exists_bounds? h
  have hle : start.toNat ≤ stop.toNat ∧ stop.toNat ≤ grid.slots.size := by
    rw [hstart, hstop]
    exact ⟨Nat.mul_le_mul_right _ (Nat.le_succ _), stop_le_size h⟩
  rw [slice?, hbounds]
  change (if start.toNat ≤ stop.toNat ∧ stop.toNat ≤ grid.slots.size then _ else _) = _
  rw [if_pos hle, hstart, hstop, row, Nat.succ_mul]

theorem answer?_eq (grid : Grid) (request : Request) :
    grid.answer? request = some (grid.answer request) := by
  obtain ⟨h, heq⟩ | ⟨cell, node, reason, rfl, h, hcheck, heq⟩ | ⟨cell, node, rfl, h, hcheck, heq⟩ |
    ⟨cell, rfl, h, heq⟩ | ⟨cell, rfl, h, heq⟩ := grid.answer_cases request
  -- Only the first two make no access: the cell is outside, or the node does not fit.
  · rw [answer?, if_neg h, heq]
  · rw [answer?, Request.cell, if_pos h, heq, access?, hcheck]
  · rw [answer?, Request.cell, if_pos h, heq, access?, hcheck, store?_eq h]
    rfl
  · rw [answer?, Request.cell, if_pos h, heq, access?, load?_eq h]
    rfl
  · rw [answer?, Request.cell, if_pos h, heq, access?, load?_eq h, store?_eq h]
    rfl

/-- A loop over a list succeeds if each of its steps does. -/
theorem mapM_eq_some {α β : Type} {step? : α → Option β} {step : α → β} {list : List α}
    (h : ∀ a ∈ list, step? a = some (step a)) : list.mapM step? = some (list.map step) := by
  induction list with
  | nil => rfl
  | cons a list ih =>
    rw [List.forall_mem_cons] at h
    rw [List.mapM_cons, h.1, ih h.2]
    rfl

theorem walk?_eq (grid : Grid) : grid.walk? = some grid.placements := by
  have hvisit : ∀ cell ∈ grid.cells, grid.visit? cell =
      some ((grid.node? cell).map fun node => ⟨cell, node⟩) := by
    intro cell hcell
    rw [visit?, load?_eq (mem_cells.1 hcell)]
    rfl
  rw [walk?, mapM_eq_some hvisit]
  change some (List.filterMap id _) = _
  rw [List.filterMap_map]
  rfl

/-- The slots of a grid with `wires` wires and `columns` columns are addressed without fail. -/
structure Addressing (grid : Grid) (wires columns : UInt32) : Prop where
  /-- The number of slots fits into a word. -/
  capacity : ∃ count, capacity? wires columns = some count ∧ count.toNat = grid.slots.size
  /-- So does the address of a cell, which is its slot. -/
  address : ∀ cell : Cell, cell.wire.index < wires → cell.column.index < columns →
    ∃ address, grid.address? cell = some address ∧ address.toNat = grid.slot cell
  /-- So do the numbers of the slots where the row of a wire starts and where it ends. -/
  bounds : ∀ wire : Wire, wire.index < wires →
    ∃ start stop, grid.bounds? wire = some (start, stop) ∧
      start.toNat = wire.index.toNat * columns.toNat ∧
      stop.toNat = (wire.index.toNat + 1) * columns.toNat
  /-- The cells and the numbers of the slots belong together one by one. -/
  bijOn : Set.BijOn grid.slot {cell | cell.wire.index < wires ∧ cell.column.index < columns}
    (Set.Iio (wires.toNat * columns.toNat))
  /-- There is a slot at the address of a cell, and it holds what reading the cell tells. -/
  load : ∀ cell : Cell, cell.wire.index < wires → cell.column.index < columns →
    ∃ content, grid.load? cell = some content ∧ grid.get cell = .ok content
  /-- Writing a cell finds that slot too. -/
  store : ∀ cell : Cell, cell.wire.index < wires → cell.column.index < columns → ∀ content,
    grid.store? cell content = some (grid.write cell content)
  /-- So every request is answered, whatever cell it is about. -/
  answer : ∀ request, grid.answer? request = some (grid.answer request)
  /-- Walking the cells finds a slot each time, and so all nodes. -/
  walk : grid.walk? = some grid.placements
  /-- The slots of a row are there, and hold what reading its cells tells. -/
  slice : ∀ wire : Wire, wire.index < wires →
    grid.slice? wire = some (grid.row wire) ∧
    (grid.row wire).map .ok = (Column.range columns).map fun column => grid.get ⟨wire, column⟩
  /-- The rows, from the top, are all slots. -/
  rows : (Wire.range wires).flatMap grid.row = grid.slots.toList

/-- After any run, with any size of the grid, all numbers fit into words and all accesses find a
    slot. -/
theorem addressing_build (wires columns : UInt32) (requests : List Request) :
    (build wires columns requests).Addressing wires columns := by
  obtain ⟨grid, hgrid⟩ : ∃ grid, build wires columns requests = grid := ⟨_, rfl⟩
  have hw : grid.wires = wires := by rw [← hgrid, wires_build]
  have hc : grid.columns = columns := by rw [← hgrid, columns_build]
  rw [hgrid]
  subst hw hc
  refine ⟨?_, fun cell hw hc => exists_address? ⟨hw, hc⟩, fun wire hw => exists_bounds? hw, ?_,
    fun cell hw hc => ?_, fun cell hw hc content => store?_eq ⟨hw, hc⟩ content,
    grid.answer?_eq, grid.walk?_eq, fun wire hw => ⟨slice?_eq hw, ?_⟩, grid.flatMap_row⟩
  · rw [grid.size_slots]
    exact Word.exists_mul?_toUInt64 grid.wires grid.columns
  · rw [← grid.size_slots]
    exact grid.bijOn_slot
  · exact ⟨_, load?_eq ⟨hw, hc⟩, get_eq_ok_iff.2 ⟨⟨hw, hc⟩, rfl⟩⟩
  · rw [row_eq_map hw, List.map_map]
    refine List.map_congr_left fun column hcolumn => ?_
    exact (get_eq_ok_iff.2 ⟨⟨hw, Column.mem_range.1 hcolumn⟩, rfl⟩).symm

end Grid

end GateGrid

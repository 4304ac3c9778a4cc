import GateGrid.Proofs.Compile
import GateGrid.Proofs.Grid.Store

/-!
# Grids side by side in time

Two grids with the same wires can be put side by side: first the columns of the one, then those of
the other. The slots of the whole are not those of its parts, since a wire now has more of them; but
the walk in the order of time goes through the one grid, and then through the other. So the whole is
compiled as its parts are, one after the other. What is refused in the second part is refused in the
whole, in a cell that lies as many columns later as the first part has.

* `Grid.Joins`: a grid is made of two others;
* `Grid.Joins.placements_eq`: its nodes are those of the first grid, and then those of the second;
* `Grid.Joins.fst_compile`: what a policy makes of it;
* `Grid.exists_joins`: grids after any runs can be put side by side, by a run;
* `Grid.compile_joins_build`: both policies on the whole and on its parts.
-/

namespace GateGrid

/-! ### Later columns -/

/-- The column that lies `count` columns later. -/
def Column.delay (column : Column) (count : UInt32) : Column := ⟨column.index + count⟩

/-- The cell on the same wire that lies `count` columns later. -/
def Cell.delay (cell : Cell) (count : UInt32) : Cell := ⟨cell.wire, cell.column.delay count⟩

/-- The same node in the cell `count` columns later. -/
def Placement.delay (placement : Placement) (count : UInt32) : Placement :=
  ⟨placement.cell.delay count, placement.node⟩

/-- The same error about the cell `count` columns later. -/
def Grid.Error.delay (error : Grid.Error) (count : UInt32) : Grid.Error :=
  match error with
  | .outside cell wires columns => .outside (cell.delay count) wires columns
  | .malformed cell reason => .malformed (cell.delay count) reason

/-- The columns of a grid are those of its first part, and then those of the second one. -/
theorem Column.range_add {first second whole : UInt32}
    (h : whole.toNat = first.toNat + second.toNat) :
    Column.range whole = Column.range first ++ (Column.range second).map (·.delay first) := by
  rw [Column.range, h, List.range_add, List.map_append, Column.range, Column.range, List.map_map,
    List.map_map]
  refine congrArg _ (List.map_congr_left fun i _ => ?_)
  simp only [Function.comp_apply, delay, UInt32.ofNat_add, UInt32.ofNat_toNat, UInt32.add_comm]

/-- A node is resolved without regard to its column, and only an error names it. -/
theorem Placement.compile_delay (policy : Policy) (wires : UInt32) (placement : Placement)
    (count : UInt32) :
    ((placement.delay count).compile policy wires).map (·.1) =
      ((placement.compile policy wires).map (·.1)).mapError (·.delay count) := by
  have hresolve : (placement.delay count).node.resolve (placement.delay count).cell.wire wires =
      placement.node.resolve placement.cell.wire wires := rfl
  rw [compile, hresolve, compile]
  cases placement.node.resolve placement.cell.wire wires with
  | error reason => rfl
  | ok resolution =>
    obtain ⟨operation, unused⟩ := resolution
    cases policy <;> cases unused <;> rfl

namespace Grid

/-- Nodes in later columns are compiled to the same operations, or refused for the same reason. -/
theorem fst_compilePlacements_delay (policy : Policy) (wires : UInt32)
    (placements : List Placement) (count : UInt32) :
    (compilePlacements policy wires (placements.map (·.delay count))).1 =
      (compilePlacements policy wires placements).1.mapError (·.delay count) := by
  induction placements with
  | nil => rfl
  | cons placement rest ih =>
    rw [List.map_cons, fst_compilePlacements_cons, fst_compilePlacements_cons,
      placement.compile_delay, ih]
    cases (placement.compile policy wires).map (·.1) with
    | error error => rfl
    | ok operation => cases (compilePlacements policy wires rest).1 <;> rfl

/-! ### The whole and its parts -/

/-- The grid is made of two grids with the same wires, side by side. -/
structure Joins (whole first second : Grid) : Prop where
  /-- It has the wires of the first grid. -/
  wires_first : first.wires = whole.wires
  /-- It has the wires of the second grid. -/
  wires_second : second.wires = whole.wires
  /-- It has the columns of both. -/
  columns_add : whole.columns.toNat = first.columns.toNat + second.columns.toNat
  /-- A cell is that of the first grid, or behind its columns that of the second one. -/
  get_eq : ∀ cell, whole.Contains cell → whole.get cell =
    if cell.column.index < first.columns then first.get cell
    else second.get ⟨cell.wire, ⟨cell.column.index - first.columns⟩⟩

variable {whole first second : Grid} {cell : Cell}

namespace Joins

theorem contains_first (h : whole.Joins first second) (hcell : first.Contains cell) :
    whole.Contains cell := by
  have hc := column_lt_of_contains hcell
  have hadd := h.columns_add
  refine ⟨h.wires_first ▸ hcell.1, UInt32.lt_iff_toNat_lt.2 ?_⟩
  omega

/-- The number of a delayed column does not wrap around, as the whole has that many columns. -/
theorem toNat_delay (h : whole.Joins first second) (hcell : second.Contains cell) :
    (cell.column.index + first.columns).toNat =
      cell.column.index.toNat + first.columns.toNat := by
  have hc := column_lt_of_contains hcell
  have hadd := h.columns_add
  have hlt := whole.columns.toNat_lt
  rw [UInt32.toNat_add, Nat.mod_eq_of_lt]
  omega

theorem contains_second (h : whole.Joins first second) (hcell : second.Contains cell) :
    whole.Contains (cell.delay first.columns) := by
  have hc := column_lt_of_contains hcell
  have hadd := h.columns_add
  refine ⟨h.wires_second ▸ hcell.1, UInt32.lt_iff_toNat_lt.2 ?_⟩
  change (cell.column.index + first.columns).toNat < _
  rw [h.toNat_delay hcell]
  omega

/-- The first part holds what the first grid holds. -/
theorem node?_first (h : whole.Joins first second) (hcell : first.Contains cell) :
    whole.node? cell = first.node? cell := by
  have hget := h.get_eq cell (h.contains_first hcell)
  rw [if_pos hcell.2, get_eq_ok_iff.2 ⟨hcell, rfl⟩] at hget
  exact (get_eq_ok_iff.1 hget).2

/-- The second part holds what the second grid holds. -/
theorem node?_second (h : whole.Joins first second) (hcell : second.Contains cell) :
    whole.node? (cell.delay first.columns) = second.node? cell := by
  have hget := h.get_eq _ (h.contains_second hcell)
  have hlate : ¬(cell.delay first.columns).column.index < first.columns := by
    rw [UInt32.lt_iff_toNat_lt]
    change ¬(cell.column.index + first.columns).toNat < _
    rw [h.toNat_delay hcell]
    omega
  -- Going back by as many columns leads to the cell of the second grid.
  have hback : Cell.mk (cell.delay first.columns).wire
      ⟨(cell.delay first.columns).column.index - first.columns⟩ = cell := by
    change Cell.mk cell.wire ⟨cell.column.index + first.columns - first.columns⟩ = cell
    rw [UInt32.add_sub_cancel]
  rw [if_neg hlate, hback, get_eq_ok_iff.2 ⟨hcell, rfl⟩] at hget
  exact (get_eq_ok_iff.1 hget).2

/-- The walk goes through the cells of the first grid, and then through those of the second one. -/
theorem cells_eq (h : whole.Joins first second) :
    whole.cells = first.cells ++ second.cells.map (·.delay first.columns) := by
  rw [cells_eq_flatMap, cells_eq_flatMap, cells_eq_flatMap, h.wires_first, h.wires_second,
    Column.range_add h.columns_add, List.flatMap_append, List.flatMap_map, List.map_flatMap]
  refine congrArg _ (List.flatMap_congr fun column _ => ?_)
  rw [List.map_map]
  rfl

/-- The nodes of the whole are those of the first grid, and then those of the second one. -/
theorem placements_eq (h : whole.Joins first second) :
    whole.placements = first.placements ++ second.placements.map (·.delay first.columns) := by
  rw [placements, h.cells_eq, List.filterMap_append, List.filterMap_map, placements, placements,
    List.map_filterMap]
  congr 1
  · refine List.filterMap_congr fun cell hmem => ?_
    rw [h.node?_first (mem_cells.1 hmem)]
  · refine List.filterMap_congr fun cell hmem => ?_
    rw [Function.comp_apply, h.node?_second (mem_cells.1 hmem), Option.map_map]
    rfl

/-- The whole is compiled as its parts are, one after the other. -/
theorem fst_compile (h : whole.Joins first second) (policy : Policy) :
    (whole.compile policy).1 =
      match (first.compile policy).1, (second.compile policy).1 with
      | .error error, _ => .error error
      | .ok _, .error error => .error (error.delay first.columns)
      | .ok circuit, .ok later =>
        .ok ⟨whole.wires, circuit.operations ++ later.operations⟩ := by
  rw [Grid.fst_compile, Grid.fst_compile, Grid.fst_compile, h.wires_first, h.wires_second,
    h.placements_eq, fst_compilePlacements_append, fst_compilePlacements_delay]
  cases (compilePlacements policy whole.wires first.placements).1 with
  | error error => rfl
  | ok operations => cases (compilePlacements policy whole.wires second.placements).1 <;> rfl

/-- The whole is compiled exactly if both parts are, to the operations of both. -/
theorem compile_eq_ok_iff (h : whole.Joins first second) {policy : Policy} {joined : Circuit} :
    (whole.compile policy).1 = .ok joined ↔
      ∃ circuit later, (first.compile policy).1 = .ok circuit ∧
        (second.compile policy).1 = .ok later ∧
        joined = ⟨whole.wires, circuit.operations ++ later.operations⟩ := by
  rw [h.fst_compile]
  cases (first.compile policy).1 with
  | error error => simp
  | ok circuit => cases (second.compile policy).1 <;> simp [eq_comm]

/-- What is refused is refused in the first part, or in the second one behind a first part that is
    compiled. -/
theorem compile_eq_error_iff (h : whole.Joins first second) {policy : Policy} {error : Error} :
    (whole.compile policy).1 = .error error ↔
      (first.compile policy).1 = .error error ∨
      (∃ circuit, (first.compile policy).1 = .ok circuit) ∧
        ∃ earlier, (second.compile policy).1 = .error earlier ∧
          error = earlier.delay first.columns := by
  rw [h.fst_compile]
  cases (first.compile policy).1 with
  | error refused => simp
  | ok circuit => cases (second.compile policy).1 <;> simp [eq_comm]

end Joins

/-- A cell behind the columns of the first grid goes back to a cell of the second one. -/
theorem contains_back {wires columns more : UInt32} {others : List Request}
    (hsum : columns.toNat + more.toNat < UInt32.size) (hw : cell.wire.index < wires)
    (hc : cell.column.index < columns + more) (hlate : ¬cell.column.index < columns) :
    (build wires more others).Contains ⟨cell.wire, ⟨cell.column.index - columns⟩⟩ := by
  rw [Contains, wires_build, columns_build]
  refine ⟨hw, ?_⟩
  rw [UInt32.lt_iff_toNat_lt, UInt32.toNat_add, Nat.mod_eq_of_lt hsum] at hc
  rw [UInt32.not_lt] at hlate
  rw [UInt32.lt_iff_toNat_lt, UInt32.toNat_sub_of_le _ _ hlate]
  have hle := UInt32.le_iff_toNat_le.1 hlate
  omega

/-- Grids after any runs can be put side by side, and there is a run that does it. -/
theorem exists_joins {wires columns more : UInt32}
    (hsum : columns.toNat + more.toNat < UInt32.size) (requests others : List Request) :
    ∃ run, (build wires (columns + more) run).Joins
      (build wires columns requests) (build wires more others) := by
  -- What the cells of the whole shall hold: it fits, as it does in the parts.
  let content (cell : Cell) : Option Node :=
    if cell.column.index < columns then (build wires columns requests).node? cell
    else (build wires more others).node? ⟨cell.wire, ⟨cell.column.index - columns⟩⟩
  have hfits (cell : Cell) (hw : cell.wire.index < wires)
      (hc : cell.column.index < columns + more) (node : Node) (hnode : content cell = some node) :
      node.Fits cell.wire wires := by
    by_cases hearly : cell.column.index < columns
    · have hcell : (build wires columns requests).Contains cell := by
        rw [Contains, wires_build, columns_build]
        exact ⟨hw, hearly⟩
      have hfit := (sound_build wires columns requests).fits_of_node? hcell
        ((if_pos hearly).symm.trans hnode)
      rwa [wires_build] at hfit
    · have hfit := (sound_build wires more others).fits_of_node?
        (contains_back hsum hw hc hearly) ((if_neg hearly).symm.trans hnode)
      rwa [wires_build] at hfit
  obtain ⟨run, hrun⟩ := exists_build hfits
  refine ⟨run, ?_, ?_, ?_, fun cell hcell => ?_⟩
  · rw [wires_build, wires_build]
  · rw [wires_build, wires_build]
  · rw [columns_build, columns_build, columns_build, UInt32.toNat_add, Nat.mod_eq_of_lt hsum]
  · have hread := get_eq_ok_iff.2 ⟨hcell, rfl⟩
    rw [Contains, wires_build, columns_build] at hcell
    rw [hread, hrun cell hcell.1 hcell.2, columns_build]
    split
    · next hearly =>
      rw [eq_comm, get_eq_ok_iff, Contains, wires_build, columns_build]
      exact ⟨⟨hcell.1, hearly⟩, (if_pos hearly).symm⟩
    · next hearly =>
      rw [eq_comm, get_eq_ok_iff]
      exact ⟨contains_back hsum hcell.1 hcell.2 hearly, (if_neg hearly).symm⟩

/-- Two grids after any runs, whose columns together are not too many, can be put side by side by
    a run. However it was made, the permissive policy compiles the whole to the operations of the
    first grid followed by those of the second. The strict policy compiles it exactly if it compiles
    both parts, again to the operations of both; else it refuses what it refuses in the first grid,
    or if that is compiled, what it refuses in the second one, as many columns later. -/
theorem compile_joins_build (wires columns more : UInt32)
    (hsum : columns.toNat + more.toNat < UInt32.size) (requests others : List Request) :
    (∃ run, (build wires (columns + more) run).Joins
      (build wires columns requests) (build wires more others)) ∧
    ∀ whole : Grid,
      whole.Joins (build wires columns requests) (build wires more others) →
      (∃ circuit later,
        ((build wires columns requests).compile .permissive).1 = .ok circuit ∧
        ((build wires more others).compile .permissive).1 = .ok later ∧
        (whole.compile .permissive).1 = .ok ⟨wires, circuit.operations ++ later.operations⟩) ∧
      (∀ joined, (whole.compile .strict).1 = .ok joined ↔
        ∃ circuit later,
          ((build wires columns requests).compile .strict).1 = .ok circuit ∧
          ((build wires more others).compile .strict).1 = .ok later ∧
          joined = ⟨wires, circuit.operations ++ later.operations⟩) ∧
      (∀ error, (whole.compile .strict).1 = .error error ↔
        ((build wires columns requests).compile .strict).1 = .error error ∨
        (∃ circuit, ((build wires columns requests).compile .strict).1 = .ok circuit) ∧
          ∃ earlier, ((build wires more others).compile .strict).1 = .error earlier ∧
            error = earlier.delay columns) := by
  refine ⟨exists_joins hsum requests others, fun whole h => ?_⟩
  have hwires : whole.wires = wires := h.wires_first.symm.trans (wires_build ..)
  obtain ⟨_, hfirst⟩ := exists_resolves (sound_build wires columns requests).fits
  obtain ⟨_, hsecond⟩ := exists_resolves (sound_build wires more others).fits
  refine ⟨⟨_, _, fst_compile_permissive hfirst, fst_compile_permissive hsecond, ?_⟩,
    fun joined => ?_, fun error => ?_⟩
  · have hjoined := h.compile_eq_ok_iff.2
      ⟨_, _, fst_compile_permissive hfirst, fst_compile_permissive hsecond, rfl⟩
    rwa [hwires] at hjoined
  · rw [h.compile_eq_ok_iff, hwires]
  · rw [h.compile_eq_error_iff, columns_build]

/-- The node that is refused stands in the second column of the second grid, and so in the third
    column of the whole. -/
theorem compile_joins_refused :
    (1 : UInt32).toNat + (2 : UInt32).toNat < UInt32.size ∧
    ∃ whole : Grid, whole.wires = 2 ∧ whole.columns = 3 ∧
      (whole.compile .strict).1 =
        .error (.malformed ⟨⟨0⟩, ⟨2⟩⟩ (.unusedField .h .swapPartner)) := by
  have hsum : (1 : UInt32).toNat + (2 : UInt32).toNat < UInt32.size := by decide
  have h := compile_joins_build 2 1 2 hsum [.set ⟨⟨1⟩, ⟨0⟩⟩ { kind := .x, controlA := some ⟨0⟩ }]
    [.set ⟨⟨0⟩, ⟨1⟩⟩ { kind := .h, swapPartner := some ⟨1⟩ }]
  obtain ⟨⟨run, hjoins⟩, hwhole⟩ := h
  refine ⟨hsum, build 2 (1 + 2) run, wires_build .., columns_build .., ?_⟩
  exact ((hwhole _ hjoins).2.2 _).2 (.inr ⟨⟨_, rfl⟩, _, rfl, rfl⟩)

end Grid

end GateGrid

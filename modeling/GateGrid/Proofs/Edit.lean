import GateGrid.Proofs.Compile
import GateGrid.Proofs.Grid.Store

/-!
# Edits and the operations they change

A grid is edited cell by cell, in any order, and compiled in the order of time. What an edit does to
the circuit can be told without compiling again. The cells before the edited one and the cells after
it give the same operations as they did; so the operation of the cell stands behind as many
operations as there are nodes before it, which is the *rank* of the cell. There an operation is
replaced, put in or taken out.

* `Grid.rank`: the number of nodes before a cell;
* `Grid.exists_placements_write`: a write changes the nodes of the grid at the rank of the cell;
* `Grid.Sound.exists_compile_write`: so it changes the operations, whatever is written;
* `Grid.compile_answer_build`: what each request does to the operations, after any run.
-/

namespace GateGrid

/-- An element put in where the second of two lists starts. -/
theorem insertIdx_append_length {α : Type} (before later : List α) (item : α) :
    (before ++ later).insertIdx before.length item = before ++ item :: later := by
  induction before with
  | nil => rfl
  | cons first before ih =>
    rw [List.cons_append, List.length_cons, List.insertIdx_succ_cons, ih, List.cons_append]

namespace Grid

variable {grid : Grid} {cell : Cell}

/-! ### The place of a cell -/

/-- The cells before a cell, and those after it. -/
theorem exists_cells_eq (hcell : grid.Contains cell) :
    ∃ early late, grid.cells = early ++ [cell] ++ late ∧
      (∀ other ∈ early, grid.Contains other ∧ other.Before cell) ∧
      (∀ other ∈ late, grid.Contains other ∧ cell.Before other) := by
  obtain ⟨early, late, hsplit⟩ := List.append_of_mem (mem_cells.2 hcell)
  have hcells : ∀ other ∈ early ++ cell :: late, grid.Contains other := fun other hmem =>
    mem_cells.1 (hsplit ▸ hmem)
  rw [List.forall_mem_append, List.forall_mem_cons] at hcells
  have hpairwise := grid.pairwise_cells
  rw [hsplit, List.pairwise_append, List.pairwise_cons] at hpairwise
  obtain ⟨_, ⟨hlate, _⟩, hearly⟩ := hpairwise
  refine ⟨early, late, hsplit.trans (List.append_cons ..), fun other hmem => ?_,
    fun other hmem => ?_⟩
  · exact ⟨hcells.1 other hmem, hearly other hmem cell List.mem_cons_self⟩
  · exact ⟨hcells.2.2 other hmem, hlate other hmem⟩

/-- The nodes that are found in some of the cells. -/
def found (grid : Grid) (cells : List Cell) : List Placement :=
  cells.filterMap fun cell => (grid.node? cell).map (Placement.mk cell)

theorem placements_eq_found (grid : Grid) : grid.placements = grid.found grid.cells := rfl

theorem found_append (grid : Grid) (cells others : List Cell) :
    grid.found (cells ++ others) = grid.found cells ++ grid.found others :=
  List.filterMap_append

theorem cell_mem_of_mem_found {cells : List Cell} {placement : Placement}
    (h : placement ∈ grid.found cells) : placement.cell ∈ cells := by
  obtain ⟨other, hmem, hother⟩ := List.mem_filterMap.1 h
  obtain ⟨node, _, rfl⟩ := Option.map_eq_some_iff.1 hother
  exact hmem

/-- In the cell that is written, what was written is found. -/
theorem found_write_self (hcell : grid.Contains cell) (content : Option Node) :
    (grid.write cell content).found [cell] = content.toList.map (Placement.mk cell) := by
  rw [found, List.filterMap_cons, node?_write_self hcell]
  cases content <;> rfl

/-- In other cells the same nodes are found as before. -/
theorem found_write_of_ne (hcell : grid.Contains cell) {cells : List Cell}
    (h : ∀ other ∈ cells, grid.Contains other ∧ other ≠ cell) (content : Option Node) :
    (grid.write cell content).found cells = grid.found cells :=
  List.filterMap_congr fun other hmem => by
    rw [node?_write_of_ne hcell (h other hmem).1 (h other hmem).2]

/-- The number of nodes in cells before a cell, in the order of time. -/
def rank (grid : Grid) (cell : Cell) : ℕ :=
  grid.placements.countP (·.cell.Before cell)

/-- A write changes the nodes of a grid in one place, behind as many nodes as the rank of the
    cell. -/
theorem exists_placements_write (hcell : grid.Contains cell) :
    ∃ before later : List Placement, before.length = grid.rank cell ∧
      ∀ content : Option Node, (grid.write cell content).placements =
        before ++ content.toList.map (Placement.mk cell) ++ later := by
  obtain ⟨early, late, hcells, hearly, hlate⟩ := exists_cells_eq hcell
  refine ⟨grid.found early, grid.found late, ?_, fun content => ?_⟩
  · -- The nodes before the cell are counted, and neither its own nor any later one.
    have hbefore : (grid.found early).countP (·.cell.Before cell) = (grid.found early).length :=
      List.countP_eq_length.2 fun _ hmem => decide_eq_true (hearly _ (cell_mem_of_mem_found hmem)).2
    have hown : (grid.found [cell]).countP (·.cell.Before cell) = 0 :=
      List.countP_eq_zero.2 fun placement hmem => by
        rw [List.mem_singleton.1 (cell_mem_of_mem_found hmem), decide_eq_true_iff]
        exact fun hself => hself.ne rfl
    have hlater : (grid.found late).countP (·.cell.Before cell) = 0 :=
      List.countP_eq_zero.2 fun placement hmem => by
        rw [decide_eq_true_iff]
        exact (hlate _ (cell_mem_of_mem_found hmem)).2.asymm
    rw [rank, placements_eq_found, hcells, found_append, found_append, List.countP_append,
      List.countP_append, hbefore, hown, hlater, Nat.add_zero]
  · have hcells' : (grid.write cell content).cells = grid.cells := rfl
    rw [placements_eq_found, hcells', hcells, found_append, found_append, found_write_self hcell,
      found_write_of_ne hcell fun other hmem => ⟨(hearly other hmem).1, (hearly other hmem).2.ne⟩,
      found_write_of_ne hcell fun other hmem => ⟨(hlate other hmem).1, (hlate other hmem).2.ne.symm⟩]

/-! ### The operations around a cell -/

/-- Whatever is written into a cell, the operations of the other cells stay, and stand around that
    of the node written. -/
theorem Sound.exists_compile_write (h : grid.Sound) (hcell : grid.Contains cell) :
    ∃ before later : List Operation, before.length = grid.rank cell ∧
      ∀ (content : Option Node) (resolutions : List Resolution),
        Resolves grid.wires (content.toList.map (Placement.mk cell)) resolutions →
        ((grid.write cell content).compile .permissive).1 =
          .ok ⟨grid.wires, before ++ resolutions.map (·.operation) ++ later⟩ := by
  obtain ⟨early, late, hlength, hwrite⟩ := exists_placements_write hcell
  -- The nodes before and after the cell resolve, as those of the grid do.
  have hfits := h.fits
  have hplacements := hwrite (grid.node? cell)
  rw [write_node? hcell] at hplacements
  rw [hplacements, List.forall_mem_append, List.forall_mem_append] at hfits
  obtain ⟨first, hfirst⟩ := exists_resolves hfits.1.1
  obtain ⟨last, hlast⟩ := exists_resolves hfits.2
  refine ⟨first.map (·.operation), last.map (·.operation), ?_, fun content resolutions hown => ?_⟩
  · rw [List.length_map, ← hfirst.length_eq, hlength]
  · have hwires : (grid.write cell content).wires = grid.wires := rfl
    rw [fst_compile, hwires, hwrite, fst_compilePlacements_append, fst_compilePlacements_append,
      compilePlacements_permissive hfirst, compilePlacements_permissive hown,
      compilePlacements_permissive hlast]
    rfl

/-- The operations of a sound grid around the one of a cell, which is there if the cell holds a
    node; and what becomes of them when the cell is written. -/
theorem Sound.exists_operations_eq (h : grid.Sound) (hcell : grid.Contains cell)
    {operations : List Operation}
    (hcompile : (grid.compile .permissive).1 = .ok ⟨grid.wires, operations⟩) :
    ∃ before own later : List Operation, operations = before ++ own ++ later ∧
      before.length = grid.rank cell ∧ own.length = (grid.node? cell).toList.length ∧
      ∀ (content : Option Node) (resolutions : List Resolution),
        Resolves grid.wires (content.toList.map (Placement.mk cell)) resolutions →
        ((grid.write cell content).compile .permissive).1 =
          .ok ⟨grid.wires, before ++ resolutions.map (·.operation) ++ later⟩ := by
  obtain ⟨before, later, hlength, hwrite⟩ := h.exists_compile_write hcell
  have hfits : ∀ placement ∈ (grid.node? cell).toList.map (Placement.mk cell),
      placement.node.Fits placement.cell.wire grid.wires :=
    List.forall_mem_map.2 fun node hnode => h.fits_of_node? hcell (Option.mem_toList.1 hnode)
  obtain ⟨own, hown⟩ := exists_resolves hfits
  -- Writing what the cell holds gives the grid itself.
  have hself := hwrite _ _ hown
  rw [write_node? hcell, hcompile, Except.ok.injEq, Circuit.mk.injEq] at hself
  refine ⟨before, own.map (·.operation), later, hself.2, hlength, ?_, hwrite⟩
  rw [List.length_map, ← hown.length_eq, List.length_map]

/-! ### Requests -/

/-- After any run, a request changes the operations of the grid at the rank of its cell. A node that
    is stored has its operation put in there, or if there was a node before, in its place. Emptying a
    cell takes the operation of its node out, if it had one. And a request that is refused changes
    nothing. -/
theorem compile_answer_build (wires columns : UInt32) (requests : List Request) :
    let grid := build wires columns requests
    ∃ operations, (grid.compile .permissive).1 = .ok ⟨wires, operations⟩ ∧
      (∀ cell node, (grid.answer (.set cell node)).1 = .ok .stored →
        ∃ resolution, node.resolve cell.wire wires = .ok resolution ∧
          (∀ old, grid.get cell = .ok (some old) → grid.rank cell < operations.length ∧
            ((grid.answer (.set cell node)).2.compile .permissive).1 =
              .ok ⟨wires, operations.set (grid.rank cell) resolution.operation⟩) ∧
          (grid.get cell = .ok none → grid.rank cell ≤ operations.length ∧
            ((grid.answer (.set cell node)).2.compile .permissive).1 =
              .ok ⟨wires, operations.insertIdx (grid.rank cell) resolution.operation⟩)) ∧
      (∀ cell, grid.Contains cell →
        (grid.answer (.clear cell)).1 = .ok (.content (grid.node? cell)) ∧
          (∀ old, grid.get cell = .ok (some old) → grid.rank cell < operations.length ∧
            ((grid.answer (.clear cell)).2.compile .permissive).1 =
              .ok ⟨wires, operations.eraseIdx (grid.rank cell)⟩) ∧
          (grid.get cell = .ok none →
            ((grid.answer (.clear cell)).2.compile .permissive).1 = .ok ⟨wires, operations⟩)) ∧
      (∀ request error, (grid.answer request).1 = .error error →
        ((grid.answer request).2.compile .permissive).1 = .ok ⟨wires, operations⟩) := by
  intro grid
  have hsound : grid.Sound := sound_build wires columns requests
  have hwires : grid.wires = wires := wires_build ..
  obtain ⟨resolutions, hresolves⟩ := exists_resolves hsound.fits
  have hcompile := fst_compile_permissive hresolves
  rw [← hwires]
  refine ⟨_, hcompile, fun cell node hreply => ?_, fun cell hcell => ?_,
    fun request error hreply => ?_⟩
  · obtain ⟨hcell, hfits⟩ := fits_of_answer_set hreply
    obtain ⟨resolution, hresolve⟩ := Node.exists_resolve hfits
    obtain ⟨before, own, later, hops, hlength, hown, hwrite⟩ :=
      hsound.exists_operations_eq hcell hcompile
    refine ⟨resolution, hresolve, ?_⟩
    rw [answer_set hcell hfits, hwrite (some node) [resolution] (.cons hresolve .nil), hops,
      ← hlength]
    refine ⟨fun old hold => ?_, fun hold => ?_⟩ <;> rw [(get_eq_ok_iff.1 hold).2] at hown
    · obtain ⟨replaced, rfl⟩ := List.length_eq_one_iff.1 hown
      simp
    · obtain rfl := List.length_eq_zero_iff.1 hown
      simp [insertIdx_append_length]
  · obtain ⟨before, own, later, hops, hlength, hown, hwrite⟩ :=
      hsound.exists_operations_eq hcell hcompile
    rw [answer_clear hcell, hwrite none [] .nil, hops, ← hlength]
    refine ⟨rfl, fun old hold => ?_, fun hold => ?_⟩ <;> rw [(get_eq_ok_iff.1 hold).2] at hown
    · obtain ⟨removed, rfl⟩ := List.length_eq_one_iff.1 hown
      simp [List.eraseIdx_append_of_length_le]
    · obtain rfl := List.length_eq_zero_iff.1 hown
      rfl
  · rw [answer_of_error hreply, hcompile]

end Grid

end GateGrid

import GateGrid.Proofs.Grid.Run
import GateGrid.Proofs.Grid.Scan
import GateGrid.Proofs.Node.Fits

/-!
# Storing nodes

Nodes that fit can be stored, one after the other. Each of them changes its own cell, so that in the
end the cells hold what was stored. Hence nothing but the check stands between a grid and its
contents: a map from cells to nodes is that of some grid as soon as its nodes fit their wires.

* `Grid.storing`: the requests that store nodes in their cells;
* `Grid.replies_storing`, `Grid.node?_after_storing`: all of them are carried out, and change their
  cells and no others;
* `Grid.exists_build`: every map whose nodes fit is what some run leaves behind.
-/

namespace GateGrid.Grid

variable {grid : Grid} {cell : Cell} {placements : List Placement}

/-- A node in a cell of a sound grid fits the wire of the cell. -/
theorem Sound.fits_of_node? (h : grid.Sound) (hcell : grid.Contains cell) {node : Node}
    (hnode : grid.node? cell = some node) : node.Fits cell.wire grid.wires :=
  Node.check_eq_ok_iff.1 (h cell node (get_eq_ok_iff.2 ⟨hcell, hnode⟩))

/-- The requests that store nodes in their cells. -/
def storing (placements : List Placement) : List Request :=
  placements.map fun placement => .set placement.cell placement.node

theorem replies_cons (request : Request) (requests : List Request) :
    grid.replies (request :: requests) =
      (grid.answer request).1 :: (grid.answer request).2.replies requests := rfl

/-- A node that fits is stored. -/
theorem answer_set {node : Node} (hcell : grid.Contains cell)
    (hfits : node.Fits cell.wire grid.wires) :
    grid.answer (.set cell node) = (.ok .stored, grid.write cell (some node)) := by
  simp [answer, set, hcell, Node.check_eq_ok_iff.2 hfits]

/-- A node is stored only if it fits. -/
theorem fits_of_answer_set {node : Node} {reply : Reply}
    (h : (grid.answer (.set cell node)).1 = .ok reply) :
    grid.Contains cell ∧ node.Fits cell.wire grid.wires := by
  by_cases hcell : grid.Contains cell
  · refine ⟨hcell, Node.check_eq_ok_iff.1 ?_⟩
    cases hcheck : node.check cell.wire grid.wires with
    | ok _ => rfl
    | error reason => simp [answer, set, hcell, hcheck] at h
  · simp [answer, set, hcell] at h

theorem answer_clear (hcell : grid.Contains cell) :
    grid.answer (.clear cell) = (.ok (.content (grid.node? cell)), grid.write cell none) := by
  simp [answer, clear, hcell]

/-- All of the nodes are stored if each of them fits. -/
theorem replies_storing (hcells : ∀ placement ∈ placements, grid.Contains placement.cell)
    (hfits : ∀ placement ∈ placements, placement.node.Fits placement.cell.wire grid.wires) :
    grid.replies (storing placements) = (storing placements).map fun _ => .ok .stored := by
  induction placements generalizing grid with
  | nil => rfl
  | cons placement rest ih =>
    rw [List.forall_mem_cons] at hcells hfits
    have hrest : (grid.write placement.cell (some placement.node)).replies (storing rest) =
        (storing rest).map fun _ => .ok .stored := ih hcells.2 hfits.2
    rw [storing, List.map_cons, ← storing, replies_cons, answer_set hcells.1 hfits.1, hrest]
    rfl

/-- Storing nodes that fit changes their cells, and no others. Here `content` tells the node for
    each cell, so that it does not matter whether a cell is named twice. -/
theorem node?_after_storing {content : Cell → Option Node} (hcell : grid.Contains cell)
    (hcells : ∀ placement ∈ placements, grid.Contains placement.cell)
    (hfits : ∀ placement ∈ placements, placement.node.Fits placement.cell.wire grid.wires)
    (hcontent : ∀ placement ∈ placements, some placement.node = content placement.cell) :
    (grid.after (storing placements)).node? cell =
      if cell ∈ placements.map (·.cell) then content cell else grid.node? cell := by
  induction placements generalizing grid with
  | nil => rfl
  | cons placement rest ih =>
    rw [List.forall_mem_cons] at hcells hfits hcontent
    have hstep : grid.after (storing (placement :: rest)) =
        (grid.write placement.cell (some placement.node)).after (storing rest) := by
      rw [storing, List.map_cons, ← storing, after_cons, answer_set hcells.1 hfits.1]
    have hcell' : (grid.write placement.cell (some placement.node)).Contains cell := hcell
    rw [hstep, ih hcell' hcells.2 hfits.2 hcontent.2, node?_write hcells.1 hcell, hcontent.1,
      List.map_cons]
    by_cases hrest : cell ∈ rest.map (·.cell)
    · rw [if_pos hrest, if_pos (List.mem_cons_of_mem _ hrest)]
    · rw [if_neg hrest]
      by_cases hfirst : cell = placement.cell
      · rw [if_pos hfirst, if_pos (List.mem_cons.2 (.inl hfirst)), hfirst]
      · rw [if_neg hfirst, if_neg (List.not_mem_cons_of_ne_of_not_mem hfirst hrest)]

/-- Whatever the cells shall hold, as long as it fits, there is a run after which they hold it. -/
theorem exists_build {wires columns : UInt32} {content : Cell → Option Node}
    (hfits : ∀ cell : Cell, cell.wire.index < wires → cell.column.index < columns →
      ∀ node ∈ content cell, node.Fits cell.wire wires) :
    ∃ requests, ∀ cell : Cell, cell.wire.index < wires → cell.column.index < columns →
      (build wires columns requests).node? cell = content cell := by
  let start := empty wires columns
  let placements := start.cells.filterMap fun cell => (content cell).map (Placement.mk cell)
  have hmem {placement : Placement} (h : placement ∈ placements) :
      start.Contains placement.cell ∧ content placement.cell = some placement.node := by
    obtain ⟨cell, hcell, hplacement⟩ := List.mem_filterMap.1 h
    obtain ⟨node, hnode, rfl⟩ := Option.map_eq_some_iff.1 hplacement
    exact ⟨mem_cells.1 hcell, hnode⟩
  refine ⟨storing placements, fun cell hw hc => ?_⟩
  have hcell : start.Contains cell := ⟨hw, hc⟩
  rw [build, node?_after_storing hcell (fun _ h => (hmem h).1)
    (fun _ h => hfits _ (hmem h).1.1 (hmem h).1.2 _ (hmem h).2) (fun _ h => (hmem h).2.symm)]
  split
  · rfl
  · next hfree =>
    -- A cell into which nothing is stored was to stay empty.
    rw [node?_empty, eq_comm, Option.eq_none_iff_forall_ne_some]
    intro node hnode
    refine hfree (List.mem_map.2 ⟨⟨cell, node⟩, List.mem_filterMap.2 ⟨cell, ?_, ?_⟩, rfl⟩)
    · exact mem_cells.2 hcell
    · rw [hnode]
      rfl

end GateGrid.Grid

import GateGrid.Proofs.Grid.Run
import Mathlib.Logic.Function.Basic

/-!
# Grids as maps of cells

A *board* is what a grid means: a size, and a map that gives the node of each cell. It knows no
slots. Requests to a board are answered by the rules of the map alone: outside the size nothing can
be asked, a node that does not fit is refused, and a write changes the map at one cell.

The array behind a grid keeps to these rules in every run.

* `Grid.board_answer`: a request has the same reply on the grid and on its board, and leaves the
  board of the next grid behind;
* `Grid.node?_after`: a cell holds what the last successful write put there;
* `Grid.refines_board`: both for whole runs, and the cells decide the grid.
-/

namespace GateGrid

/-- A map from cells to nodes, with a size. -/
structure Board where
  /-- The number of wires. -/
  wires : UInt32
  /-- The number of columns. -/
  columns : UInt32
  /-- The node in each cell. -/
  nodes : Cell → Option Node

namespace Board

/-- The map that is nowhere defined. -/
def empty (wires columns : UInt32) : Board := ⟨wires, columns, fun _ => none⟩

/-- The map with another content in one cell. -/
def update (board : Board) (cell : Cell) (content : Option Node) : Board :=
  { board with nodes := Function.update board.nodes cell content }

/-- The rules of the map. A cell outside the size is refused before anything else is looked at. -/
def answer (board : Board) (request : Request) : Except Grid.Error Reply × Board :=
  if board.wires ≤ request.cell.wire.index ∨ board.columns ≤ request.cell.column.index then
    (.error (.outside request.cell board.wires board.columns), board)
  else
    match request with
    | .set cell node =>
      match node.check cell.wire board.wires with
      | .error reason => (.error (.malformed cell reason), board)
      | .ok () => (.ok .stored, board.update cell (some node))
    | .get cell => (.ok (.content (board.nodes cell)), board)
    | .clear cell => (.ok (.content (board.nodes cell)), board.update cell none)

/-- The map after a sequence of requests. -/
def after (board : Board) : List Request → Board
  | [] => board
  | request :: rest => (board.answer request).2.after rest

/-- The replies to a sequence of requests. -/
def replies (board : Board) : List Request → List (Except Grid.Error Reply)
  | [] => []
  | request :: rest => (board.answer request).1 :: (board.answer request).2.replies rest

end Board

/-! ### Histories -/

namespace Request

/-- What a request wrote into a cell, told by the reply to it. A failed request wrote nothing. -/
def wrote? (request : Request) (reply : Except Grid.Error Reply) (cell : Cell) :
    Option (Option Node) :=
  match request, reply with
  | .set target node, .ok _ => if target = cell then some (some node) else none
  | .clear target, .ok _ => if target = cell then some none else none
  | _, _ => none

/-- What the last successful write of a history put into a cell, if there was one. -/
def lastWrote? (history : List (Request × Except Grid.Error Reply)) (cell : Cell) :
    Option (Option Node) :=
  history.reverse.findSome? fun (request, reply) => request.wrote? reply cell

/-- A later write counts before an earlier one. -/
theorem lastWrote?_cons (request : Request) (reply : Except Grid.Error Reply)
    (history : List (Request × Except Grid.Error Reply)) (cell : Cell) :
    lastWrote? ((request, reply) :: history) cell =
      (lastWrote? history cell).or (request.wrote? reply cell) := by
  rw [lastWrote?, List.reverse_cons, List.findSome?_append, List.findSome?_singleton, lastWrote?]

end Request

namespace Grid

variable {grid : Grid} {cell : Cell}

/-- The requests of a run, each with the reply to it. -/
def history (grid : Grid) (requests : List Request) : List (Request × Except Error Reply) :=
  requests.zip (grid.replies requests)

theorem history_cons (request : Request) (requests : List Request) :
    grid.history (request :: requests) =
      (request, (grid.answer request).1) :: (grid.answer request).2.history requests := rfl

/-- A request changes a cell to what it wrote there. -/
theorem node?_answer (h : grid.Contains cell) (request : Request) :
    (grid.answer request).2.node? cell =
      (request.wrote? (grid.answer request).1 cell).getD (grid.node? cell) := by
  have hwrite (target : Cell) (htarget : grid.Contains target) (content : Option Node) :
      (grid.write target content).node? cell =
        (if target = cell then some content else none).getD (grid.node? cell) := by
    rw [node?_write htarget h]
    by_cases hcell : target = cell
    · rw [if_pos hcell.symm, if_pos hcell, Option.getD_some]
    · rw [if_neg (Ne.symm hcell), if_neg hcell, Option.getD_none]
  obtain ⟨_, heq⟩ | ⟨_, _, _, rfl, _, _, heq⟩ | ⟨target, node, rfl, htarget, _, heq⟩ |
    ⟨_, rfl, _, heq⟩ | ⟨target, rfl, htarget, heq⟩ := grid.answer_cases request <;> rw [heq]
  · cases request <;> rfl
  · rfl
  · exact hwrite target htarget (some node)
  · rfl
  · exact hwrite target htarget none

/-- After a run a cell holds what the last successful write put there, and else what it held
    before. -/
theorem node?_after (h : grid.Contains cell) (requests : List Request) :
    (grid.after requests).node? cell =
      (Request.lastWrote? (grid.history requests) cell).getD (grid.node? cell) := by
  induction requests generalizing grid with
  | nil => rfl
  | cons request requests ih =>
    -- The cell is still there when the rest of the run starts.
    have h' : (grid.answer request).2.Contains cell := by
      rw [Contains, wires_answer, columns_answer]
      exact h
    rw [after_cons, ih h', node?_answer h, history_cons, Request.lastWrote?_cons, Option.getD_or]

/-! ### The board of a grid -/

/-- The map that a grid stands for. -/
def board (grid : Grid) : Board :=
  ⟨grid.wires, grid.columns, fun cell => if grid.Contains cell then grid.node? cell else none⟩

theorem board_empty (wires columns : UInt32) :
    (empty wires columns).board = .empty wires columns := by
  have hnodes : (empty wires columns).board.nodes = fun _ => none := by
    funext cell
    simp [board]
  rw [Board.empty, ← hnodes]
  rfl

@[simp] theorem board_wires : grid.board.wires = grid.wires := rfl
@[simp] theorem board_columns : grid.board.columns = grid.columns := rfl

theorem board_nodes (h : grid.Contains cell) : grid.board.nodes cell = grid.node? cell :=
  if_pos h

/-- A write to the grid is an update of the map at one cell. -/
theorem board_write (h : grid.Contains cell) (content : Option Node) :
    (grid.write cell content).board = grid.board.update cell content := by
  have hnodes : (grid.write cell content).board.nodes =
      Function.update grid.board.nodes cell content := by
    funext other
    by_cases hother : grid.Contains other
    · rw [board_nodes ((contains_write content).2 hother), node?_write h hother,
        Function.update_apply, board_nodes hother]
    · -- Outside its size a grid holds nothing, and the written cell is not there.
      have hne : other ≠ cell := fun heq => hother (heq ▸ h)
      rw [Function.update_of_ne hne]
      exact (if_neg hother).trans (if_neg hother).symm
  rw [Board.update, ← hnodes]
  rfl

theorem outside_board_iff (request : Request) :
    (grid.board.wires ≤ request.cell.wire.index ∨ grid.board.columns ≤ request.cell.column.index) ↔
      ¬grid.Contains request.cell := by
  rw [Contains, not_and_or, UInt32.not_lt, UInt32.not_lt, board_wires, board_columns]

/-- A request has the same reply on the grid and on its board, and leaves the board of the next grid
    behind. -/
theorem board_answer (grid : Grid) (request : Request) :
    grid.board.answer request = ((grid.answer request).1, (grid.answer request).2.board) := by
  unfold Board.answer
  obtain ⟨h, heq⟩ | ⟨cell, node, reason, rfl, h, hcheck, heq⟩ | ⟨cell, node, rfl, h, hcheck, heq⟩ |
    ⟨cell, rfl, h, heq⟩ | ⟨cell, rfl, h, heq⟩ := grid.answer_cases request <;> rw [heq]
  · rw [if_pos ((outside_board_iff request).2 h)]
    rfl
  all_goals rw [if_neg fun hout => (outside_board_iff _).1 hout h]
  · simp only [board_wires, hcheck]
  · simp only [board_wires, hcheck, board_write h]
  · simp only [board_nodes h]
  · simp only [board_nodes h, board_write h]

theorem board_after (grid : Grid) (requests : List Request) :
    (grid.after requests).board = grid.board.after requests := by
  induction requests generalizing grid with
  | nil => rfl
  | cons request requests ih => rw [after_cons, ih, Board.after, board_answer]

theorem replies_eq (grid : Grid) (requests : List Request) :
    grid.replies requests = grid.board.replies requests := by
  induction requests generalizing grid with
  | nil => rfl
  | cons request requests ih =>
    rw [Board.replies, board_answer]
    exact congrArg ((grid.answer request).1 :: ·) (ih _)

/-! ### Whole runs -/

/-- At the end of a run, reading a cell tells the last successful write to it. -/
theorem get_build (wires columns : UInt32) (requests : List Request) (cell : Cell) :
    (build wires columns requests).get cell =
      if cell.wire.index < wires ∧ cell.column.index < columns then
        .ok ((Request.lastWrote? ((empty wires columns).history requests) cell).getD none)
      else .error (.outside cell wires columns) := by
  by_cases h : cell.wire.index < wires ∧ cell.column.index < columns
  · rw [if_pos h, get_eq_ok_iff, Contains, wires_build, columns_build]
    refine ⟨h, ?_⟩
    have hempty : (empty wires columns).Contains cell := h
    rw [build, node?_after hempty, node?_empty]
  · have hout : ¬(build wires columns requests).Contains cell := by
      rwa [Contains, wires_build, columns_build]
    rw [if_neg h, get, if_neg hout, wires_build, columns_build]

/-- Runs on grids of one size that end with the same contents end in the same grid. -/
theorem build_ext {wires columns : UInt32} {requests others : List Request}
    (h : ∀ cell : Cell, cell.wire.index < wires → cell.column.index < columns →
      (build wires columns requests).get cell = (build wires columns others).get cell) :
    build wires columns requests = build wires columns others := by
  have hw : (build wires columns requests).wires = (build wires columns others).wires := by
    rw [wires_build, wires_build]
  have hc : (build wires columns requests).columns = (build wires columns others).columns := by
    rw [columns_build, columns_build]
  refine ext_node? hw hc fun cell hcell => ?_
  -- Both grids tell the content of the cell, and they tell the same.
  have hread := get_eq_ok_iff.2 ⟨hcell, rfl⟩
  rw [Contains, wires_build, columns_build] at hcell
  rw [h cell hcell.1 hcell.2] at hread
  exact (get_eq_ok_iff.1 hread).2.symm

/-- A grid refines the map of its cells. In every run the replies are those of the map, and the grid
    at the end stands for the map at the end; reading a cell tells the last successful write to it;
    and the contents of the cells decide the grid. -/
theorem refines_board (wires columns : UInt32) (requests : List Request) :
    (empty wires columns).replies requests = (Board.empty wires columns).replies requests ∧
    (build wires columns requests).board = (Board.empty wires columns).after requests ∧
    (∀ cell : Cell, (build wires columns requests).get cell =
      if cell.wire.index < wires ∧ cell.column.index < columns then
        .ok ((Request.lastWrote? ((empty wires columns).history requests) cell).getD none)
      else .error (.outside cell wires columns)) ∧
    (∀ others : List Request,
      (∀ cell : Cell, cell.wire.index < wires → cell.column.index < columns →
        (build wires columns requests).get cell = (build wires columns others).get cell) →
      build wires columns requests = build wires columns others) := by
  refine ⟨?_, ?_, get_build wires columns requests, fun _ => build_ext⟩
  · rw [replies_eq, board_empty]
  · rw [build, board_after, board_empty]

end Grid

end GateGrid

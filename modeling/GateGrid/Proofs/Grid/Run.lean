import GateGrid.Grid
import GateGrid.Proofs.Grid.Content

/-!
# Runs of requests

A *run* is a sequence of requests to an empty grid. What a single request can do is said once
(`Grid.answer_cases`): it is refused, because of its cell or of its node, and changes nothing; or it
tells what a cell holds; or it writes one cell of the grid. All that stays true through a run
follows from this.

* `Grid.build`: the grid at the end of a run;
* `Grid.after_induction`: what every request preserves holds after a run;
* `Grid.wires_build`, `Grid.columns_build`: a grid keeps its size;
* `Grid.sound_build`: the nodes of a grid fit their wires, whatever was requested.
-/

namespace GateGrid

/-- The cell that a request is about. -/
def Request.cell : Request → Cell
  | .set cell _ => cell
  | .get cell => cell
  | .clear cell => cell

namespace Grid

variable {grid : Grid}

/-- The grid at the end of a run: what the requests make of an empty grid. -/
def build (wires columns : UInt32) (requests : List Request) : Grid :=
  (empty wires columns).after requests

/-- What a request can do: it is refused for its cell or for its node, or the node is stored, or the
    cell is read, or it is emptied. -/
theorem answer_cases (grid : Grid) (request : Request) :
    (¬grid.Contains request.cell ∧
      grid.answer request = (.error (.outside request.cell grid.wires grid.columns), grid)) ∨
    (∃ cell node reason, request = .set cell node ∧ grid.Contains cell ∧
      node.check cell.wire grid.wires = .error reason ∧
      grid.answer request = (.error (.malformed cell reason), grid)) ∨
    (∃ cell node, request = .set cell node ∧ grid.Contains cell ∧
      node.check cell.wire grid.wires = .ok () ∧
      grid.answer request = (.ok .stored, grid.write cell (some node))) ∨
    (∃ cell, request = .get cell ∧ grid.Contains cell ∧
      grid.answer request = (.ok (.content (grid.node? cell)), grid)) ∨
    (∃ cell, request = .clear cell ∧ grid.Contains cell ∧
      grid.answer request = (.ok (.content (grid.node? cell)), grid.write cell none)) := by
  by_cases h : grid.Contains request.cell
  · right
    cases request with
    | set cell node =>
      rw [Request.cell] at h
      cases hcheck : node.check cell.wire grid.wires with
      | error reason =>
        exact .inl ⟨cell, node, reason, rfl, h, hcheck, by simp [answer, set, h, hcheck]⟩
      | ok _ => exact .inr (.inl ⟨cell, node, rfl, h, hcheck, by simp [answer, set, h, hcheck]⟩)
    | get cell =>
      rw [Request.cell] at h
      exact .inr (.inr (.inl ⟨cell, rfl, h, by simp [answer, get, h, Except.map]⟩))
    | clear cell =>
      rw [Request.cell] at h
      exact .inr (.inr (.inr ⟨cell, rfl, h, by simp [answer, clear, h]⟩))
  · refine .inl ⟨h, ?_⟩
    cases request <;> rw [Request.cell] at h <;>
      simp [answer, set, get, clear, Request.cell, h, Except.map]

/-- A request that is refused leaves the grid as it is. -/
theorem answer_of_error {request : Request} {error : Error}
    (h : (grid.answer request).1 = .error error) : (grid.answer request).2 = grid := by
  obtain ⟨_, heq⟩ | ⟨_, _, _, _, _, _, heq⟩ | ⟨_, _, _, _, _, heq⟩ | ⟨_, _, _, heq⟩ |
    ⟨_, _, _, heq⟩ := grid.answer_cases request <;> rw [heq] at h ⊢
  all_goals exact absurd h nofun

@[simp] theorem after_cons (request : Request) (requests : List Request) :
    grid.after (request :: requests) = (grid.answer request).2.after requests := rfl

theorem after_append (requests later : List Request) :
    grid.after (requests ++ later) = (grid.after requests).after later :=
  List.foldl_append

/-- What every request preserves holds after a run. -/
theorem after_induction {P : Grid → Prop}
    (hstep : ∀ grid request, P grid → P (grid.answer request).2)
    (requests : List Request) (h : P grid) : P (grid.after requests) := by
  induction requests generalizing grid with
  | nil => exact h
  | cons request requests ih => exact ih (hstep grid request h)

/-! ### The size of a grid -/

/-- A request leaves the size of a grid as it is. -/
theorem size_answer (grid : Grid) (request : Request) :
    (grid.answer request).2.wires = grid.wires ∧
      (grid.answer request).2.columns = grid.columns := by
  obtain ⟨_, h⟩ | ⟨_, _, _, _, _, _, h⟩ | ⟨_, _, _, _, _, h⟩ | ⟨_, _, _, h⟩ | ⟨_, _, _, h⟩ :=
    grid.answer_cases request <;> rw [h] <;> exact ⟨rfl, rfl⟩

@[simp] theorem wires_answer (request : Request) : (grid.answer request).2.wires = grid.wires :=
  (grid.size_answer request).1

@[simp] theorem columns_answer (request : Request) :
    (grid.answer request).2.columns = grid.columns :=
  (grid.size_answer request).2

@[simp] theorem wires_after (requests : List Request) :
    (grid.after requests).wires = grid.wires :=
  after_induction (P := fun next => next.wires = grid.wires)
    (fun _ request h => (wires_answer request).trans h) requests rfl

@[simp] theorem columns_after (requests : List Request) :
    (grid.after requests).columns = grid.columns :=
  after_induction (P := fun next => next.columns = grid.columns)
    (fun _ request h => (columns_answer request).trans h) requests rfl

@[simp] theorem contains_after (requests : List Request) (cell : Cell) :
    (grid.after requests).Contains cell ↔ grid.Contains cell := by
  rw [Contains, Contains, wires_after, columns_after]

@[simp] theorem wires_build (wires columns : UInt32) (requests : List Request) :
    (build wires columns requests).wires = wires :=
  wires_after requests

@[simp] theorem columns_build (wires columns : UInt32) (requests : List Request) :
    (build wires columns requests).columns = columns :=
  columns_after requests

/-! ### Nodes that fit -/

/-- Every node in a cell of the grid fits the wire of the cell. -/
def Sound (grid : Grid) : Prop :=
  ∀ cell node, grid.get cell = .ok (some node) → node.check cell.wire grid.wires = .ok ()

theorem sound_empty (wires columns : UInt32) : (empty wires columns).Sound := by
  intro cell node h
  rw [get_eq_ok_iff, node?_empty] at h
  exact absurd h.2 nofun

/-- A write keeps a grid sound if what is written fits. -/
theorem Sound.write (h : grid.Sound) {cell : Cell} {content : Option Node}
    (hcell : grid.Contains cell)
    (hfit : ∀ node ∈ content, node.check cell.wire grid.wires = .ok ()) :
    (grid.write cell content).Sound := by
  intro other node hget
  obtain ⟨hother, hnode⟩ := get_eq_ok_iff.1 hget
  rw [contains_write] at hother
  rw [node?_write hcell hother] at hnode
  split at hnode
  · next heq => exact heq ▸ hfit node hnode
  · exact h other node (get_eq_ok_iff.2 ⟨hother, hnode⟩)

/-- No request puts a node where it does not fit. -/
theorem Sound.answer (h : grid.Sound) (request : Request) : (grid.answer request).2.Sound := by
  obtain ⟨_, heq⟩ | ⟨_, _, _, _, _, _, heq⟩ | ⟨cell, node, _, hcell, hcheck, heq⟩ |
    ⟨_, _, _, heq⟩ | ⟨cell, _, hcell, heq⟩ := grid.answer_cases request <;> rw [heq]
  · exact h
  · exact h
  · -- What is stored has just passed the check.
    refine h.write hcell ?_
    rintro _ ⟨⟩
    exact hcheck
  · exact h
  · exact h.write hcell nofun

/-- No run puts a node where it does not fit. -/
theorem Sound.after (h : grid.Sound) (requests : List Request) : (grid.after requests).Sound :=
  after_induction (P := Sound) (fun _ request hgrid => hgrid.answer request) requests h

/-- The nodes of a grid fit their wires, whatever was requested of it. -/
theorem sound_build (wires columns : UInt32) (requests : List Request) :
    (build wires columns requests).Sound :=
  (sound_empty wires columns).after requests

end Grid

end GateGrid

import GateGrid.Proofs.Grid.Board
import GateGrid.Proofs.Grid.Store

/-!
# Requests about different cells

The reply to a request depends on the size of the grid and on what the cell of the request holds,
and on nothing else. So a request is answered alike before and after requests about other cells, and
as these write elsewhere, it does not matter which comes first.

* `Grid.fst_answer_answer`, `Grid.snd_answer_answer`: two requests about different cells do not
  change each other's replies, and lead to the same grid in either order;
* `Grid.fst_answer_after`, `Grid.snd_answer_after`: the same for a request and a run;
* `Grid.replies_after`: the same for the replies to a run after another one.
-/

namespace GateGrid

/-- A request writes into no cell but its own. -/
theorem Request.wrote?_of_ne {request : Request} {cell : Cell} (h : request.cell ≠ cell)
    (reply : Except Grid.Error Reply) : request.wrote? reply cell = none := by
  cases request with
  | set target node =>
    cases reply with
    | error error => rfl
    | ok reply => exact if_neg h
  | get target => rfl
  | clear target =>
    cases reply with
    | error error => rfl
    | ok reply => exact if_neg h

namespace Grid

variable {grid : Grid} {request other : Request}

/-- The reply to a request depends on the size of the grid and on what the cell holds. -/
theorem fst_answer_congr {a b : Grid} (hw : a.wires = b.wires) (hc : a.columns = b.columns)
    (hnode : a.Contains request.cell → a.node? request.cell = b.node? request.cell) :
    (a.answer request).1 = (b.answer request).1 := by
  have hcontains : a.Contains request.cell ↔ b.Contains request.cell := by
    rw [Contains, Contains, hw, hc]
  by_cases h : a.Contains request.cell
  · have h' := hcontains.1 h
    have hnode := hnode h
    cases request with
    | set cell node =>
      rw [Request.cell] at h h'
      simp only [answer, set, h, h', if_true, hw]
      cases node.check cell.wire b.wires <;> rfl
    | get cell =>
      rw [Request.cell] at h h' hnode
      simp only [answer, get, h, h', if_true, hnode]
    | clear cell =>
      rw [Request.cell] at h h' hnode
      simp only [answer, clear, h, h', if_true, hnode]
  · have h' : ¬b.Contains request.cell := fun hb => h (hcontains.2 hb)
    cases request <;> rw [Request.cell] at h h' <;>
      simp only [answer, set, get, clear, h, h', if_false, hw, hc]

/-- A request about another cell leaves what a cell holds. -/
theorem node?_answer_of_ne {cell : Cell} (h : grid.Contains cell) (hne : request.cell ≠ cell) :
    (grid.answer request).2.node? cell = grid.node? cell := by
  rw [node?_answer h, Request.wrote?_of_ne hne]
  rfl

/-- A request is answered alike before and after a request about another cell. -/
theorem fst_answer_answer (hne : other.cell ≠ request.cell) :
    ((grid.answer other).2.answer request).1 = (grid.answer request).1 := by
  refine fst_answer_congr (wires_answer other) (columns_answer other) fun h => ?_
  exact node?_answer_of_ne ((contains_after [other] _).1 h) hne

/-- Two requests about different cells lead to the same grid in either order. -/
theorem snd_answer_answer (hne : other.cell ≠ request.cell) :
    ((grid.answer other).2.answer request).2 = ((grid.answer request).2.answer other).2 := by
  refine ext_node? (by simp) (by simp) fun cell hcell => ?_
  have hcell : grid.Contains cell := (contains_after [other, request] cell).1 hcell
  have hother : (grid.answer other).2.Contains cell := (contains_after [other] cell).2 hcell
  have hrequest : (grid.answer request).2.Contains cell := (contains_after [request] cell).2 hcell
  -- The cell is that of neither request, or of one of them only.
  by_cases heq : other.cell = cell
  · have hne' : request.cell ≠ cell := fun h => hne (heq.trans h.symm)
    rw [node?_answer_of_ne hother hne', node?_answer hcell, node?_answer hrequest,
      fst_answer_answer hne.symm, node?_answer_of_ne hcell hne']
  · rw [node?_answer_of_ne hrequest heq, node?_answer hcell, node?_answer hother,
      fst_answer_answer hne, node?_answer_of_ne hcell heq]

/-- A request is answered alike before and after a run about other cells. -/
theorem fst_answer_after {requests : List Request}
    (h : ∀ other ∈ requests, other.cell ≠ request.cell) :
    ((grid.after requests).answer request).1 = (grid.answer request).1 := by
  induction requests generalizing grid with
  | nil => rfl
  | cons other requests ih =>
    rw [List.forall_mem_cons] at h
    rw [after_cons, ih h.2, fst_answer_answer h.1]

/-- A request leads to the same grid before and after a run about other cells. -/
theorem snd_answer_after {requests : List Request}
    (h : ∀ other ∈ requests, other.cell ≠ request.cell) :
    ((grid.after requests).answer request).2 = (grid.answer request).2.after requests := by
  induction requests generalizing grid with
  | nil => rfl
  | cons other requests ih =>
    rw [List.forall_mem_cons] at h
    rw [after_cons, ih h.2, snd_answer_answer h.1, after_cons]

/-- The requests of a run are answered alike before and after a run about other cells. -/
theorem replies_after {requests others : List Request}
    (h : ∀ request ∈ requests, ∀ other ∈ others, other.cell ≠ request.cell) :
    (grid.after others).replies requests = grid.replies requests := by
  induction requests generalizing grid with
  | nil => rfl
  | cons request requests ih =>
    rw [List.forall_mem_cons] at h
    rw [replies_cons, replies_cons, fst_answer_after h.1, snd_answer_after h.1, ih h.2]

end Grid

end GateGrid

import GateGrid.Compile
import GateGrid.Proofs.Grid.Independent
import GateGrid.Workspace

/-!
# Writers that take turns

Two writers share a grid. Each has a sequence of requests of its own, and they take turns in any
order, through any handles to the grid; in between others may take the lock and give up. A list of
turns tells who did what, so that it is an interleaving of the two sequences.

As long as the writers ask about different cells they do not notice each other: each gets the
replies that it would get alone, and the grid in the end is the one that the first writer would
leave to the second. Who gives up changes nothing but the mark on the lock.

* `Turn`, `Turn.requests`: the turns, and the sequence of requests of each writer;
* `Workspace.after`, `Workspace.replies`: what the turns make of a workspace, and what a writer
  hears;
* `Workspace.Holds.after`: the grid behind the lock is what the requests make of it, in their order;
* `Workspace.Holds.replies_eq`: a writer hears what it would hear alone;
* `Workspace.turns_build`: both for a grid after any run.
-/

namespace GateGrid

/-! ### Turns -/

/-- One of two writers. -/
inductive Writer
  | first
  | second
  deriving DecidableEq

/-- A turn at a shared grid, taken through a handle. -/
inductive Turn
  /-- A writer makes a request. -/
  | ask (writer : Writer) (handle : Nat) (request : Request)
  /-- Someone takes the lock and gives up, without a request. -/
  | giveUp (handle : Nat)

namespace Turn

/-- The handle through which a turn is taken. -/
def handle : Turn → Nat
  | .ask _ handle _ => handle
  | .giveUp handle => handle

/-- The request that is made in a turn, if any. -/
def request? : Turn → Option Request
  | .ask _ _ request => some request
  | .giveUp _ => none

/-- The request that a writer makes in a turn, if it is the writer's turn. -/
def requestOf? (writer : Writer) : Turn → Option Request
  | .ask other _ request => if other = writer then some request else none
  | .giveUp _ => none

/-- The requests of a writer, in their order. -/
def requests (writer : Writer) (turns : List Turn) : List Request :=
  turns.filterMap (·.requestOf? writer)

/-- The requests of different writers are about different cells. -/
def Apart (turns : List Turn) : Prop :=
  ∀ writer other, writer ≠ other → ∀ request ∈ requests writer turns,
    ∀ late ∈ requests other turns, request.cell ≠ late.cell

theorem requests_cons (writer : Writer) (turn : Turn) (turns : List Turn) :
    requests writer (turn :: turns) =
      (turn.requestOf? writer).toList ++ requests writer turns := by
  rw [requests, List.filterMap_cons, ← requests]
  cases turn.requestOf? writer <;> rfl

theorem Apart.tail {turn : Turn} {turns : List Turn} (h : Apart (turn :: turns)) : Apart turns := by
  have hsub (writer : Writer) : requests writer turns ⊆ requests writer (turn :: turns) := by
    rw [requests_cons]
    exact List.subset_append_right _ _
  intro writer other hne request hrequest late hlate
  exact h writer other hne request (hsub _ hrequest) late (hsub _ hlate)

/-- The request of a turn is about a cell that no later request of another writer is about. -/
theorem Apart.head {writer other : Writer} {handle : Nat} {request : Request} {turns : List Turn}
    (h : Apart (.ask writer handle request :: turns)) (hne : other ≠ writer) :
    ∀ late ∈ requests other turns, late.cell ≠ request.cell := by
  intro late hlate
  refine h other writer hne late ?_ request ?_
  · rw [requests_cons]
    exact List.mem_append_right _ hlate
  · rw [requests_cons, requestOf?, if_pos rfl]
    exact List.mem_cons_self

end Turn

/-- A mark on a lock does not change the grid behind it. -/
theorem Lock.access_eq_grid (lock : Lock) : lock.access = lock.grid := by
  rw [access, take]
  cases lock.marked <;> rfl

namespace Workspace

variable {space : Workspace} {place handle : Nat} {grid : Grid} {turns : List Turn}

/-- The workspace after a turn. Through a handle that is not there nothing can be done. -/
def take (space : Workspace) : Turn → Workspace
  | .ask _ handle request =>
    match space.answer handle request with
    | some (_, next) => next
    | none => space
  | .giveUp handle => space.abandon handle

/-- What a writer hears in a turn: the reply to its request, if it is the writer's turn. -/
def heard (space : Workspace) (writer : Writer) : Turn → List (Except Grid.Error Reply)
  | .ask other handle request =>
    if other = writer then (space.answer handle request).toList.map (·.1) else []
  | .giveUp _ => []

/-- The workspace after a sequence of turns. -/
def after (space : Workspace) (turns : List Turn) : Workspace :=
  turns.foldl take space

/-- What a writer hears in a sequence of turns. -/
def replies (space : Workspace) (writer : Writer) : List Turn → List (Except Grid.Error Reply)
  | [] => []
  | turn :: rest => space.heard writer turn ++ (space.take turn).replies writer rest

/-! ### One grid behind its lock -/

/-- The grid stands behind the lock at a place. -/
def Holds (space : Workspace) (place : Nat) (grid : Grid) : Prop :=
  space.locks[place]?.map Lock.access = some grid

theorem handles_modify (handle : Nat) (change : Lock → Lock) :
    (space.modify handle change).handles = space.handles := by
  rw [modify]
  split <;> rfl

/-- Changing the lock changes the grid at its place. -/
theorem Holds.modify (h : space.Holds place grid) (hhandle : space.handles[handle]? = some place)
    {change : Lock → Lock} {next : Grid}
    (hchange : ∀ lock : Lock, lock.grid = grid → (change lock).grid = next) :
    (space.modify handle change).Holds place next := by
  rw [Holds] at h ⊢
  obtain ⟨lock, hlock, hgrid⟩ := Option.map_eq_some_iff.1 h
  simp only [Workspace.modify, hhandle, Array.getElem?_modify, if_true, hlock, Option.map_some,
    Lock.access_eq_grid]
  rw [hchange lock (lock.access_eq_grid.symm.trans hgrid)]

theorem Holds.grid?_eq (h : space.Holds place grid)
    (hhandle : space.handles[handle]? = some place) : space.grid? handle = some grid := by
  obtain ⟨lock, hlock, hgrid⟩ := Option.map_eq_some_iff.1 h
  simp [grid?, hhandle, hlock, hgrid]

/-- The grid behind a handle stands at a place. -/
theorem exists_holds (h : space.grid? handle = some grid) :
    ∃ place, space.handles[handle]? = some place ∧ space.Holds place grid := by
  obtain ⟨place, hplace, h⟩ := Option.bind_eq_some_iff.1 h
  obtain ⟨lock, hlock, h⟩ := Option.bind_eq_some_iff.1 h
  exact ⟨place, hplace, Option.map_eq_some_iff.2 ⟨lock, hlock, Option.some_inj.1 h⟩⟩

/-- A request through a handle is answered by the grid. -/
theorem Holds.answer_eq (h : space.Holds place grid)
    (hhandle : space.handles[handle]? = some place) (request : Request) :
    space.answer handle request = some ((grid.answer request).1,
      space.modify handle (·.leave (grid.answer request).2)) := by
  simp [answer, h.grid?_eq hhandle]

/-! ### Sequences of turns -/

/-- In a turn the grid behind the lock becomes what the request makes of it, and the handles stay. -/
theorem Holds.take {turn : Turn} (h : space.Holds place grid)
    (hhandle : space.handles[turn.handle]? = some place) :
    (space.take turn).Holds place (grid.after turn.request?.toList) ∧
      (space.take turn).handles = space.handles := by
  cases turn with
  | ask writer handle request =>
    rw [Turn.handle] at hhandle
    rw [Workspace.take, h.answer_eq hhandle]
    exact ⟨h.modify hhandle fun _ _ => rfl, handles_modify ..⟩
  | giveUp handle => exact ⟨h.modify hhandle fun _ hgrid => hgrid, handles_modify ..⟩

/-- After a sequence of turns the grid behind the lock is what the requests make of it, in the order
    of the turns. -/
theorem Holds.after (h : space.Holds place grid)
    (hhandles : ∀ turn ∈ turns, space.handles[turn.handle]? = some place) :
    (space.after turns).Holds place (grid.after (turns.filterMap Turn.request?)) ∧
      (space.after turns).handles = space.handles := by
  induction turns generalizing space grid with
  | nil => exact ⟨h, rfl⟩
  | cons turn turns ih =>
    rw [List.forall_mem_cons] at hhandles
    obtain ⟨hnext, hsame⟩ := h.take hhandles.1
    obtain ⟨hafter, hstill⟩ := ih hnext (hsame ▸ hhandles.2)
    refine ⟨?_, hstill.trans hsame⟩
    have hrequests : (turn :: turns).filterMap Turn.request? =
        turn.request?.toList ++ turns.filterMap Turn.request? := by
      cases turn <;> rfl
    rw [hrequests, Grid.after_append]
    exact hafter

/-- A writer hears what it would hear alone. -/
theorem Holds.replies_eq (h : space.Holds place grid)
    (hhandles : ∀ turn ∈ turns, space.handles[turn.handle]? = some place)
    (hapart : Turn.Apart turns) (writer : Writer) :
    space.replies writer turns = grid.replies (Turn.requests writer turns) := by
  induction turns generalizing space grid with
  | nil => rfl
  | cons turn turns ih =>
    rw [List.forall_mem_cons] at hhandles
    obtain ⟨hnext, hsame⟩ := h.take hhandles.1
    rw [replies, ih hnext (hsame ▸ hhandles.2) hapart.tail, Turn.requests_cons]
    cases turn with
    | giveUp handle => rfl
    | ask other handle request =>
      have hhandle : space.handles[handle]? = some place := hhandles.1
      rw [heard, h.answer_eq hhandle, Turn.requestOf?]
      by_cases hwriter : other = writer
      · rw [if_pos hwriter, if_pos hwriter]
        rfl
      · -- The request of the other writer leaves the replies to this one as they are.
        rw [if_neg hwriter, if_neg hwriter]
        exact Grid.replies_after fun late hlate _ hmem =>
          List.mem_singleton.1 hmem ▸ (hapart.head (Ne.symm hwriter) late hlate).symm

/-- The requests of the writers can be sorted: those of the first writer may go before those of the
    second one. -/
theorem after_requests (hapart : Turn.Apart turns) :
    grid.after (turns.filterMap Turn.request?) =
      grid.after (Turn.requests .first turns ++ Turn.requests .second turns) := by
  induction turns generalizing grid with
  | nil => rfl
  | cons turn turns ih =>
    cases turn with
    | giveUp handle => exact ih hapart.tail
    | ask writer handle request =>
      cases writer with
      | first => exact ih hapart.tail
      | second =>
        -- The request goes back over those of the first writer that come later.
        have hback := hapart.head (show Writer.first ≠ Writer.second by decide)
        calc grid.after (request :: turns.filterMap Turn.request?)
            = (grid.answer request).2.after
                (Turn.requests .first turns ++ Turn.requests .second turns) := ih hapart.tail
          _ = ((grid.after (Turn.requests .first turns)).answer request).2.after
                (Turn.requests .second turns) := by
              rw [Grid.after_append, Grid.snd_answer_after hback]
          _ = grid.after (Turn.requests .first turns ++ request :: Turn.requests .second turns) := by
              rw [Grid.after_append, Grid.after_cons]

/-- Two writers share a grid that some run has left behind. Their requests are about different
    cells, and they take turns in any order through any handles to the grid, with others in between
    that take the lock and give up. Then the grid is in the end what it would be if the second
    writer had waited for the first one to finish, and so it is compiled in the same way; and each
    of the writers hears what it would hear alone. -/
theorem turns_build (wires columns : UInt32) (run : List Request) (space : Workspace) (own : Nat)
    (hgrid : space.grid? own = some (.build wires columns run)) (requests others : List Request)
    (hcells : ∀ request ∈ requests, ∀ other ∈ others, request.cell ≠ other.cell)
    (turns : List Turn) (hfirst : Turn.requests .first turns = requests)
    (hsecond : Turn.requests .second turns = others)
    (hhandles : ∀ turn ∈ turns, space.handles[turn.handle]? = space.handles[own]?) :
    (∀ handle, space.handles[handle]? = space.handles[own]? →
      (space.after turns).grid? handle =
        some ((Grid.build wires columns run).after (requests ++ others)) ∧
      ∀ policy, ((space.after turns).grid? handle).map (·.compile policy) =
        some (((Grid.build wires columns run).after (requests ++ others)).compile policy)) ∧
    space.replies .first turns = (Grid.build wires columns run).replies requests ∧
    space.replies .second turns = (Grid.build wires columns run).replies others := by
  subst hfirst hsecond
  obtain ⟨place, hplace, hholds⟩ := exists_holds hgrid
  rw [hplace] at hhandles ⊢
  have hapart : Turn.Apart turns := by
    intro writer other hne request hrequest late hlate
    cases writer <;> cases other
    · exact absurd rfl hne
    · exact hcells request hrequest late hlate
    · exact (hcells late hlate request hrequest).symm
    · exact absurd rfl hne
  obtain ⟨hafter, hsame⟩ := hholds.after hhandles
  rw [after_requests hapart] at hafter
  refine ⟨fun handle hhandle => ?_, hholds.replies_eq hhandles hapart .first,
    hholds.replies_eq hhandles hapart .second⟩
  have hend := hafter.grid?_eq (hsame.symm ▸ hhandle)
  exact ⟨hend, fun policy => by rw [hend, Option.map_some]⟩

/-- The two writers use two handles to a grid with one node. The first one stores a node and asks in
    vain for a column that is not there; the second one is refused a node and then empties its cell.
    Someone has given up before, and again between their turns. -/
theorem turns_build_refusals :
    let space : Workspace := ⟨#[⟨.build 2 2 [.set ⟨⟨1⟩, ⟨1⟩⟩ { kind := .h }], true⟩], #[0, 0]⟩
    let turns : List Turn :=
      [.ask .first 1 (.set ⟨⟨0⟩, ⟨0⟩⟩ { kind := .z, controlA := some ⟨1⟩ }),
        .ask .second 0 (.set ⟨⟨1⟩, ⟨1⟩⟩ { kind := .swap }), .giveUp 1,
        .ask .first 0 (.clear ⟨⟨0⟩, ⟨2⟩⟩), .ask .second 0 (.clear ⟨⟨1⟩, ⟨1⟩⟩)]
    space.replies .first turns = [.ok .stored, .error (.outside ⟨⟨0⟩, ⟨2⟩⟩ 2 2)] ∧
    space.replies .second turns =
      [.error (.malformed ⟨⟨1⟩, ⟨1⟩⟩ .noPartner), .ok (.content (some { kind := .h }))] ∧
    ((space.after turns).grid? 0).map (fun grid => (grid.compile .strict).1) =
      some (.ok ⟨2, [⟨.cz, [⟨1⟩, ⟨0⟩]⟩]⟩) := by
  intro space turns
  have h := turns_build 2 2 [.set ⟨⟨1⟩, ⟨1⟩⟩ { kind := .h }] space 0 rfl
    [.set ⟨⟨0⟩, ⟨0⟩⟩ { kind := .z, controlA := some ⟨1⟩ }, .clear ⟨⟨0⟩, ⟨2⟩⟩]
    [.set ⟨⟨1⟩, ⟨1⟩⟩ { kind := .swap }, .clear ⟨⟨1⟩, ⟨1⟩⟩] (by decide) turns rfl rfl (by decide)
  obtain ⟨hgrid, hfirst, hsecond⟩ := h
  refine ⟨hfirst, hsecond, ?_⟩
  rw [(hgrid 0 rfl).1]
  rfl

end Workspace

end GateGrid

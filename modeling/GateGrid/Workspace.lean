import GateGrid.Grid

/-!
# Shared grids

Several holders may use one grid: each has a *handle*, and what one of them writes the others see.
A *workspace* keeps the grids and the handles to them. A grid stands behind a *lock*, so that
requests are carried out whole and one at a time.

A holder that gives up while it holds the lock leaves a mark on it. Who takes a marked lock is
warned, and goes on all the same: a grid is checked before it is written, and so is never left
half written.

* `Lock.access`: the grid behind a lock, marked or not.
* `Workspace.answer`: a request through a handle.
* `Workspace.abandon`: a holder takes the lock and gives up.
* `Workspace.share`, `Workspace.copy`: a new handle to the same grid, or to a copy of it.
-/

namespace GateGrid

/-- A grid behind a lock. -/
structure Lock where
  /-- The grid. -/
  grid : Grid
  /-- A holder gave up while it held the lock. -/
  marked : Bool := false

namespace Lock

variable (lock : Lock)

/-- Takes the lock: the grid, which comes with a warning if the lock is marked. -/
def take : Except Grid Grid :=
  if lock.marked then .error lock.grid else .ok lock.grid

/-- The grid behind the lock. A warning is passed over. -/
def access : Grid :=
  match lock.take with
  | .ok grid => grid
  | .error grid => grid

/-- The lock after its holder has left another grid behind. A mark stays. -/
def leave (grid : Grid) : Lock := { lock with grid }

/-- The lock after its holder has given up. -/
def mark : Lock := { lock with marked := true }

end Lock

/-- Grids, and handles to them. -/
structure Workspace where
  /-- The grids, behind their locks. -/
  locks : Array Lock
  /-- For each handle the place of its grid. -/
  handles : Array Nat

namespace Workspace

/-- A workspace with one grid and one handle to it. -/
def ofGrid (grid : Grid) : Workspace := ⟨#[{ grid }], #[0]⟩

variable (space : Workspace)

/-- The grid behind a handle. -/
def grid? (handle : Nat) : Option Grid := do
  let place ← space.handles[handle]?
  let lock ← space.locks[place]?
  return lock.access

/-- Changes the lock behind a handle, and so behind all handles that share its grid. -/
def modify (handle : Nat) (change : Lock → Lock) : Workspace :=
  match space.handles[handle]? with
  | some place => { space with locks := space.locks.modify place change }
  | none => space

/-- Carries out a request through a handle; none if there is no such handle. -/
def answer (handle : Nat) (request : Request) :
    Option (Except Grid.Error Reply × Workspace) := do
  let grid ← space.grid? handle
  let (reply, next) := grid.answer request
  return (reply, space.modify handle (·.leave next))

/-- A holder takes the lock through a handle, to write, and gives up. -/
def abandon (handle : Nat) : Workspace := space.modify handle (·.mark)

/-- A new handle to the grid behind a handle. -/
def share (handle : Nat) : Option (Nat × Workspace) := do
  let place ← space.handles[handle]?
  return (space.handles.size, { space with handles := space.handles.push place })

/-- A new handle to a copy of the grid behind a handle. The copy has a lock of its own. -/
def copy (handle : Nat) : Option (Nat × Workspace) := do
  let grid ← space.grid? handle
  return (space.handles.size,
    { locks := space.locks.push { grid }, handles := space.handles.push space.locks.size })

/-- The grids behind two handles are the same up to the numbers meant by the angles. -/
def numEq (a b : Nat) : Option Bool := do
  return (← space.grid? a).numEq (← space.grid? b)

end Workspace

end GateGrid

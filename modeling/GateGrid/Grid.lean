import GateGrid.Node.Build

/-!
# Grids

A grid has a fixed number of wires and of columns, and each of its cells is empty or holds a node
that fits its wire. The cells are stored wire by wire; they are walked column by column, which is
the order of time.

* `Grid.get`, `Grid.set`, `Grid.clear`: reading and writing a cell. A write that fails changes
  nothing.
* `Grid.placements`: the nodes of a grid with their cells, in the order of time.
* `Grid.display`: the text of a grid for people.
* `Grid.numEq`: equality up to the numbers meant by the angles.

A grid is used by requests. Each is answered by a reply and leaves a grid behind, which is the same
grid if the request fails.

* `Grid.answer`: the reply to a request, and the grid after it.
* `Grid.after`: the grid after a sequence of requests.
* `Grid.replies`: the replies to a sequence of requests.
-/

namespace GateGrid

/-- A grid of cells that are empty or hold a node. -/
structure Grid where
  /-- The number of wires. -/
  wires : UInt32
  /-- The number of columns. -/
  columns : UInt32
  /-- The contents of the cells, wire by wire. -/
  slots : Array (Option Node)
  /-- There is a slot for each cell. -/
  size_slots : slots.size = wires.toNat * columns.toNat

/-- A node and the cell that holds it. -/
structure Placement where
  /-- The cell. -/
  cell : Cell
  /-- The node in it. -/
  node : Node
  deriving DecidableEq

namespace Grid

/-- Why a grid refuses a request. -/
inductive Error
  /-- The cell is outside a grid with these numbers of wires and columns. -/
  | outside (cell : Cell) (wires columns : UInt32)
  /-- The node for the cell is malformed. -/
  | malformed (cell : Cell) (reason : Malformed)
  deriving DecidableEq

/-- The text that says why. -/
def Error.message : Error → String
  | .outside cell wires columns =>
    "Cell " ++ cell.label ++ " is outside the " ++ toString wires.toNat ++ "x" ++
      toString columns.toNat ++ " grid"
  | .malformed cell reason => "Malformed node at " ++ cell.label ++ ": " ++ reason.message

/-- The grid with all cells empty. -/
def empty (wires columns : UInt32) : Grid where
  wires := wires
  columns := columns
  slots := Array.replicate (wires.toNat * columns.toNat) none
  size_slots := Array.size_replicate

variable (grid : Grid)

/-- A cell lies in the grid. -/
def Contains (cell : Cell) : Prop :=
  cell.wire.index < grid.wires ∧ cell.column.index < grid.columns

instance (cell : Cell) : Decidable (grid.Contains cell) :=
  inferInstanceAs (Decidable (_ ∧ _))

/-- Where the content of a cell is stored. -/
def slot (cell : Cell) : Nat :=
  cell.wire.index.toNat * grid.columns.toNat + cell.column.index.toNat

/-- A cell of the grid has a slot. -/
theorem slot_lt {grid : Grid} {cell : Cell} (h : grid.Contains cell) :
    grid.slot cell < grid.slots.size := by
  have hw : cell.wire.index.toNat + 1 ≤ grid.wires.toNat := UInt32.lt_iff_toNat_lt.1 h.1
  have hc : cell.column.index.toNat < grid.columns.toNat := UInt32.lt_iff_toNat_lt.1 h.2
  calc grid.slot cell
      < cell.wire.index.toNat * grid.columns.toNat + grid.columns.toNat := Nat.add_lt_add_left hc _
    _ = (cell.wire.index.toNat + 1) * grid.columns.toNat := (Nat.succ_mul _ _).symm
    _ ≤ grid.wires.toNat * grid.columns.toNat := Nat.mul_le_mul_right _ hw
    _ = grid.slots.size := grid.size_slots.symm

/-- The node in a cell of the grid, if there is one. -/
def node? (cell : Cell) : Option Node :=
  grid.slots[grid.slot cell]?.join

/-- The grid with another content in a cell. -/
def write (cell : Cell) (content : Option Node) : Grid where
  wires := grid.wires
  columns := grid.columns
  slots := grid.slots.setIfInBounds (grid.slot cell) content
  size_slots := by rw [Array.size_setIfInBounds, grid.size_slots]

/-- The content of a cell. -/
def get (cell : Cell) : Except Error (Option Node) :=
  if grid.Contains cell then .ok (grid.node? cell)
  else .error (.outside cell grid.wires grid.columns)

/-- Puts a node into a cell, in place of what was there. The node has to fit its wire. -/
def set (cell : Cell) (node : Node) : Except Error Grid :=
  if grid.Contains cell then
    match node.check cell.wire grid.wires with
    | .error reason => .error (.malformed cell reason)
    | .ok () => .ok (grid.write cell (some node))
  else .error (.outside cell grid.wires grid.columns)

/-- Empties a cell: what was in it, and the grid without it. -/
def clear (cell : Cell) : Except Error (Option Node × Grid) :=
  if grid.Contains cell then .ok (grid.node? cell, grid.write cell none)
  else .error (.outside cell grid.wires grid.columns)

/-! ### The whole grid -/

/-- The number of cells that hold a node. -/
def numOccupied : Nat := grid.slots.countP Option.isSome

/-- No cell holds a node. -/
def isEmpty : Bool := grid.slots.all Option.isNone

/-- The cells of the grid in the order of time: column by column, and from the top in each column.
    With `n` wires, cell number `i` lies on wire `i % n` and in column `i / n`. -/
def cells : List Cell :=
  (List.range (grid.wires.toNat * grid.columns.toNat)).map fun i =>
    ⟨⟨UInt32.ofNat (i % grid.wires.toNat)⟩, ⟨UInt32.ofNat (i / grid.wires.toNat)⟩⟩

/-- The nodes of the grid with their cells, in the order of time. -/
def placements : List Placement :=
  grid.cells.filterMap fun cell => (grid.node? cell).map fun node => ⟨cell, node⟩

/-- The slots of a wire, in the order of the columns. -/
def row (wire : Wire) : List (Option Node) :=
  let start := wire.index.toNat * grid.columns.toNat
  (grid.slots.extract start (start + grid.columns.toNat)).toList

/-- The text of the content of a cell: that of its node, or a point. -/
def displaySlot : Option Node → String
  | some node => node.display
  | none => "."

/-- The text of a grid for people: its size, and a line for each wire. -/
def display : String :=
  "GridStore " ++ toString grid.wires.toNat ++ "x" ++ toString grid.columns.toNat ++ ":" ++
    String.join ((Wire.range grid.wires).map fun wire =>
      "\n" ++ wire.label ++ ":" ++
        String.join ((grid.row wire).map fun content => " " ++ displaySlot content))

/-- The two contents are the same up to the numbers meant by the angles. -/
def slotNumEq : Option Node → Option Node → Bool
  | some a, some b => a.numEq b
  | none, none => true
  | _, _ => false

/-- The two grids have the same size and in each cell the same content, up to the numbers meant by
    the angles. -/
def numEq (a b : Grid) : Bool :=
  a.wires == b.wires && a.columns == b.columns &&
    (a.slots.toList.zip b.slots.toList).all fun (p, q) => slotNumEq p q

end Grid

/-! ### Requests -/

/-- A request to a grid. -/
inductive Request
  /-- Put a node into a cell. -/
  | set (cell : Cell) (node : Node)
  /-- Tell the content of a cell. -/
  | get (cell : Cell)
  /-- Empty a cell and tell what was in it. -/
  | clear (cell : Cell)
  deriving DecidableEq

/-- The reply to a request that was carried out. -/
inductive Reply
  /-- The node was stored. -/
  | stored
  /-- The content of the cell, before it was emptied if that was the request. -/
  | content (node : Option Node)
  deriving DecidableEq

namespace Grid

/-- Carries out a request: the reply, and the grid after it. -/
def answer (grid : Grid) : Request → Except Error Reply × Grid
  | .set cell node =>
    match grid.set cell node with
    | .ok next => (.ok .stored, next)
    | .error error => (.error error, grid)
  | .get cell => ((grid.get cell).map .content, grid)
  | .clear cell =>
    match grid.clear cell with
    | .ok (content, next) => (.ok (.content content), next)
    | .error error => (.error error, grid)

/-- The grid after a sequence of requests. -/
def after (grid : Grid) (requests : List Request) : Grid :=
  requests.foldl (fun current request => (current.answer request).2) grid

/-- The replies to a sequence of requests. -/
def replies (grid : Grid) : List Request → List (Except Error Reply)
  | [] => []
  | request :: rest =>
    let (reply, next) := grid.answer request
    reply :: next.replies rest

end Grid

end GateGrid

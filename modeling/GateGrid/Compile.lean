import GateGrid.Circuit
import GateGrid.Grid
import GateGrid.Policy
import GateGrid.Resolution

/-!
# Compiling grids

A grid is compiled to a circuit by resolving its nodes in the order of time. Set fields that an
operation leaves out are reviewed by the policy. The first error ends the compilation.

A compilation tells what it does as a sequence of *events*, which a log shows as lines of text. What
went on before an error has been told.

* `Event`: what can be told.
* `Event.line`: the line of an event in a log.
* `Policy.review`: what a policy makes of the fields left out.
* `Placement.compile`: the operation of one node.
* `Grid.compile`: the circuit of a grid, or an error, and the events.
-/

namespace GateGrid

/-! ### Events -/

/-- What is told while a grid is compiled. -/
inductive Event
  /-- A grid of this size is being compiled; what follows belongs to it. -/
  | span (wires columns : UInt32)
  /-- The compilation starts. -/
  | started (wires columns : UInt32) (occupied : Nat)
  /-- A set field of a node is left out. -/
  | ignored (cell : Cell) (kind : Node.Kind) (field : Node.Field)
  /-- A node was resolved to an operation. -/
  | emitted (placement : Placement) (operation : Operation)
  /-- The compilation is done. -/
  | finished (operations : Nat)
  deriving DecidableEq

/-- The text of an event in a log. -/
def Event.line : Event → String
  | .span wires columns =>
    "SPAN compile wires=" ++ toString wires.toNat ++ " columns=" ++ toString columns.toNat
  | .started wires columns occupied =>
    "INFO Compiling " ++ toString wires.toNat ++ "x" ++ toString columns.toNat ++ " grid with " ++
      toString occupied ++ " occupied cells"
  | .ignored cell kind field =>
    "WARN Ignoring '" ++ field.name ++ "' on " ++ kind.mnemonic ++ " node at " ++ cell.label
  | .emitted placement operation =>
    "DEBUG " ++ placement.cell.column.label ++ " " ++ placement.cell.wire.label ++ ": " ++
      placement.node.display ++ " -> " ++ operation.kind.name ++ " [" ++
      ", ".intercalate (operation.wires.map fun wire => toString wire.index.toNat) ++ "]"
  | .finished operations => "INFO Grid compiled to " ++ toString operations ++ " operations"

/-! ### Compilations -/

namespace Policy

/-- What a policy makes of the set fields that an operation leaves out: warnings, or an error at the
    first of them. -/
def review (policy : Policy) (placement : Placement) (unused : List Node.Field) :
    Except Grid.Error (List Event) :=
  match policy, unused with
  | .permissive, _ => .ok (unused.map (.ignored placement.cell placement.node.kind ·))
  | .strict, [] => .ok []
  | .strict, field :: _ =>
    .error (.malformed placement.cell (.unusedField placement.node.kind field))

end Policy

/-- The operation of a placed node in a grid with `wires` wires, and what is told about it. -/
def Placement.compile (policy : Policy) (wires : UInt32) (placement : Placement) :
    Except Grid.Error (Operation × List Event) :=
  match placement.node.resolve placement.cell.wire wires with
  | .error reason => .error (.malformed placement.cell reason)
  | .ok resolution =>
    match policy.review placement resolution.unused with
    | .error error => .error error
    | .ok warnings =>
      .ok (resolution.operation, warnings ++ [.emitted placement resolution.operation])

namespace Grid

/-- The operations of placed nodes in a grid with `wires` wires, up to the first error, and what is
    told about those before it. -/
def compilePlacements (policy : Policy) (wires : UInt32) :
    List Placement → Except Error (List Operation) × List Event
  | [] => (.ok [], [])
  | placement :: rest =>
    match placement.compile policy wires with
    | .error error => (.error error, [])
    | .ok (operation, events) =>
      let (operations, later) := compilePlacements policy wires rest
      (operations.map (operation :: ·), events ++ later)

/-- The circuit of a grid under a policy, or the first error in the order of time, and what is told
    on the way. -/
def compile (policy : Policy) (grid : Grid) : Except Error Circuit × List Event :=
  let opening : List Event :=
    [.span grid.wires grid.columns, .started grid.wires grid.columns grid.numOccupied]
  match compilePlacements policy grid.wires grid.placements with
  | (.ok operations, events) =>
    (.ok ⟨grid.wires, operations⟩, opening ++ events ++ [.finished operations.length])
  | (.error error, events) => (.error error, opening ++ events)

end Grid

end GateGrid

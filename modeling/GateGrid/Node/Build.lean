import GateGrid.Node.Basic

/-!
# Building and checking nodes

Nodes are put together by calls: one that starts a node, and others that set its fields. The second
control is set only together with the first, so that no sequence of calls makes a node with a
second control alone.

A node fits on a wire of a grid when its second control comes with a first one, its lanes are wires
of the grid, all different and none the wire itself, and it has a partner if it is an exchange.

* `Build`: the calls.
* `Node.build?`: the node that a sequence of calls makes.
* `Malformed`: what can be wrong with a node, and the text that says so.
* `Node.check`: the first thing that is wrong with a node on a wire.
* `Node.Kind.ofText`: the kind that a text names, or what is wrong with the text.
-/

namespace GateGrid

/-! ### Building a node -/

/-- A call that starts a node or sets fields of it. -/
inductive Build
  /-- Starts a node with nothing but a kind. -/
  | start (kind : Node.Kind)
  /-- Starts an exchange with a partner. -/
  | startSwap (partner : Wire)
  /-- Starts a barrier. -/
  | startBarrier
  /-- Sets the angle. -/
  | angle (radians : Binary64)
  /-- Sets the first control; a second one stays. -/
  | control (wire : Wire)
  /-- Sets both controls. -/
  | controls (a b : Wire)
  /-- Sets the partner. -/
  | partner (wire : Wire)
  deriving DecidableEq

namespace Build

/-- What a call makes of the node so far. Starting a node drops it; setting a field needs one. -/
def apply : Build → Option Node → Option Node
  | .start kind, _ => some { kind }
  | .startSwap other, _ => some { kind := .swap, swapPartner := some other }
  | .startBarrier, _ => some { kind := .barrier }
  | .angle radians, node => node.map ({ · with angle := radians })
  | .control wire, node => node.map ({ · with controlA := some wire })
  | .controls a b, node => node.map ({ · with controlA := some a, controlB := some b })
  | .partner wire, node => node.map ({ · with swapPartner := some wire })

end Build

/-- The node that a sequence of calls makes; none if no call starts one. -/
def Node.build? (calls : List Build) : Option Node :=
  calls.foldl (fun node call => call.apply node) none

/-! ### Checking a node against its place -/

/-- What is wrong with a node. -/
inductive Malformed
  /-- No kind has this name. -/
  | unknownKind (text : String)
  /-- There is a second control and no first one. -/
  | loneControlB
  /-- A lane is the wire of the node itself. -/
  | ownWire (lane : Wire)
  /-- A lane is no wire of a grid with this number of wires. -/
  | outOfRange (lane : Wire) (wires : UInt32)
  /-- A lane is named twice. -/
  | repeatedLane (lane : Wire)
  /-- An exchange has no partner. -/
  | noPartner
  /-- A set field has no meaning for nodes of this kind. -/
  | unusedField (kind : Node.Kind) (field : Node.Field)
  deriving DecidableEq

/-- The text that says what is wrong. -/
def Malformed.message : Malformed → String
  | .unknownKind text => "unknown node kind '" ++ text ++ "'"
  | .loneControlB => "control_b is set without control_a"
  | .ownWire lane => lane.label ++ " references the node's own wire"
  | .outOfRange lane wires =>
    lane.label ++ " is outside a grid of " ++ toString wires.toNat ++ " wires"
  | .repeatedLane lane => lane.label ++ " is referenced more than once"
  | .noPartner => "swap node has no swap partner"
  | .unusedField kind field =>
    "field '" ++ field.name ++ "' has no meaning for " ++ kind.mnemonic ++ " nodes"

namespace Node

/-- The kind that a text names, or else the text as it was given. -/
def Kind.ofText (text : String) : Except Malformed Kind :=
  match Kind.ofText? text with
  | some kind => .ok kind
  | none => .error (.unknownKind text)

/-- Checks lanes in their order, after the lanes `seen`: each is a wire of the grid, not the wire
    itself, and not seen before. -/
def checkLanes (wire : Wire) (wires : UInt32) (seen : List Wire) :
    List Wire → Except Malformed Unit
  | [] => .ok ()
  | lane :: rest =>
    if wires ≤ lane.index then .error (.outOfRange lane wires)
    else if lane = wire then .error (.ownWire lane)
    else if lane ∈ seen then .error (.repeatedLane lane)
    else checkLanes wire wires (lane :: seen) rest

/-- Checks a node that stands on a wire of a grid with `wires` wires. -/
def check (node : Node) (wire : Wire) (wires : UInt32) : Except Malformed Unit :=
  if node.controlB.isSome ∧ node.controlA.isNone then .error .loneControlB
  else
    match checkLanes wire wires [] node.lanes with
    | .error reason => .error reason
    | .ok () =>
      if node.kind = .swap ∧ node.swapPartner.isNone then .error .noPartner else .ok ()

end Node

end GateGrid

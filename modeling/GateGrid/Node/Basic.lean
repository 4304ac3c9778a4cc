import GateGrid.Cell
import GateGrid.Node.Kind
import GateGrid.Number.Style

/-!
# Nodes

A node is what a cell holds: a kind, an angle, and up to three *lanes*, which are other wires that
the gate involves. An angle counts as set when it is not zero; a lane when it is there at all.

* `Node`: the type, whose equality is that of the bits of the angle.
* `Node.numEq`: equality up to the numbers meant by the angles.
* `Node.Field`: the fields beside the kind, which a node may hold or not.
* `Node.display`: the text of a node for people.
-/

namespace GateGrid

/-- A gate placed in a cell. -/
structure Node where
  /-- The kind of gate. -/
  kind : Node.Kind
  /-- The angle, in radians. -/
  angle : Binary64 := .zero
  /-- The first control. -/
  controlA : Option Wire := none
  /-- The second control. -/
  controlB : Option Wire := none
  /-- The wire to exchange the node's own wire with. -/
  swapPartner : Option Wire := none
  deriving DecidableEq

namespace Node

/-- The fields of a node beside its kind. -/
inductive Field
  | angle
  | controlA
  | controlB
  | swapPartner
  deriving DecidableEq

/-- The name of a field in texts. -/
def Field.name : Field → String
  | .angle => "angle"
  | .controlA => "control_a"
  | .controlB => "control_b"
  | .swapPartner => "swap_partner"

/-- The angle is set. -/
def isRotated (node : Node) : Bool := !node.angle.isZero

/-- A field is set. -/
def holds (node : Node) : Field → Bool
  | .angle => node.isRotated
  | .controlA => node.controlA.isSome
  | .controlB => node.controlB.isSome
  | .swapPartner => node.swapPartner.isSome

/-- The node with a field unset. -/
def erase (node : Node) : Field → Node
  | .angle => { node with angle := .zero }
  | .controlA => { node with controlA := none }
  | .controlB => { node with controlB := none }
  | .swapPartner => { node with swapPartner := none }

/-- The lanes that are set: the controls, then the partner. -/
def lanes (node : Node) : List Wire :=
  node.controlA.toList ++ node.controlB.toList ++ node.swapPartner.toList

/-- The two nodes are the same up to the numbers meant by their angles. -/
def numEq (a b : Node) : Bool :=
  a.kind == b.kind && a.angle.numEq b.angle && a.controlA == b.controlA &&
    a.controlB == b.controlB && a.swapPartner == b.swapPartner

/-- The set fields, as texts for people. -/
def details (node : Node) : List String :=
  (if node.isRotated then ["angle=" ++ node.angle.display] else []) ++
    node.controlA.toList.map (fun wire => "ctrl_a=" ++ wire.label) ++
    node.controlB.toList.map (fun wire => "ctrl_b=" ++ wire.label) ++
    node.swapPartner.toList.map (fun wire => "swap=" ++ wire.label)

/-- The text of a node for people: its mnemonic, and its set fields in parentheses. -/
def display (node : Node) : String :=
  match node.details with
  | [] => node.kind.mnemonic
  | details => node.kind.mnemonic ++ "(" ++ ", ".intercalate details ++ ")"

end Node

end GateGrid

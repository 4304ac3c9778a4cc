import GateGrid.Node.Build
import GateGrid.Operation.Basic

/-!
# From nodes to operations

A node resolves to exactly one operation, chosen by its kind and by which of its fields are set.

| kind | alone | one control | two controls | angle | angle and control |
|------|-------|-------------|--------------|-------|-------------------|
| x | `x` | `cx` | `ccx` | `rx` | `rx` |
| y | `y` | `cy` | `cy` | `ry` | `ry` |
| z | `z` | `cz` | `cz` | `rz` | `crz` |
| h | `h` | `ch` | `ch` | `h` | `ch` |
| swap | `swap` | `cswap` | `cswap` | `swap` | `cswap` |

The other kinds have one operation each; that of a barrier takes every wire of the grid. Set fields
that the operation leaves out are reported.

* `Node.choose`: the operation of a node, with the controls that its kind leaves out.
* `Node.resolve`: the operation of a node that fits its place, with the set fields it leaves out.
-/

namespace GateGrid

/-- What a node resolves to. -/
structure Resolution where
  /-- The operation. -/
  operation : Operation
  /-- The set fields that the operation leaves out. -/
  unused : List Node.Field
  deriving DecidableEq

namespace Node

/-- The operation of a node on a wire of a grid with `wires` wires, and the controls that it leaves
    out, whether they are set or not. -/
def choose (node : Node) (wire : Wire) (wires : UInt32) :
    Except Malformed (Operation × List Field) :=
  match node.kind with
  | .identity => .ok (⟨.id, [wire]⟩, [.controlA, .controlB])
  | .x =>
    if node.isRotated then .ok (⟨.rx node.angle, [wire]⟩, [.controlA, .controlB])
    else match node.controlA, node.controlB with
      | some a, some b => .ok (⟨.ccx, [a, b, wire]⟩, [])
      | some a, none => .ok (⟨.cx, [a, wire]⟩, [])
      | none, _ => .ok (⟨.x, [wire]⟩, [])
  | .y =>
    if node.isRotated then .ok (⟨.ry node.angle, [wire]⟩, [.controlA, .controlB])
    else match node.controlA with
      | some a => .ok (⟨.cy, [a, wire]⟩, [.controlB])
      | none => .ok (⟨.y, [wire]⟩, [])
  | .z =>
    match node.isRotated, node.controlA with
    | true, some a => .ok (⟨.crz node.angle, [a, wire]⟩, [.controlB])
    | true, none => .ok (⟨.rz node.angle, [wire]⟩, [.controlB])
    | false, some a => .ok (⟨.cz, [a, wire]⟩, [.controlB])
    | false, none => .ok (⟨.z, [wire]⟩, [.controlB])
  | .s => .ok (⟨.s, [wire]⟩, [.controlA, .controlB])
  | .sdg => .ok (⟨.sdg, [wire]⟩, [.controlA, .controlB])
  | .t => .ok (⟨.t, [wire]⟩, [.controlA, .controlB])
  | .tdg => .ok (⟨.tdg, [wire]⟩, [.controlA, .controlB])
  | .h =>
    match node.controlA with
    | some a => .ok (⟨.ch, [a, wire]⟩, [.controlB])
    | none => .ok (⟨.h, [wire]⟩, [.controlB])
  | .swap =>
    match node.swapPartner, node.controlA with
    | none, _ => .error .noPartner
    | some partner, some a => .ok (⟨.cswap, [a, wire, partner]⟩, [.controlB])
    | some partner, none => .ok (⟨.swap, [wire, partner]⟩, [.controlB])
  | .barrier => .ok (⟨.barrier, Wire.range wires⟩, [.controlA, .controlB])

/-- The partner and the angle, as far as nodes of a kind leave them out. -/
def Kind.leavesOut (kind : Kind) : List Field :=
  (if kind = .swap then [] else [.swapPartner]) ++ (if kind.isRotatable then [] else [.angle])

/-- The operation of a node on a wire of a grid with `wires` wires. The node is checked first. Of
    the fields left out those that are set are reported, the partner and the angle before the
    controls. -/
def resolve (node : Node) (wire : Wire) (wires : UInt32) : Except Malformed Resolution :=
  match node.check wire wires with
  | .error reason => .error reason
  | .ok () =>
    match node.choose wire wires with
    | .error reason => .error reason
    | .ok (operation, controls) =>
      .ok ⟨operation, (node.kind.leavesOut ++ controls).filter node.holds⟩

end Node

end GateGrid

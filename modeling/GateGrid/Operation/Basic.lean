import GateGrid.Cell
import GateGrid.Number.Style

/-!
# Operations

An operation is a primitive instruction on wires: a kind, which for a rotation holds the angle, and
the wires it acts on, controls first.

* `Operation.Kind.arity`: how many wires a kind takes; a barrier takes any number.
* `Operation.Kind.group`: a coarser view of the kinds.
* `Operation.make`: an operation with as many wires as its kind takes.
* `Operation.numEq`: equality up to the numbers meant by the angles.
-/

namespace GateGrid.Operation

/-- The kind of an operation. -/
inductive Kind
  | id | x | y | z | h | s | sdg | t | tdg
  | rx (angle : Binary64) | ry (angle : Binary64) | rz (angle : Binary64)
  | cx | cy | cz | ch | crz (angle : Binary64) | ccx
  | swap | cswap
  | barrier
  deriving DecidableEq

/-- A coarser view of the kinds of operations. -/
inductive Group
  | singleQubit
  | controlled
  | doublyControlled
  | rotation
  | controlledRotation
  | swap
  | controlledSwap
  | barrier
  | identity
  deriving DecidableEq

/-- Every group. -/
def Group.all : List Group :=
  [.singleQubit, .controlled, .doublyControlled, .rotation, .controlledRotation, .swap,
   .controlledSwap, .barrier, .identity]

/-- The name of a group. -/
def Group.name : Group → String
  | .singleQubit => "SingleQubit"
  | .controlled => "Controlled"
  | .doublyControlled => "DoublyControlled"
  | .rotation => "Rotation"
  | .controlledRotation => "ControlledRotation"
  | .swap => "Swap"
  | .controlledSwap => "ControlledSwap"
  | .barrier => "Barrier"
  | .identity => "Identity"

namespace Kind

/-- The word by which texts name an operation. -/
def name : Kind → String
  | .id => "id"
  | .x => "x"
  | .y => "y"
  | .z => "z"
  | .h => "h"
  | .s => "s"
  | .sdg => "sdg"
  | .t => "t"
  | .tdg => "tdg"
  | .rx _ => "rx"
  | .ry _ => "ry"
  | .rz _ => "rz"
  | .cx => "cx"
  | .cy => "cy"
  | .cz => "cz"
  | .ch => "ch"
  | .crz _ => "crz"
  | .ccx => "ccx"
  | .swap => "swap"
  | .cswap => "cswap"
  | .barrier => "barrier"

/-- How many wires an operation takes; a barrier takes any number. -/
def arity : Kind → Option Nat
  | .id | .x | .y | .z | .h | .s | .sdg | .t | .tdg | .rx _ | .ry _ | .rz _ => some 1
  | .cx | .cy | .cz | .ch | .crz _ | .swap => some 2
  | .ccx | .cswap => some 3
  | .barrier => none

/-- The angle of a rotation. -/
def angle? : Kind → Option Binary64
  | .rx angle | .ry angle | .rz angle | .crz angle => some angle
  | _ => none

/-- The group of a kind. -/
def group : Kind → Group
  | .id => .identity
  | .x | .y | .z | .h | .s | .sdg | .t | .tdg => .singleQubit
  | .rx _ | .ry _ | .rz _ => .rotation
  | .cx | .cy | .cz | .ch => .controlled
  | .crz _ => .controlledRotation
  | .ccx => .doublyControlled
  | .swap => .swap
  | .cswap => .controlledSwap
  | .barrier => .barrier

/-- The two kinds are the same up to the numbers meant by their angles. -/
def numEq : Kind → Kind → Bool
  | .rx a, .rx b | .ry a, .ry b | .rz a, .rz b | .crz a, .crz b => a.numEq b
  | .rx _, _ | .ry _, _ | .rz _, _ | .crz _, _ => false
  | a, b => a == b

/-- A kind takes this number of wires. -/
def takes (kind : Kind) (count : Nat) : Bool :=
  kind.arity.all (· == count)

end Kind

end Operation

/-- A primitive instruction. -/
structure Operation where
  /-- The kind of instruction. -/
  kind : Operation.Kind
  /-- The wires it acts on, controls first. -/
  wires : List Wire
  deriving DecidableEq

namespace Operation

/-- An operation was given a number of wires that its kind does not take. -/
structure ArityError where
  /-- The kind of operation. -/
  kind : Kind
  /-- The number of wires given. -/
  count : Nat
  deriving DecidableEq

/-- The text that says how many wires were expected. -/
def ArityError.message (error : ArityError) : String :=
  let expected := match error.kind.arity with
    | some n => "Some(" ++ toString n ++ ")"
    | none => "None"
  "operation '" ++ error.kind.name ++ "' expects " ++ expected ++ " wires, got " ++
    toString error.count

/-- An operation with as many wires as its kind takes. -/
def make (kind : Kind) (wires : List Wire) : Except ArityError Operation :=
  if kind.takes wires.length then .ok ⟨kind, wires⟩ else .error ⟨kind, wires.length⟩

/-- An operation on one wire. -/
def single (kind : Kind) (wire : Wire) : Except ArityError Operation :=
  make kind [wire]

/-- A barrier across wires. -/
def barrier (wires : List Wire) : Except ArityError Operation :=
  make .barrier wires

/-- The operation is a barrier. -/
def isBarrier (operation : Operation) : Bool := operation.kind == .barrier

/-- The two operations are the same up to the numbers meant by their angles. -/
def numEq (a b : Operation) : Bool :=
  a.kind.numEq b.kind && a.wires == b.wires

/-- The text of an operation for people: its name, the angle of a rotation, and its wires. -/
def display (operation : Operation) : String :=
  let angle := match operation.kind.angle? with
    | some angle => "(" ++ angle.display ++ ")"
    | none => ""
  operation.kind.name ++ angle ++ " " ++ ", ".intercalate (operation.wires.map Wire.label)

end Operation

end GateGrid

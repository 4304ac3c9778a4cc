import GateGrid.Cell
import GateGrid.Json.Record
import GateGrid.Operation.Basic

/-!
# Operations as JSON text

The kind of an operation is a choice: a name, or an object with the name of a rotation and its
angle. An operation is a record with the fields `kind` and `wires`. Reading does not count the
wires.

* `Operation.json`, `Operation.read`: the document of an operation, and the reader for it.
-/

namespace GateGrid.Operation

open Json (Reader Content)

/-- A group as a document. -/
def Group.json (group : Group) : Json := .word group.name

/-- The reader of a group. -/
def Group.read : Reader Group := Reader.nameOf Group.all Group.name

/-- The name of a kind in JSON text. -/
def Kind.jsonName : Kind → String
  | .id => "I"
  | .x => "X"
  | .y => "Y"
  | .z => "Z"
  | .h => "H"
  | .s => "S"
  | .sdg => "Sdg"
  | .t => "T"
  | .tdg => "Tdg"
  | .rx _ => "Rx"
  | .ry _ => "Ry"
  | .rz _ => "Rz"
  | .cx => "CX"
  | .cy => "CY"
  | .cz => "CZ"
  | .ch => "CH"
  | .crz _ => "CRz"
  | .ccx => "CCX"
  | .swap => "Swap"
  | .cswap => "CSwap"
  | .barrier => "Barrier"

/-- The kinds without an angle. -/
def Kind.plainKinds : List Kind :=
  [.id, .x, .y, .z, .h, .s, .sdg, .t, .tdg, .cx, .cy, .cz, .ch, .ccx, .swap, .cswap, .barrier]

/-- The kinds with an angle. -/
def Kind.angledKinds : List (Binary64 → Kind) := [.rx, .ry, .rz, .crz]

/-- What comes with a name in JSON text. -/
def Kind.content? (name : String) : Option (Content Kind) :=
  match Kind.plainKinds.find? (·.jsonName == name) with
  | some kind => some (.plain kind)
  | none => (Kind.angledKinds.find? fun make => (make .zero).jsonName == name).map .angled

/-- A kind as a document. -/
def Kind.json (kind : Kind) : Json :=
  match kind.angle? with
  | none => .word kind.jsonName
  | some angle => .object [(kind.jsonName, .ofBinary64 angle)]

/-- The reader of a kind. -/
def Kind.read : Reader Kind := Reader.choice Kind.content?

/-- An operation as a document. -/
def json (operation : Operation) : Json :=
  .object [("kind", operation.kind.json), ("wires", .list (operation.wires.map Wire.json))]

/-- What has been read of an operation. -/
structure Draft where
  /-- The kind, if it was given. -/
  kind : Option Kind := none
  /-- The wires, if they were given. -/
  wires : Option (List Wire) := none

/-- The fields of an operation in JSON text, in their order. -/
def fields : List (Json.Field Draft) :=
  [{ key := "kind"
     isGiven := (·.kind.isSome)
     read := fun draft => do return { draft with kind := some (← Kind.read) } },
   { key := "wires"
     isGiven := (·.wires.isSome)
     read := fun draft => do return { draft with wires := some (← Reader.listOf Wire.read) } }]

/-- The operation of a draft: both fields must have been given. -/
def Draft.finish (draft : Draft) : Option Operation := do
  return ⟨← draft.kind, ← draft.wires⟩

/-- The reader of an operation. -/
def read : Reader Operation := Reader.record fields {} Draft.finish

end GateGrid.Operation

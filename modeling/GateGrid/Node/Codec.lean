import GateGrid.Cell
import GateGrid.Json.Record
import GateGrid.Node.Basic

/-!
# Nodes as JSON text

A node is a record with the fields `kind`, `angle`, `control_a`,
`control_b` and `swap_partner`; all but the kind may be missing, and lanes that are not set are not
written.

* `Node.Kind.json`, `Node.Kind.read`: the document of a kind, and the reader for it.
* `Node.json`, `Node.read`: the same for a node.
-/

namespace GateGrid

open Json (Reader)

namespace Node

/-- The name of a kind in JSON text: its mnemonic, but for the identity. -/
def Kind.jsonName : Kind → String
  | .identity => "identity"
  | kind => kind.mnemonic

/-- A kind as a document. -/
def Kind.json (kind : Kind) : Json := .word kind.jsonName

/-- The reader of a kind. -/
def Kind.read : Reader Kind := Reader.nameOf Kind.all Kind.jsonName

/-- A node as a document. -/
def json (node : Node) : Json :=
  .object ([("kind", node.kind.json), ("angle", .ofBinary64 node.angle)] ++
    node.controlA.toList.map (fun wire => ("control_a", wire.json)) ++
    node.controlB.toList.map (fun wire => ("control_b", wire.json)) ++
    node.swapPartner.toList.map (fun wire => ("swap_partner", wire.json)))

/-- What has been read of a node. -/
structure Draft where
  /-- The kind, if it was given. -/
  kind : Option Kind := none
  /-- The angle, if it was given. -/
  angle : Option Binary64 := none
  /-- The first control, if it was given; it may be given as not set. -/
  controlA : Option (Option Wire) := none
  /-- The second control, if it was given. -/
  controlB : Option (Option Wire) := none
  /-- The partner, if it was given. -/
  swapPartner : Option (Option Wire) := none

/-- The fields of a node in JSON text, in their order. -/
def fields : List (Json.Field Draft) :=
  [{ key := "kind"
     isGiven := (·.kind.isSome)
     read := fun draft => do return { draft with kind := some (← Kind.read) } },
   { key := "angle"
     isGiven := (·.angle.isSome)
     read := fun draft => do return { draft with angle := some (← Reader.binary64) } },
   { key := "control_a"
     isGiven := (·.controlA.isSome)
     read := fun draft => do
      return { draft with controlA := some (← Reader.optional Wire.read) } },
   { key := "control_b"
     isGiven := (·.controlB.isSome)
     read := fun draft => do
      return { draft with controlB := some (← Reader.optional Wire.read) } },
   { key := "swap_partner"
     isGiven := (·.swapPartner.isSome)
     read := fun draft => do
      return { draft with swapPartner := some (← Reader.optional Wire.read) } }]

/-- The node of a draft: only the kind must have been given. -/
def Draft.finish (draft : Draft) : Option Node :=
  draft.kind.map fun kind =>
    { kind
      angle := draft.angle.getD .zero
      controlA := draft.controlA.getD none
      controlB := draft.controlB.getD none
      swapPartner := draft.swapPartner.getD none }

/-- The reader of a node. -/
def read : Reader Node := Reader.record fields {} Draft.finish

end Node

end GateGrid

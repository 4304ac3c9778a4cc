import GateGrid.Operation.Codec

/-!
# Circuits

A circuit is a number of wires and a sequence of operations. It is handed over as indented JSON
text.

* `Circuit.tally`: how often each name of an operation occurs.
* `Circuit.display`: the text of a circuit for people, an operation on each line.
* `Circuit.toJson`, `Circuit.ofJson`: the text that is handed over, and the reading of it.
-/

namespace GateGrid

open Json (Reader Fault)

/-- A sequence of operations on wires. -/
structure Circuit where
  /-- The number of wires. -/
  wires : UInt32
  /-- The operations, in the order in which they are carried out. -/
  operations : List Operation
  deriving DecidableEq

namespace Circuit

/-- Counts one more occurrence of a name. A new name goes to the end. -/
def countName (name : String) : List (String × Nat) → List (String × Nat)
  | [] => [(name, 1)]
  | (other, count) :: rest =>
    if other = name then (other, count + 1) :: rest else (other, count) :: countName name rest

/-- How often each name of an operation occurs, in the order of the first occurrences. -/
def tally (circuit : Circuit) : List (String × Nat) :=
  circuit.operations.foldl (fun counts operation => countName operation.kind.name counts) []

/-- The two circuits are the same up to the numbers meant by their angles. -/
def numEq (a b : Circuit) : Bool :=
  a.wires == b.wires && a.operations.length == b.operations.length &&
    (a.operations.zip b.operations).all fun (p, q) => p.numEq q

/-- The text of a circuit for people. -/
def display (circuit : Circuit) : String :=
  toString circuit.wires.toNat ++ " wires, " ++ toString circuit.operations.length ++ " ops" ++
    String.join (circuit.operations.map fun operation => "\n" ++ operation.display)

/-! ### JSON text -/

/-- A circuit as a document. -/
def json (circuit : Circuit) : Json :=
  .object [("num_wires", .ofNat circuit.wires.toNat),
    ("operations", .list (circuit.operations.map Operation.json))]

/-- What has been read of a circuit. -/
structure Draft where
  /-- The number of wires, if it was given. -/
  wires : Option UInt32 := none
  /-- The operations, if they were given. -/
  operations : Option (List Operation) := none

/-- The fields of a circuit in JSON text, in their order. -/
def fields : List (Json.Field Draft) :=
  [{ key := "num_wires"
     isGiven := (·.wires.isSome)
     read := fun draft => do return { draft with wires := some (← Reader.natural32) } },
   { key := "operations"
     isGiven := (·.operations.isSome)
     read := fun draft => do
      return { draft with operations := some (← Reader.listOf Operation.read) } }]

/-- The circuit of a draft: both fields must have been given. -/
def Draft.finish (draft : Draft) : Option Circuit := do
  return ⟨← draft.wires, ← draft.operations⟩

/-- The reader of a circuit. -/
def read : Reader Circuit := Reader.record fields {} Draft.finish

/-- The text by which a circuit is handed over. -/
def toJson (circuit : Circuit) : String := circuit.json.indented

/-- The circuit that was handed over as a text. -/
def ofJson (text : String) : Except Fault Circuit := read.readAll text

end Circuit

end GateGrid

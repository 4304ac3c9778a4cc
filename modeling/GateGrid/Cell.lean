import GateGrid.Json.Document
import GateGrid.Json.Value

/-!
# Wires, columns and cells

A gate grid has horizontal *wires*, numbered from the top, and *columns*, numbered in the order
of time. A *cell* is where a wire and a column meet.

* `Wire.label`, `Column.label`: the names `q3` and `t2` that texts use.
* `Cell.label`: both names in parentheses, `(q3, t2)`.
* `Wire.range`: the wires of a grid, from the top.

In JSON text a wire or a column is its number.

* `Wire.json`, `Wire.read`: the document of a wire, and the reader for it.
* `Column.json`, `Column.read`: the same for a column.
-/

namespace GateGrid

/-- A wire of a grid, by its number. -/
structure Wire where
  /-- The number of the wire, counted from the top starting at 0. -/
  index : UInt32
  deriving DecidableEq

/-- A column of a grid, by its number. -/
structure Column where
  /-- The number of the column, counted in the order of time starting at 0. -/
  index : UInt32
  deriving DecidableEq

/-- A cell of a grid: a wire and a column. -/
structure Cell where
  /-- The wire the cell lies on. -/
  wire : Wire
  /-- The column the cell lies in. -/
  column : Column
  deriving DecidableEq

/-- The name of a wire in texts: `q` and its number. -/
def Wire.label (wire : Wire) : String :=
  "q" ++ toString wire.index.toNat

/-- The name of a column in texts: `t` and its number. -/
def Column.label (column : Column) : String :=
  "t" ++ toString column.index.toNat

/-- The name of a cell in texts: the names of its wire and its column. -/
def Cell.label (cell : Cell) : String :=
  "(" ++ cell.wire.label ++ ", " ++ cell.column.label ++ ")"

/-- The wires of a grid with `count` of them, from the top. -/
def Wire.range (count : UInt32) : List Wire :=
  (List.range count.toNat).map fun i => ⟨UInt32.ofNat i⟩

/-! ### JSON text -/

open Json (Reader)

/-- A wire as a document. -/
def Wire.json (wire : Wire) : Json := .ofNat wire.index.toNat

/-- The reader of a wire. -/
def Wire.read : Reader Wire := do return ⟨← Reader.natural32⟩

/-- A column as a document. -/
def Column.json (column : Column) : Json := .ofNat column.index.toNat

/-- The reader of a column. -/
def Column.read : Reader Column := do return ⟨← Reader.natural32⟩

end GateGrid

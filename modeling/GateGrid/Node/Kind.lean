/-!
# Kinds of nodes

The eleven kinds of gate that a cell can hold. A kind has a *mnemonic*, by which texts name it,
and *spellings*, by which a person may name it.

A word typed by a person may have blanks around it and letters of either case. The blanks are the
characters with the Unicode property `White_Space`; letter case is that of the ASCII letters
alone, so that no other letter is ever taken for one of them.

* `Text.trim`: a text without the blanks at its two ends.
* `Text.fold`: a text with the ASCII letters in lower case.
* `Node.Kind.all`: the kinds, in their order.
* `Node.Kind.ofText?`: the kind that a text names.
-/

namespace GateGrid

/-! ### Blanks and letter case -/

namespace Text

/-- The code points with the property `White_Space`, as ranges with both ends included, in
    ascending order. -/
def blankRanges : List (Nat × Nat) :=
  [(0x9, 0xD), (0x20, 0x20), (0x85, 0x85), (0xA0, 0xA0), (0x1680, 0x1680), (0x2000, 0x200A),
   (0x2028, 0x2029), (0x202F, 0x202F), (0x205F, 0x205F), (0x3000, 0x3000)]

/-- A character is blank if its code point lies in one of the ranges. -/
def isBlank (c : Char) : Bool :=
  blankRanges.any fun (low, high) => low ≤ c.toNat && c.toNat ≤ high

/-- A text without the blanks at its start. -/
def trimStart (text : List Char) : List Char :=
  text.dropWhile isBlank

/-- A text without the blanks at its end. -/
def trimEnd (text : List Char) : List Char :=
  (text.reverse.dropWhile isBlank).reverse

/-- A text without the blanks at its two ends; blanks inside it stay. -/
def trim (text : List Char) : List Char :=
  trimEnd (trimStart text)

/-- A text with the letters `A` to `Z` in lower case and every other character as it is. -/
def fold (text : List Char) : List Char :=
  text.map Char.toLower

end Text

/-! ### Kinds -/

namespace Node

/-- The kind of a node. -/
inductive Kind
  /-- No gate at all. -/
  | identity
  /-- The Pauli gates, which an angle turns into rotations. -/
  | x | y | z
  /-- The phase gates and their inverses. -/
  | s | sdg | t | tdg
  /-- The Hadamard gate. -/
  | h
  /-- An exchange of the node's wire with a partner. -/
  | swap
  /-- A barrier across all wires. -/
  | barrier
  deriving DecidableEq

namespace Kind

/-- Every kind, in the order of the declaration. -/
def all : List Kind :=
  [.identity, .x, .y, .z, .s, .sdg, .t, .tdg, .h, .swap, .barrier]

/-- The word by which texts name a kind. -/
def mnemonic : Kind → String
  | .identity => "id"
  | .x => "x"
  | .y => "y"
  | .z => "z"
  | .s => "s"
  | .sdg => "sdg"
  | .t => "t"
  | .tdg => "tdg"
  | .h => "h"
  | .swap => "swap"
  | .barrier => "barrier"

/-- The words by which a person may name a kind: its mnemonic, and a few others for the identity
    and the barrier. -/
def spellings : Kind → List String
  | .identity => ["id", "iden", "i"]
  | .barrier => ["barrier", "b"]
  | kind => [kind.mnemonic]

/-- An angle turns the kind into a rotation. -/
def isRotatable : Kind → Bool
  | .x | .y | .z => true
  | _ => false

/-- The kind that a text names: a spelling of it, with any blanks around it and its letters in any
    case. -/
def ofText? (text : String) : Option Kind :=
  let word := String.ofList (Text.fold (Text.trim text.toList))
  all.find? fun kind => kind.spellings.contains word

end Kind

end Node

end GateGrid

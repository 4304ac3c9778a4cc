import GateGrid.Number.Style

/-!
# Documents to be written

The values that are handed over as JSON text, as trees. The words in them are names, of letters,
digits and underscores, so that none needs an escape.

A *layout* says what stands between the parts: nothing in the compact layout; in the indented
one, a line break before each element and a blank after each colon. Apart from that the text is
the same, so one printer serves both.

* `Json.compact`, `Json.indented`: the two texts of a document.
* `Json.ofBinary64`: a number, where what is not finite becomes `null`.
-/

namespace GateGrid

/-- A document to be written as JSON text. -/
inductive Json
  /-- The value `null`. -/
  | null
  /-- A number, by its text. -/
  | number (text : List Char)
  /-- A string that needs no escapes. -/
  | word (text : String)
  /-- A list of documents. -/
  | list (items : List Json)
  /-- An object: keys and documents, in the order in which they are written. -/
  | object (members : List (String × Json))

namespace Json

/-- What stands between the parts of a document. -/
structure Layout where
  /-- What stands before an element that has the given number of brackets around it, and before
      the bracket that closes the elements around it. -/
  gap : Nat → List Char
  /-- What stands between a key and its value. -/
  colon : List Char

/-- The layout without any blanks. -/
def Layout.compact : Layout where
  gap := fun _ => []
  colon := [':']

/-- The layout with an element on each line, two blanks further in for each bracket around it. -/
def Layout.indented : Layout where
  gap := fun depth => '\n' :: List.replicate (2 * depth) ' '
  colon := [':', ' ']

/-- A word between quotation marks. -/
def quoted (word : String) : List Char :=
  '"' :: word.toList ++ ['"']

/-- Elements between brackets, separated by commas. Without elements the brackets stand side by
    side in every layout. -/
def enclose (layout : Layout) (depth : Nat) (opening closing : Char) :
    List (List Char) → List Char
  | [] => [opening, closing]
  | elements =>
    opening :: [','].intercalate (elements.map (layout.gap (depth + 1) ++ ·)) ++
      layout.gap depth ++ [closing]

mutual

/-- The text of a document with `depth` brackets around it. -/
def write (layout : Layout) (depth : Nat) : Json → List Char
  | .null => ['n', 'u', 'l', 'l']
  | .number text => text
  | .word text => quoted text
  | .list items => enclose layout depth '[' ']' (writeItems layout (depth + 1) items)
  | .object members =>
    enclose layout depth '\x7b' '\x7d' (writeMembers layout (depth + 1) members)

/-- The texts of the elements of a list. -/
def writeItems (layout : Layout) (depth : Nat) : List Json → List (List Char)
  | [] => []
  | item :: rest => write layout depth item :: writeItems layout depth rest

/-- The texts of the members of an object. -/
def writeMembers (layout : Layout) (depth : Nat) : List (String × Json) → List (List Char)
  | [] => []
  | (key, value) :: rest =>
    (quoted key ++ layout.colon ++ write layout depth value) :: writeMembers layout depth rest

end

/-- The text of a document in the compact layout. -/
def compact (document : Json) : String :=
  String.ofList (document.write .compact 0)

/-- The text of a document in the indented layout. -/
def indented (document : Json) : String :=
  String.ofList (document.write .indented 0)

/-! ### Numbers -/

/-- The style of numbers in documents: positional from `0.00001` up to sixteen digits before the
    point, and always with a point or an exponent, so that the number is not taken for an
    integer. -/
def numberStyle : Style where
  tie := .even
  positional := fun size => -5 ≤ size && size < 16
  keepsPoint := true

/-- A natural number as a document. -/
def ofNat (n : Nat) : Json := .number (Nat.toDigits 10 n)

/-- A number as a document. JSON has no text for what is not finite. -/
def ofBinary64 (a : Binary64) : Json :=
  if a.isFinite then .number (numberStyle.text a) else .null

end Json

end GateGrid

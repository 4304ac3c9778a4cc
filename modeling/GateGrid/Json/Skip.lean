import GateGrid.Json.Numeral
import GateGrid.Json.Quoted

/-!
# Values of no interest

Two ways to pass over a value. Under a key that nobody knows any value may stand, nested to any
depth; it is skipped, with the brackets that are open around the current place kept in a list.
And where a value of another kind was wanted, the value is read far enough to tell whether the
text is JSON at all.

* `Reader.skipValue`: takes one value of any kind.
* `Reader.wrongShape`: stops at a value that is not of the wanted kind.
-/

namespace GateGrid.Json

/-- A bracket that is open around the current place. -/
inductive Bracket
  /-- The bracket of a list. -/
  | list
  /-- The bracket of an object. -/
  | object
  deriving DecidableEq

/-- The mark that closes a bracket. -/
def Bracket.closing : Bracket → Char
  | .list => ']'
  | .object => '\x7d'

namespace Reader

/-- Takes a key of an object and the colon behind it; the text of the key is of no interest. -/
def skipKey : Reader Unit := do
  mark '"'
  skipQuoted
  mark ':'

/-- Goes on after a value: closes brackets for as long as closing marks follow, and takes a comma
    if there are more elements. Gives the brackets that are open around the next value; if there
    are none, the reading is done. -/
def afterValue : List Bracket → Reader (List Bracket)
  | [] => pure []
  | bracket :: outer => do
    match ← lookAhead with
    | none => fail .truncated
    | some c =>
      if c = bracket.closing then
        advance
        afterValue outer
      else if c = ',' then
        advance
        if bracket = .object then skipKey
        pure (bracket :: outer)
      else fail .malformed

/-- Goes on after an opening bracket: to the first element, or past the bracket if there is
    none. -/
def afterBracket (bracket : Bracket) (outer : List Bracket) : Reader (List Bracket) := do
  if (← lookAhead) = some bracket.closing then
    advance
    afterValue outer
  else
    if bracket = .object then skipKey
    pure (bracket :: outer)

/-- Takes a value up to its end or its first bracket, and gives the brackets that are open around
    the next value. -/
def skipHead (outer : List Bracket) : Reader (List Bracket) := do
  match ← lookAhead with
  | none => fail .truncated
  | some '[' => advance; afterBracket .list outer
  | some '\x7b' => advance; afterBracket .object outer
  | some '"' => advance; skipQuoted; afterValue outer
  | some 'n' => advance; letters ['u', 'l', 'l']; afterValue outer
  | some 't' => advance; letters ['r', 'u', 'e']; afterValue outer
  | some 'f' => advance; letters ['a', 'l', 's', 'e']; afterValue outer
  | some c =>
    if startsNumeral c then
      skipNumeral
      afterValue outer
    else fail .malformed

/-- Takes values until all brackets are closed. Each step takes at least one character, so that a
    `bound` as long as the text outlasts it: where the bound is used up, so is the text. -/
def skipLoop : (bound : List Char) → List Bracket → Reader Unit
  | [], _ => fail .truncated
  | _ :: bound, outer => do
    match ← skipHead outer with
    | [] => pure ()
    | inner => skipLoop bound inner

/-- Takes one value of any kind. -/
def skipValue : Reader Unit :=
  fun text => skipLoop text [] text

/-- Stops at a value that is not of the wanted kind. A literal, a number or a string is read whole
    first, so that what is wrong inside it comes first; a bracket is refused at once. -/
def wrongShape {α : Type} : Reader α := do
  match ← lookAhead with
  | none => fail .truncated
  | some '[' => fail .mismatch
  | some '\x7b' => fail .mismatch
  | some '"' => do advance; let _ ← quotedText; fail .mismatch
  | some 'n' => do advance; letters ['u', 'l', 'l']; fail .mismatch
  | some 't' => do advance; letters ['r', 'u', 'e']; fail .mismatch
  | some 'f' => do advance; letters ['a', 'l', 's', 'e']; fail .mismatch
  | some c => do
    if startsNumeral c then
      let _ ← number
      fail .mismatch
    else fail .malformed

end Reader

end GateGrid.Json

/-!
# Readers of JSON text

A reader takes a value off the front of a text and leaves the rest, or stops with a fault. Reading
goes from left to right, and the first problem met decides the fault; what follows it is never
looked at.

* `Fault`: the three things that can be wrong.
* `Reader`: readers, as a monad.
* `Reader.lookAhead`: the next character after any blanks.
* `Reader.readAll`: a reader applied to a whole text.
-/

namespace GateGrid.Json

/-- Why a text could not be read. -/
inductive Fault
  /-- The text ended too early. -/
  | truncated
  /-- The text is not JSON. -/
  | malformed
  /-- The text is JSON, but not of the shape that is wanted. -/
  | mismatch
  deriving DecidableEq

/-- A reader takes a value off the front of a text and leaves the rest. -/
def Reader (α : Type) : Type := List Char → Except Fault (α × List Char)

namespace Reader

variable {α β : Type}

/-- The reader that takes nothing. -/
@[inline] protected def pure (value : α) : Reader α :=
  fun text => .ok (value, text)

/-- One reader after another; a fault of the first one ends the reading. -/
@[inline] protected def bind (read : Reader α) (next : α → Reader β) : Reader β := fun text =>
  match read text with
  | .ok (value, rest) => next value rest
  | .error fault => .error fault

instance : Monad Reader where
  pure := Reader.pure
  bind := Reader.bind

/-- What remains after taking nothing is the text. -/
theorem pure_apply (value : α) (text : List Char) :
    (pure value : Reader α) text = .ok (value, text) := rfl

/-- One reader after another: the second one gets what the first one leaves. -/
theorem bind_apply (read : Reader α) (next : α → Reader β) (text : List Char) :
    (read >>= next) text = match read text with
      | .ok (value, rest) => next value rest
      | .error fault => .error fault := rfl

/-- The reader that stops with a fault. -/
@[inline] def fail (fault : Fault) : Reader α :=
  fun _ => .error fault

/-- The next character, if there is one; it stays to be read. -/
@[inline] def peek : Reader (Option Char) :=
  fun text => .ok (text.head?, text)

/-- Takes one character. -/
@[inline] def advance : Reader Unit :=
  fun text => .ok ((), text.tail)

/-- The characters that may stand between the parts of a text: blank, tabulator, line feed and
    carriage return. -/
def isBlank (c : Char) : Bool :=
  c == ' ' || c == '\t' || c == '\n' || c == '\r'

/-- Takes all blanks up to the next other character. -/
@[inline] def skipBlanks : Reader Unit :=
  fun text => .ok ((), text.dropWhile isBlank)

/-- The next character after any blanks, if there is one; it stays to be read. -/
def lookAhead : Reader (Option Char) := do
  skipBlanks
  peek

/-- Takes the given characters, one after the other. -/
def letters : List Char → Reader Unit
  | [] => Reader.pure ()
  | c :: word => fun text =>
    match text with
    | [] => .error .truncated
    | d :: rest => if d = c then letters word rest else .error .malformed

/-- Takes a punctuation mark, after any blanks. -/
def mark (c : Char) : Reader Unit := do
  match ← lookAhead with
  | none => fail .truncated
  | some d => if d = c then advance else fail .malformed

/-- Reads a whole text: after the value only blanks may follow. -/
def readAll (read : Reader α) (text : String) : Except Fault α :=
  match read text.toList with
  | .error fault => .error fault
  | .ok (value, rest) => if rest.all isBlank then .ok value else .error .malformed

end Reader

end GateGrid.Json

import GateGrid.Json.Skip

/-!
# Readers of single values and of lists

* `Reader.natural32`: an integer that fits into 32 bits without a sign.
* `Reader.binary64`: a floating-point number.
* `Reader.optional`: a value or `null`.
* `Reader.listOf`: a list of values of one kind.
-/

namespace GateGrid.Json.Reader

variable {α : Type}

/-- Takes a number, or stops at what is no number. -/
def anyNumber : Reader (Numeral × Binary64) := do
  match ← lookAhead with
  | none => fail .truncated
  | some c => if startsNumeral c then number else wrongShape

/-- Takes an integer from 0 to `2 ^ 32 - 1`, written without a sign, a fraction or an exponent. -/
def natural32 : Reader UInt32 := do
  let (found, _) ← anyNumber
  if found.isWhole ∧ ¬found.negative ∧ found.value.coefficient < UInt32.size then
    pure (UInt32.ofNat found.value.coefficient)
  else fail .mismatch

/-- Takes any number. -/
def binary64 : Reader Binary64 := do
  let (_, value) ← anyNumber
  pure value

/-- Takes the value `null`. -/
def null : Reader Unit := do
  match ← lookAhead with
  | some 'n' => advance; letters ['u', 'l', 'l']
  | _ => wrongShape

/-- Takes the value `null` for nothing, or another value. -/
def optional (read : Reader α) : Reader (Option α) := do
  match ← lookAhead with
  | some 'n' => advance; letters ['u', 'l', 'l']; pure none
  | none => fail .truncated
  | _ => return some (← read)

/-- Goes to the next element of a list: whether there is one. The mark that closes the list is
    taken, and so is the comma before an element that is not the first. -/
def nextItem (first : Bool) : Reader Bool := do
  match ← lookAhead with
  | none => fail .truncated
  | some ']' => advance; pure false
  | some c =>
    if first then pure true
    else if c = ',' then
      advance
      match ← lookAhead with
      | none => fail .truncated
      | some ']' => fail .malformed
      | _ => pure true
    else fail .malformed

/-- Takes the elements of a list up to its end. Each step takes at least one character, so that a
    `bound` as long as the text outlasts it: where the bound is used up, so is the text. -/
def items (read : Reader α) : (bound : List Char) → Bool → Reader (List α)
  | [], _ => fail .truncated
  | _ :: bound, first => do
    if ← nextItem first then
      let item ← read
      let rest ← items read bound false
      pure (item :: rest)
    else pure []

/-- Takes a list of values of one kind. -/
def listOf (read : Reader α) : Reader (List α) := do
  match ← lookAhead with
  | none => fail .truncated
  | some '[' =>
    advance
    fun text => items read text true text
  | _ => wrongShape

end GateGrid.Json.Reader

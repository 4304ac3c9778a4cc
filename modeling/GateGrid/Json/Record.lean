import GateGrid.Json.Value

/-!
# Records and choices

A *record* has named fields, each with a reader of its own. In the text it is an object, with the
fields in any order and among keys that nobody knows, or a list of the fields in their order,
which may end early. What has been read so far is a *draft*; at the end the draft is made into the
value, unless a field that must be given is missing.

A *choice* is one of several names, some of which come with a number. In the text it is the name,
or an object whose only key is the name.

* `Reader.record`: takes a record.
* `Reader.choice`: takes a choice.
-/

namespace GateGrid.Json

/-- A field of a record with drafts in `δ`. -/
structure Field (δ : Type) where
  /-- The key of the field. -/
  key : String
  /-- The field has been read already. -/
  isGiven : δ → Bool
  /-- Reads the field into a draft. -/
  read : δ → Reader δ

/-- What comes with a name in a choice. -/
inductive Content (α : Type)
  /-- Nothing. -/
  | plain (value : α)
  /-- A number. -/
  | angled (make : Binary64 → α)

namespace Reader

variable {α δ : Type}

/-- Goes to the next key of an object: whether there is one. The mark that closes the object is
    taken; otherwise the comma before a key that is not the first is taken, and so is the opening
    quotation mark of the key. -/
def nextKey (first : Bool) : Reader Bool := do
  match ← lookAhead with
  | none => fail .truncated
  | some '\x7d' => advance; pure false
  | some c =>
    if first then
      mark '"'
      pure true
    else if c = ',' then
      advance
      mark '"'
      pure true
    else fail .malformed

/-- Takes the members of an object up to its end. A field that was given already is noticed at its
    key, before its value. Each step takes at least one character, so that a `bound` as long as the
    text outlasts it: where the bound is used up, so is the text. -/
def members (fields : List (Field δ)) : (bound : List Char) → Bool → δ → Reader δ
  | [], _, _ => fail .truncated
  | _ :: bound, first, draft => do
    if ← nextKey first then
      let key ← quotedText
      match fields.find? (·.key == key) with
      | some field =>
        if field.isGiven draft then fail .mismatch
        else
          mark ':'
          let draft ← field.read draft
          members fields bound false draft
      | none =>
        mark ':'
        skipValue
        members fields bound false draft
    else pure draft

/-- Takes the elements of a list as the fields in their order. The list may end before the last
    field, and must end after it. -/
def elements : List (Field δ) → Bool → δ → Reader δ
  | [], _, draft => do
    mark ']'
    pure draft
  | field :: rest, first, draft => do
    if ← nextItem first then
      let draft ← field.read draft
      elements rest false draft
    else pure draft

/-- Takes a record: an object or a list. The value is made from the draft; where that fails, a
    field is missing. -/
def record (fields : List (Field δ)) (start : δ) (finish : δ → Option α) : Reader α := do
  let draft ← (do
    match ← lookAhead with
    | none => fail .truncated
    | some '\x7b' =>
      advance
      fun text => members fields text true start text
    | some '[' =>
      advance
      elements fields true start
    | _ => wrongShape)
  match finish draft with
  | some value => pure value
  | none => fail .mismatch

/-- Takes a choice: a name, or an object whose only key is a name. An unknown name is noticed right
    behind it. The key has to be a string, as any key has to be: the number in `{1:null}` is
    malformed, and not a value of another kind than the wanted one. -/
def choice (content? : String → Option (Content α)) : Reader α := do
  match ← lookAhead with
  | none => fail .truncated
  | some '"' =>
    advance
    match content? (← quotedText) with
    | some (.plain value) => pure value
    | _ => fail .mismatch
  | some '\x7b' =>
    advance
    mark '"'
    match content? (← quotedText) with
    | none => fail .mismatch
    | some (.plain value) =>
      mark ':'
      null
      mark '\x7d'
      pure value
    | some (.angled make) =>
      mark ':'
      let angle ← binary64
      mark '\x7d'
      pure (make angle)
  | _ => fail .malformed

/-- Takes the name of one of the given values. -/
def nameOf (values : List α) (name : α → String) : Reader α :=
  choice fun word => (values.find? (name · == word)).map .plain

end Reader

end GateGrid.Json

import GateGrid.Json.Document
import GateGrid.Json.Record

/-!
# Settings of a compilation

What happens to set fields that an operation leaves out is a matter of *policy*: the permissive
policy warns and goes on, the strict one refuses them. The policy is the one setting there is. In
JSON text it may be missing, and then it is the permissive one.

* `Policy.json`, `Policy.read`: the document of a policy, and the reader for it.
* `Settings.json`, `Settings.read`: the same for settings.
* `Settings.ofJson`: the settings that a text gives.
-/

namespace GateGrid

open Json (Reader Fault)

/-- What to do about set fields that an operation leaves out. -/
inductive Policy
  /-- Warn, and go on. -/
  | permissive
  /-- Refuse the node. -/
  | strict
  deriving DecidableEq

/-- The name of a policy. -/
def Policy.name : Policy → String
  | .permissive => "permissive"
  | .strict => "strict"

/-- Every policy. -/
def Policy.all : List Policy := [.permissive, .strict]

/-- A policy as a document. -/
def Policy.json (policy : Policy) : Json := .word policy.name

/-- The reader of a policy. -/
def Policy.read : Reader Policy := Reader.nameOf Policy.all Policy.name

/-- How to compile. -/
structure Settings where
  /-- The policy. -/
  policy : Policy := .permissive
  deriving DecidableEq

namespace Settings

/-- Settings as a document. -/
def json (settings : Settings) : Json := .object [("policy", settings.policy.json)]

/-- The fields of settings in JSON text. A draft is the policy, if it was given. -/
def fields : List (Json.Field (Option Policy)) :=
  [{ key := "policy"
     isGiven := Option.isSome
     read := fun _ => do return some (← Policy.read) }]

/-- The reader of settings; a policy that is not given is the permissive one. -/
def read : Reader Settings :=
  Reader.record fields none fun policy => some ⟨policy.getD .permissive⟩

/-- The settings that a text gives. -/
def ofJson (text : String) : Except Fault Settings := read.readAll text

end Settings

end GateGrid

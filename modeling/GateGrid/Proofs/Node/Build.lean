import GateGrid.Node.Build
import GateGrid.Proofs.Node.Fault

/-!
# What the calls of a builder make

No call sets the second control without the first one, and no call takes the first one away again,
so a node that was built has a second control only together with a first one. Apart from that there
is nothing that calls cannot make: the fields of such a node can be set one after the other.

* `Build.paired_apply`, `Build.paired_foldl`: what one call preserves, and what a sequence of calls
  does;
* `Node.build?_settings`: the calls that make a given node;
* `Node.exists_build?_iff_paired`: the nodes that can be built are those whose second control comes
  with a first one, and the check never finds a second control alone in them.
-/

namespace GateGrid

/-- The call starts a node. -/
def Build.isStart : Build → Bool
  | .start _ | .startSwap _ | .startBarrier => true
  | _ => false

/-- A second control comes with a first one. -/
def Node.Paired (node : Node) : Prop := node.controlB.isSome → node.controlA.isSome

/-- A call makes no second control without a first one of a node that has none. -/
theorem Build.paired_apply (call : Build) {node? : Option Node} (h : ∀ node ∈ node?, node.Paired) :
    ∀ node ∈ call.apply node?, node.Paired := by
  intro node hnode
  cases call with
  | start kind | startSwap partner | startBarrier =>
    -- The node is new, and neither control is set.
    obtain rfl := Option.some.inj hnode
    exact id
  | angle radians | partner wire =>
    obtain ⟨earlier, hearlier, rfl⟩ := Option.map_eq_some_iff.1 hnode
    exact h earlier hearlier
  | control wire | controls a b =>
    obtain ⟨earlier, _, rfl⟩ := Option.map_eq_some_iff.1 hnode
    exact fun _ => rfl

/-- Neither do any calls. -/
theorem Build.paired_foldl (calls : List Build) {node? : Option Node}
    (h : ∀ node ∈ node?, node.Paired) :
    ∀ node ∈ calls.foldl (fun node call => call.apply node) node?, node.Paired := by
  induction calls generalizing node? with
  | nil => exact h
  | cons call calls ih => exact ih (call.paired_apply h)

namespace Node

variable {node : Node} {wire : Wire} {wires : UInt32}

theorem paired_of_build? {calls : List Build} (h : build? calls = some node) : node.Paired := by
  -- There is no node before the first call.
  have hnone : ∀ node ∈ (none : Option Node), node.Paired := by simp
  exact Build.paired_foldl calls hnone node h

/-- The calls that set the fields of a node: the angle, the controls that are there, and the partner
    if there is one. -/
def settings (node : Node) : List Build :=
  .angle node.angle ::
    (match node.controlA, node.controlB with
      | some a, some b => [.controls a b]
      | some a, none => [.control a]
      | none, _ => []) ++
    node.swapPartner.toList.map .partner

theorem isStart_of_mem_settings (node : Node) : ∀ call ∈ node.settings, call.isStart = false := by
  obtain ⟨kind, angle, controlA, controlB, swapPartner⟩ := node
  rcases controlA with _ | a <;> rcases controlB with _ | b <;> rcases swapPartner with _ | p <;>
    simp [settings, Build.isStart]

/-- A node whose second control comes with a first one is made by setting its fields. -/
theorem build?_settings (h : node.Paired) :
    build? (.start node.kind :: node.settings) = some node := by
  obtain ⟨kind, angle, controlA, controlB, swapPartner⟩ := node
  rcases controlA with _ | a
  · obtain rfl : controlB = none := by
      rcases controlB with _ | b
      · rfl
      · exact absurd (h rfl) Bool.false_ne_true
    rcases swapPartner with _ | p <;> rfl
  · rcases controlB with _ | b <;> rcases swapPartner with _ | p <;> rfl

/-- The check finds a second control alone exactly if there is one. -/
theorem check_eq_loneControlB_iff :
    node.check wire wires = .error .loneControlB ↔ ¬node.Paired := by
  rw [Paired, ← not_loneControlB_iff, not_not, check_eq_error_iff]
  constructor
  · rintro (⟨hb, ha⟩ | ⟨_, _, _, hoffends⟩ | _)
    · exact ⟨hb, Option.isNone_iff_eq_none.2 ha⟩
    · cases hoffends
  · rintro ⟨hb, ha⟩
    exact .loneControlB hb (Option.isNone_iff_eq_none.1 ha)

/-- A node is made by a call that starts it and calls that set fields of it, in any order and any
    number, exactly if its second control comes with a first one. And in no node that calls make,
    started once or again and again, does the check find a second control alone. -/
theorem exists_build?_iff_paired :
    (∀ node : Node,
      (∃ first rest, Build.isStart first ∧ (∀ call ∈ rest, call.isStart = false) ∧
        build? (first :: rest) = some node) ↔
      (node.controlB.isSome → node.controlA.isSome)) ∧
    ∀ (calls : List Build) (node : Node) (wire : Wire) (wires : UInt32),
      build? calls = some node → node.check wire wires ≠ .error .loneControlB := by
  refine ⟨fun node => ⟨?_, fun h => ?_⟩, fun calls node wire wires h hcheck => ?_⟩
  · rintro ⟨first, rest, -, -, h⟩
    exact paired_of_build? h
  · exact ⟨.start node.kind, node.settings, rfl, node.isStart_of_mem_settings, build?_settings h⟩
  · exact check_eq_loneControlB_iff.1 hcheck (paired_of_build? h)

/-- A first control that is set again leaves the second one: both are there, and what the check
    finds is that they are the same. -/
theorem exists_build?_iff_paired_again :
    let calls : List Build := [.start .x, .controls ⟨1⟩ ⟨2⟩, .control ⟨2⟩]
    let node : Node := { kind := .x, controlA := some ⟨2⟩, controlB := some ⟨2⟩ }
    build? calls = some node ∧ (node.controlB.isSome → node.controlA.isSome) ∧
      node.check ⟨0⟩ 3 = .error (.repeatedLane ⟨2⟩) ∧ node.check ⟨0⟩ 3 ≠ .error .loneControlB := by
  intro calls node
  obtain ⟨hmakes, hcheck⟩ := exists_build?_iff_paired
  have hpaired := (hmakes node).1
    ⟨.start .x, [.controls ⟨1⟩ ⟨2⟩, .control ⟨2⟩], rfl, by decide, rfl⟩
  exact ⟨rfl, hpaired, rfl, hcheck calls node ⟨0⟩ 3 rfl⟩

end Node

end GateGrid

import GateGrid.Proofs.Node.Fits
import Mathlib.Data.List.ReduceOption

/-!
# The first thing that is wrong with a node

A node may be wrong in several ways at once, and the check reports one of them. Which one is said
here without the check: the controls come first, then the lanes in the order of the fields, and an
exchange without a partner comes last. Of a lane with several faults the range counts before the own
wire, and that before a repetition.

* `Node.FirstFault`: the first thing that is wrong with a node;
* `Node.checkLanes_eq_error_iff`: the check of lanes stops at the first that offends;
* `Node.check_reports_first`: the check reports the first thing that is wrong, and passes a node if
  there is none.
-/

namespace GateGrid.Node

/-- The lanes are different wires of the grid and none is the wire of the node: no one offends. -/
def Faultless (wire : Wire) (wires : UInt32) (lanes : List Wire) : Prop :=
  (∀ lane ∈ lanes, lane.index < wires ∧ lane ≠ wire) ∧ lanes.Nodup

/-- What is wrong with a node first. -/
inductive FirstFault (node : Node) (wire : Wire) (wires : UInt32) : Malformed → Prop
  /-- The second control is set without the first one. -/
  | loneControlB : node.controlB.isSome → node.controlA = none →
      FirstFault node wire wires .loneControlB
  /-- A set lane offends, and none before it does. -/
  | lane {earlier later : List Wire} {lane : Wire} {reason : Malformed} :
      (node.controlB.isSome → node.controlA.isSome) →
      [node.controlA, node.controlB, node.swapPartner].reduceOption = earlier ++ lane :: later →
      Faultless wire wires earlier → Offends wire wires earlier lane reason →
      FirstFault node wire wires reason
  /-- An exchange has no partner, and nothing else is wrong. -/
  | noPartner : (node.controlB.isSome → node.controlA.isSome) →
      Faultless wire wires [node.controlA, node.controlB, node.swapPartner].reduceOption →
      node.kind = .swap → node.swapPartner = none → FirstFault node wire wires .noPartner

variable {node : Node} {wire lane : Wire} {wires : UInt32} {reason : Malformed}

/-! ### Lanes -/

/-- Which lanes are earlier counts, and not in which order they are. -/
theorem Offends.of_perm {earlier others : List Wire} (h : Offends wire wires earlier lane reason)
    (hperm : earlier.Perm others) : Offends wire wires others lane reason := by
  rcases h with hout | ⟨hin, hown⟩ | ⟨hin, hforeign, hmem⟩
  · exact .outOfRange hout
  · exact .ownWire hin hown
  · exact .repeatedLane hin hforeign (hperm.subset hmem)

/-- The check of lanes reports the fault of the first one that offends. -/
theorem checkLanes_eq_error_iff {seen lanes : List Wire} :
    checkLanes wire wires seen lanes = .error reason ↔
      ∃ earlier lane later, lanes = earlier ++ lane :: later ∧
        checkLanes wire wires seen earlier = .ok () ∧
        Offends wire wires (earlier ++ seen) lane reason := by
  induction lanes generalizing seen with
  | nil =>
    constructor
    · rintro ⟨⟩
    · rintro ⟨earlier, lane, later, h, -⟩
      exact absurd h.symm (List.append_ne_nil_of_right_ne_nil _ (List.cons_ne_nil _ _))
  | cons first rest ih =>
    rcases offends_or_passes wire wires seen first with ⟨fault, hfault⟩ | hpasses
    · -- The first lane offends, so that nothing in front of the lane reported can have passed.
      constructor
      · rw [hfault.checkLanes_eq]
        rintro ⟨⟩
        exact ⟨[], first, rest, rfl, rfl, hfault⟩
      · rintro ⟨earlier, lane, later, hsplit, hpassed, hoffends⟩
        rcases List.cons_eq_append_iff.1 hsplit with ⟨rfl, hcons⟩ | ⟨tail, rfl, _⟩
        · obtain ⟨rfl, -⟩ := List.cons.inj hcons
          exact hoffends.checkLanes_eq rest
        · rw [hfault.checkLanes_eq] at hpassed
          cases hpassed
    · rw [checkLanes_of_passes hpasses, ih]
      constructor
      · rintro ⟨earlier, lane, later, rfl, hpassed, hoffends⟩
        exact ⟨first :: earlier, lane, later, rfl, by rw [checkLanes_of_passes hpasses, hpassed],
          hoffends.of_perm List.perm_middle⟩
      · rintro ⟨earlier, lane, later, hsplit, hpassed, hoffends⟩
        rcases List.cons_eq_append_iff.1 hsplit with ⟨rfl, hcons⟩ | ⟨tail, rfl, rfl⟩
        · obtain ⟨rfl, -⟩ := List.cons.inj hcons
          exact absurd hpasses hoffends.not_passes
        · rw [checkLanes_of_passes hpasses] at hpassed
          exact ⟨tail, lane, later, rfl, hpassed, hoffends.of_perm List.perm_middle.symm⟩

/-- Lanes pass the check if no one offends. -/
theorem checkLanes_nil_eq_ok_iff {lanes : List Wire} :
    checkLanes wire wires [] lanes = .ok () ↔ Faultless wire wires lanes := by
  rw [checkLanes_eq_ok_iff, Faultless]
  simp only [List.not_mem_nil, not_false_eq_true, and_true]

/-! ### Nodes -/

/-- The lanes of a node are the set ones among its fields, in their order. -/
theorem lanes_eq_reduceOption (node : Node) :
    node.lanes = [node.controlA, node.controlB, node.swapPartner].reduceOption := by
  obtain ⟨_, _, controlA, controlB, swapPartner⟩ := node
  rcases controlA with _ | a <;> rcases controlB with _ | b <;> rcases swapPartner with _ | p
  all_goals rfl

/-- The check reports a fault exactly if it is the first one. -/
theorem check_eq_error_iff :
    node.check wire wires = .error reason ↔ node.FirstFault wire wires reason := by
  constructor
  · intro h
    rw [check, lanes_eq_reduceOption] at h
    split at h
    · next hlone =>
      obtain rfl := Except.error.inj h
      exact .loneControlB hlone.1 (Option.isNone_iff_eq_none.1 hlone.2)
    next hlone =>
    have hcontrol := node.not_loneControlB_iff.1 hlone
    split at h
    · next hlanes =>
      obtain rfl := Except.error.inj h
      obtain ⟨earlier, lane, later, hsplit, hpassed, hoffends⟩ := checkLanes_eq_error_iff.1 hlanes
      rw [List.append_nil] at hoffends
      exact .lane hcontrol hsplit (checkLanes_nil_eq_ok_iff.1 hpassed) hoffends
    next hlanes =>
    split at h
    · next hpair =>
      obtain rfl := Except.error.inj h
      exact .noPartner hcontrol (checkLanes_nil_eq_ok_iff.1 hlanes) hpair.1
        (Option.isNone_iff_eq_none.1 hpair.2)
    · cases h
  · rw [check, lanes_eq_reduceOption]
    rintro (⟨hb, ha⟩ | ⟨hcontrol, hsplit, hearlier, hoffends⟩ | ⟨hcontrol, hlanes, hkind, hpartner⟩)
    · rw [if_pos ⟨hb, Option.isNone_iff_eq_none.2 ha⟩]
    · have hlanes := checkLanes_eq_error_iff.2 ⟨_, _, _, hsplit,
        checkLanes_nil_eq_ok_iff.2 hearlier, by rwa [List.append_nil]⟩
      rw [if_neg (node.not_loneControlB_iff.2 hcontrol), hlanes]
    · rw [if_neg (node.not_loneControlB_iff.2 hcontrol), checkLanes_nil_eq_ok_iff.2 hlanes]
      exact if_pos ⟨hkind, Option.isNone_iff_eq_none.2 hpartner⟩

/-- The check passes a node exactly if a second control comes with a first one, the set lanes are
    different wires of the grid and none is the wire of the node, and an exchange has a partner.
    Otherwise it reports what is wrong first: a second control alone, then the first lane that
    offends, and last an exchange without a partner. -/
theorem check_reports_first (node : Node) (wire : Wire) (wires : UInt32) :
    (node.check wire wires = .ok () ↔
      (node.controlB.isSome → node.controlA.isSome) ∧
      (∀ lane ∈ [node.controlA, node.controlB, node.swapPartner].reduceOption,
        lane.index < wires ∧ lane ≠ wire) ∧
      [node.controlA, node.controlB, node.swapPartner].reduceOption.Nodup ∧
      (node.kind = .swap → node.swapPartner.isSome)) ∧
    ∀ reason, node.check wire wires = .error reason ↔ node.FirstFault wire wires reason := by
  refine ⟨?_, fun reason => check_eq_error_iff⟩
  rw [check_eq_ok_iff, ← lanes_eq_reduceOption]
  constructor
  · intro h
    exact ⟨h.control, fun lane hlane => ⟨h.inside lane hlane, h.foreign lane hlane⟩, h.distinct,
      h.partner⟩
  · rintro ⟨hcontrol, hlanes, hdistinct, hpartner⟩
    exact ⟨hcontrol, fun lane hlane => (hlanes lane hlane).1,
      fun lane hlane => (hlanes lane hlane).2, hdistinct, hpartner⟩

/-- A lane is beyond the grid, is the wire of the node, and comes twice: the range is reported. -/
example : check ⟨.x, .zero, some ⟨7⟩, some ⟨7⟩, none⟩ ⟨7⟩ 4 = .error (.outOfRange ⟨7⟩ 4) := rfl

end GateGrid.Node

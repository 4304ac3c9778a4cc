import GateGrid.Node.Build
import Mathlib.Data.List.Basic

/-!
# Nodes that fit

The check of a node goes through its lanes one by one and stops at the first thing that is wrong.
That it finds nothing wrong is a property of the node as a whole, which does not depend on the order
of the lanes: the node *fits*.

* `Node.Offends`: what is wrong with a lane that stands behind other lanes;
* `Node.Offends.checkLanes_eq`, `Node.checkLanes_of_passes`: what the check does with one lane;
* `Node.Fits`: nothing is wrong with a node;
* `Node.check_eq_ok_iff`: the check passes exactly the nodes that fit;
* `Node.Fits.nodup_operands`: the wire of a node that fits and its lanes are all different.
-/

namespace GateGrid.Node

/-- A lane behind the lanes `earlier` has a fault. If it has several, the range counts before the
    own wire, and that before a repetition. -/
inductive Offends (wire : Wire) (wires : UInt32) (earlier : List Wire) (lane : Wire) :
    Malformed → Prop
  /-- It is no wire of the grid. -/
  | outOfRange : wires ≤ lane.index → Offends wire wires earlier lane (.outOfRange lane wires)
  /-- It is the wire of the node. -/
  | ownWire : lane.index < wires → lane = wire → Offends wire wires earlier lane (.ownWire lane)
  /-- It is an earlier lane. -/
  | repeatedLane : lane.index < wires → lane ≠ wire → lane ∈ earlier →
      Offends wire wires earlier lane (.repeatedLane lane)

/-- A node fits on a wire of a grid with `wires` wires. -/
structure Fits (node : Node) (wire : Wire) (wires : UInt32) : Prop where
  /-- A second control comes with a first one. -/
  control : node.controlB.isSome → node.controlA.isSome
  /-- The lanes are wires of the grid. -/
  inside : ∀ lane ∈ node.lanes, lane.index < wires
  /-- No lane is the wire itself. -/
  foreign : ∀ lane ∈ node.lanes, lane ≠ wire
  /-- No lane is named twice. -/
  distinct : node.lanes.Nodup
  /-- An exchange has a partner. -/
  partner : node.kind = .swap → node.swapPartner.isSome

variable {node : Node} {wire lane : Wire} {wires : UInt32} {reason : Malformed}

/-! ### One lane -/

/-- A lane offends or it passes. -/
theorem offends_or_passes (wire : Wire) (wires : UInt32) (seen : List Wire) (lane : Wire) :
    (∃ reason, Offends wire wires seen lane reason) ∨
      lane.index < wires ∧ lane ≠ wire ∧ lane ∉ seen := by
  by_cases hin : lane.index < wires
  · by_cases hown : lane = wire
    · exact .inl ⟨_, .ownWire hin hown⟩
    by_cases hseen : lane ∈ seen
    · exact .inl ⟨_, .repeatedLane hin hown hseen⟩
    · exact .inr ⟨hin, hown, hseen⟩
  · exact .inl ⟨_, .outOfRange (UInt32.not_lt.1 hin)⟩

theorem Offends.not_passes {seen : List Wire} (h : Offends wire wires seen lane reason) :
    ¬(lane.index < wires ∧ lane ≠ wire ∧ lane ∉ seen) := by
  rintro ⟨hin, hforeign, hnew⟩
  rcases h with hout | ⟨_, hown⟩ | ⟨_, _, hmem⟩
  exacts [UInt32.not_lt.2 hout hin, hforeign hown, hnew hmem]

/-- At a lane that offends the check stops and reports its fault. -/
theorem Offends.checkLanes_eq {seen : List Wire} (h : Offends wire wires seen lane reason)
    (rest : List Wire) : checkLanes wire wires seen (lane :: rest) = .error reason := by
  rw [checkLanes]
  rcases h with hout | ⟨hin, hown⟩ | ⟨hin, hforeign, hmem⟩
  · rw [if_pos hout]
  · rw [if_neg (UInt32.not_le.2 hin), if_pos hown]
  · rw [if_neg (UInt32.not_le.2 hin), if_neg hforeign, if_pos hmem]

/-- Behind a lane that passes the check goes on with the others, for which it is an earlier one. -/
theorem checkLanes_of_passes {seen : List Wire}
    (h : lane.index < wires ∧ lane ≠ wire ∧ lane ∉ seen) (rest : List Wire) :
    checkLanes wire wires seen (lane :: rest) = checkLanes wire wires (lane :: seen) rest := by
  rw [checkLanes, if_neg (UInt32.not_le.2 h.1), if_neg h.2.1, if_neg h.2.2]

/-! ### The check -/

/-- The lanes pass the check, after those seen, if each of them would pass alone, none was seen, and
    none is named twice. -/
theorem checkLanes_eq_ok_iff {seen lanes : List Wire} :
    checkLanes wire wires seen lanes = .ok () ↔
      (∀ lane ∈ lanes, lane.index < wires ∧ lane ≠ wire ∧ lane ∉ seen) ∧ lanes.Nodup := by
  induction lanes generalizing seen with
  | nil => simp [checkLanes]
  | cons lane rest ih =>
    rw [List.forall_mem_cons, List.nodup_cons]
    rcases offends_or_passes wire wires seen lane with ⟨reason, hoffends⟩ | hlane
    · rw [hoffends.checkLanes_eq]
      exact ⟨nofun, fun h => absurd h.1.1 hoffends.not_passes⟩
    -- The lane passes. That the others have not seen it is that it is not among them.
    rw [checkLanes_of_passes hlane, ih]
    constructor
    · rintro ⟨hrest, hnodup⟩
      refine ⟨⟨hlane, fun other h => ?_⟩, fun h => ?_, hnodup⟩
      · obtain ⟨h₁, h₂, h₃⟩ := hrest other h
        exact ⟨h₁, h₂, fun hs => h₃ (List.mem_cons_of_mem _ hs)⟩
      · exact (hrest lane h).2.2 List.mem_cons_self
    · rintro ⟨⟨_, hrest⟩, hnot, hnodup⟩
      refine ⟨fun other h => ?_, hnodup⟩
      obtain ⟨h₁, h₂, h₃⟩ := hrest other h
      refine ⟨h₁, h₂, fun hs => ?_⟩
      rcases List.mem_cons.1 hs with rfl | hs
      · exact hnot h
      · exact h₃ hs

/-- No second control is set alone if it comes with a first one. -/
theorem not_loneControlB_iff (node : Node) : ¬(node.controlB.isSome ∧ node.controlA.isNone) ↔
    (node.controlB.isSome → node.controlA.isSome) := by
  rcases node.controlA with _ | a <;> simp

/-- No exchange is without a partner if it has one. -/
theorem not_noPartner_iff (node : Node) : ¬(node.kind = .swap ∧ node.swapPartner.isNone) ↔
    (node.kind = .swap → node.swapPartner.isSome) := by
  rcases node.swapPartner with _ | partner <;> simp

/-- The check passes exactly the nodes that fit. -/
theorem check_eq_ok_iff : node.check wire wires = .ok () ↔ node.Fits wire wires := by
  constructor
  · intro h
    rw [check] at h
    split at h
    · exact absurd h nofun
    next hlone =>
    split at h
    · exact absurd h nofun
    next hlanes =>
    split at h
    · exact absurd h nofun
    next hpair =>
    obtain ⟨hall, hnodup⟩ := checkLanes_eq_ok_iff.1 hlanes
    exact ⟨node.not_loneControlB_iff.1 hlone, fun lane hlane => (hall lane hlane).1,
      fun lane hlane => (hall lane hlane).2.1, hnodup, node.not_noPartner_iff.1 hpair⟩
  · intro h
    have hlanes : checkLanes wire wires [] node.lanes = .ok () :=
      checkLanes_eq_ok_iff.2 ⟨fun lane hlane =>
        ⟨h.inside lane hlane, h.foreign lane hlane, List.not_mem_nil⟩, h.distinct⟩
    rw [check, if_neg (node.not_loneControlB_iff.2 h.control), hlanes]
    exact if_neg (node.not_noPartner_iff.2 h.partner)

/-- The wire of a node that fits and its lanes are all different. -/
theorem Fits.nodup_operands (h : node.Fits wire wires) : (wire :: node.lanes).Nodup :=
  List.nodup_cons.2 ⟨fun hmem => h.foreign wire hmem rfl, h.distinct⟩

end GateGrid.Node

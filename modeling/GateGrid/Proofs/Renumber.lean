import GateGrid.Proofs.Resolution
import Mathlib.Data.Set.Function

/-!
# Renumbering the wires

The wires of a grid may be given other numbers, and more wires may be put between and around them:
what a node means does not change. The check compares a lane with the number of wires, with the wire
of the node and with the lanes before it. Under a renumbering all lanes stay in range, and as no two
wires get one number, the other comparisons come out as before. The choice of the operation compares
no wires at all.

* `Renumbers`: a map gives the wires of a grid different numbers in another grid;
* `Node.renumber`, `Malformed.renumber`, `Operation.renumber`: nodes, faults and operations with the
  other numbers;
* `Node.checkLanes_renumber`, `Node.check_renumber`: the check gives the same verdict;
* `Node.choose_renumber`: the same operation is chosen;
* `Node.resolve_renumber`: a node with other numbers resolves as before.
-/

namespace GateGrid

/-- The map `f` gives each wire of a grid with `wires` wires a number in one with `others` wires,
    and no two of them the same. -/
structure Renumbers (f : Wire → Wire) (wires others : UInt32) : Prop where
  /-- The new numbers are those of wires. -/
  mapsTo : Set.MapsTo f {wire | wire.index < wires} {wire | wire.index < others}
  /-- Different wires stay different. -/
  injOn : Set.InjOn f {wire | wire.index < wires}

/-- The fault of a node whose wires have other numbers. -/
def Malformed.renumber (f : Wire → Wire) : Malformed → Malformed
  | .ownWire lane => .ownWire (f lane)
  | .outOfRange lane wires => .outOfRange (f lane) wires
  | .repeatedLane lane => .repeatedLane (f lane)
  | reason => reason

/-- The operation on the wires with other numbers, in a grid with `others` wires; a barrier takes
    all of these. -/
def Operation.renumber (f : Wire → Wire) (others : UInt32) (operation : Operation) : Operation where
  kind := operation.kind
  wires := if operation.isBarrier then Wire.range others else operation.wires.map f

namespace Node

/-- The node with other numbers for its lanes. -/
def renumber (f : Wire → Wire) (node : Node) : Node :=
  { node with
    controlA := node.controlA.map f
    controlB := node.controlB.map f
    swapPartner := node.swapPartner.map f }

variable {f : Wire → Wire} {wires others : UInt32} {node : Node} {wire : Wire}

/-! ### The check -/

theorem lanes_renumber (f : Wire → Wire) (node : Node) :
    (node.renumber f).lanes = node.lanes.map f := by
  rw [lanes, lanes, renumber, List.map_append, List.map_append, Option.toList_map,
    Option.toList_map, Option.toList_map]

/-- A lane that was not seen before is not seen with the other numbers. -/
theorem map_not_mem_of_renumbers (h : Renumbers f wires others) {seen : List Wire}
    (hseen : ∀ lane ∈ seen, lane.index < wires) {lane : Wire} (hlane : lane.index < wires)
    (hnew : lane ∉ seen) : f lane ∉ seen.map f := by
  intro hmem
  obtain ⟨other, hother, heq⟩ := List.mem_map.1 hmem
  exact hnew (h.injOn (hseen other hother) hlane heq ▸ hother)

/-- A lane with another number has the same fault. -/
theorem Offends.renumber (h : Renumbers f wires others) (hwire : wire.index < wires)
    {seen : List Wire} {lane : Wire} {reason : Malformed} (hlane : lane.index < wires)
    (hoffends : Offends wire wires seen lane reason) :
    Offends (f wire) others (seen.map f) (f lane) (reason.renumber f) := by
  rcases hoffends with hout | ⟨_, hown⟩ | ⟨_, hforeign, hmem⟩
  · exact absurd hlane (UInt32.not_lt.2 hout)
  · exact .ownWire (h.mapsTo hlane) (congrArg f hown)
  · exact .repeatedLane (h.mapsTo hlane) (fun heq => hforeign (h.injOn hlane hwire heq))
      (List.mem_map_of_mem hmem)

/-- The check of lanes stops at the same lane, for the same reason. -/
theorem checkLanes_renumber (h : Renumbers f wires others) (hwire : wire.index < wires)
    {seen lanes : List Wire} (hseen : ∀ lane ∈ seen, lane.index < wires)
    (hlanes : ∀ lane ∈ lanes, lane.index < wires) :
    checkLanes (f wire) others (seen.map f) (lanes.map f) =
      (checkLanes wire wires seen lanes).mapError (Malformed.renumber f) := by
  induction lanes generalizing seen with
  | nil => rfl
  | cons lane rest ih =>
    obtain ⟨hlane, hrest⟩ := List.forall_mem_cons.1 hlanes
    rw [List.map_cons]
    rcases offends_or_passes wire wires seen lane with ⟨reason, hoffends⟩ | hpasses
    · rw [hoffends.checkLanes_eq, (hoffends.renumber h hwire hlane).checkLanes_eq]
      rfl
    · have hpasses' : (f lane).index < others ∧ f lane ≠ f wire ∧ f lane ∉ seen.map f :=
        ⟨h.mapsTo hlane, fun heq => hpasses.2.1 (h.injOn hlane hwire heq),
          map_not_mem_of_renumbers h hseen hlane hpasses.2.2⟩
      rw [checkLanes_of_passes hpasses, checkLanes_of_passes hpasses']
      exact ih (List.forall_mem_cons.2 ⟨hlane, hseen⟩) hrest

/-- A node with other numbers is found to be wrong in the same way, or right. -/
theorem check_renumber (h : Renumbers f wires others) (hwire : wire.index < wires)
    (hlanes : ∀ lane ∈ node.lanes, lane.index < wires) :
    (node.renumber f).check (f wire) others =
      (node.check wire wires).mapError (Malformed.renumber f) := by
  have hcheck := checkLanes_renumber h hwire (List.forall_mem_nil _) hlanes
  rw [List.map_nil, ← lanes_renumber] at hcheck
  rw [check, check, hcheck]
  simp only [renumber, Option.isSome_map, Option.isNone_map]
  split
  · rfl
  rcases checkLanes wire wires [] node.lanes with reason | _
  · rfl
  · by_cases hpair : node.kind = .swap ∧ node.swapPartner.isNone
    · simp only [Except.mapError, if_pos hpair, Malformed.renumber]
    · simp only [Except.mapError, if_neg hpair]

/-! ### The operation -/

/-- The same operation is chosen, on the wires with the other numbers. -/
theorem choose_renumber (f : Wire → Wire) (wires others : UInt32) (node : Node) (wire : Wire) :
    (node.renumber f).choose (f wire) others =
      (node.choose wire wires).map fun chosen => (chosen.1.renumber f others, chosen.2) := by
  have hrotated : (node.renumber f).isRotated = node.isRotated := rfl
  fun_cases choose node wire wires <;>
    simp_all [choose, renumber, Except.map, Operation.renumber, Operation.isBarrier]

theorem holds_renumber (f : Wire → Wire) (node : Node) : (node.renumber f).holds = node.holds := by
  funext field
  cases field with
  | angle => rfl
  | controlA | controlB | swapPartner => exact Option.isSome_map

/-- A node with other numbers resolves to the operation with the other numbers, and the same fields
    are reported. -/
theorem resolve_renumber_of_resolve (h : Renumbers f wires others) (hwire : wire.index < wires)
    {resolution : Resolution} (hresolve : node.resolve wire wires = .ok resolution) :
    (node.renumber f).resolve (f wire) others =
      .ok ⟨resolution.operation.renumber f others, resolution.unused⟩ := by
  obtain ⟨hfits, controls, hchoose, hunused⟩ := resolve_eq_ok_iff.1 hresolve
  have hcheck : (node.renumber f).check (f wire) others = .ok () := by
    rw [check_renumber h hwire hfits.inside, check_eq_ok_iff.2 hfits]
    rfl
  refine resolve_eq_ok_iff.2 ⟨check_eq_ok_iff.1 hcheck, controls, ?_, ?_⟩
  · rw [choose_renumber f wires, hchoose]
    rfl
  · rw [holds_renumber]
    exact hunused

/-- Whatever numbers the wires of a grid have, and whatever other wires there are: a node is found
    to be wrong in the same way, with the other number of the lane that is to blame, or right. If it
    is right, it resolves to an operation of the same kind, with the same fields reported. The
    operation is on the same wires, by their other numbers; a barrier is on all wires there are. -/
theorem resolve_renumber (h : Renumbers f wires others) (hwire : wire.index < wires)
    (hlanes : ∀ lane ∈ node.lanes, lane.index < wires) :
    (node.renumber f).check (f wire) others =
      (node.check wire wires).mapError (Malformed.renumber f) ∧
    (node.check wire wires = .ok () → ∃ resolution result,
      node.resolve wire wires = .ok resolution ∧
      (node.renumber f).resolve (f wire) others = .ok result ∧
      result.operation.kind = resolution.operation.kind ∧
      result.unused = resolution.unused ∧
      (resolution.operation.isBarrier = false →
        result.operation.wires = resolution.operation.wires.map f) ∧
      (resolution.operation.isBarrier →
        result.operation.wires.map (·.index.toNat) = List.range others.toNat)) := by
  refine ⟨check_renumber h hwire hlanes, fun hcheck => ?_⟩
  obtain ⟨resolution, hresolve⟩ := exists_resolve (check_eq_ok_iff.1 hcheck)
  refine ⟨resolution, _, hresolve, resolve_renumber_of_resolve h hwire hresolve, rfl, rfl,
    fun hbarrier => ?_, fun hbarrier => ?_⟩
  · rw [Operation.renumber, hbarrier]
    rfl
  · rw [Operation.renumber, if_pos hbarrier, Wire.map_toNat_range]

/-- Four wires in the reverse order, with one more above them and two more below: an exchange with
    two controls stays what it is, and its second control is reported as before. -/
theorem resolve_renumber_reversed :
    let f : Wire → Wire := fun wire => ⟨4 - wire.index⟩
    let node : Node := ⟨.swap, .zero, some ⟨0⟩, some ⟨1⟩, some ⟨3⟩⟩
    Renumbers f 4 7 ∧ (node.renumber f).check (f ⟨2⟩) 7 = .ok () ∧
      ∃ result, (node.renumber f).resolve (f ⟨2⟩) 7 = .ok result ∧
        result.operation.kind = .cswap ∧ result.unused = [.controlB] ∧
        result.operation.wires = [⟨4⟩, ⟨2⟩, ⟨1⟩] := by
  intro f node
  have hvalue (wire : Wire) (hwire : wire.index < 4) :
      wire.index.toNat < 4 ∧ (f wire).index.toNat = 4 - wire.index.toNat :=
    ⟨UInt32.lt_iff_toNat_lt.1 hwire, UInt32.toNat_sub_of_le _ _ (UInt32.le_of_lt hwire)⟩
  have h : Renumbers f 4 7 := by
    refine ⟨fun wire hwire => ?_, fun wire hwire other hother heq => ?_⟩
    · obtain ⟨_, hsub⟩ := hvalue wire hwire
      refine UInt32.lt_iff_toNat_lt.2 ?_
      rw [hsub]
      exact Nat.lt_of_le_of_lt (Nat.sub_le _ _) (by decide)
    · obtain ⟨hlt, hsub⟩ := hvalue wire hwire
      obtain ⟨hlt', hsub'⟩ := hvalue other hother
      rw [← heq, hsub] at hsub'
      exact congrArg Wire.mk (UInt32.toNat_inj.1 (by omega))
  have hresolve : node.resolve ⟨2⟩ 4 = .ok ⟨⟨.cswap, [⟨0⟩, ⟨2⟩, ⟨3⟩]⟩, [.controlB]⟩ := rfl
  obtain ⟨hcheck, hresult⟩ := @resolve_renumber f 4 7 node ⟨2⟩ h (by decide) (by decide)
  obtain ⟨resolution, result, hsame, hother, hkind, hunused, hwires, -⟩ := hresult rfl
  obtain rfl := Except.ok.inj (hsame.symm.trans hresolve)
  exact ⟨h, hcheck, result, hother, hkind, hunused, hwires rfl⟩

end Node

end GateGrid

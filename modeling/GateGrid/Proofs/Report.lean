import GateGrid.Proofs.Resolution

/-!
# What the report of a node means

When a node resolves, the set fields that its operation leaves out are reported. Two things make the
report one that can be relied upon.

Nothing is lost: every set field is either used or reported, and none is both. The operation takes
the lanes that are not reported, in the order of the fields, and has the angle unless that is
reported (`Node.resolve_accounts`). A barrier uses no field at all.

And nothing is reported in vain: the operation does not depend on what is reported, and depends on
everything else that is set (`Node.resolve_report_exact`). Two runs are compared for this.

* If two nodes agree but for reported fields, the choice of the operation takes the same branch for
  both, since no branch looks at what it leaves out (`Node.choose_of_agreesBut`).
* A lane that is used is an operand. Without it no operand is that wire any more, as all of them are
  different (`Node.wires_ne_of_erase`). An angle that is used is that of the operation, and without
  it there is none (`Node.angle?_of_erase`).
-/

namespace GateGrid

/-- Operations that are the same up to the numbers meant by their angles are on the same wires, and
    if one has an angle, so has the other. -/
theorem Operation.wires_angle?_of_numEq {a b : Operation} (h : a.numEq b) :
    a.wires = b.wires ∧ a.kind.angle?.isSome = b.kind.angle?.isSome := by
  rw [numEq, Bool.and_eq_true, beq_iff_eq] at h
  obtain ⟨hkind, hwires⟩ := h
  refine ⟨hwires, ?_⟩
  revert hkind
  fun_cases Kind.numEq a.kind b.kind <;> simp_all [Kind.angle?]

namespace Node

variable {node other : Node} {wire : Wire} {wires : UInt32} {resolution result : Resolution}

/-! ### Nothing is lost -/

theorem isRotatable_iff (kind : Kind) :
    kind.isRotatable ↔ kind = .x ∨ kind = .y ∨ kind = .z := by
  cases kind <;> decide

/-- The operation has the angle of the node, if that is set and not reported. -/
theorem angle?_of_resolve (h : node.resolve wire wires = .ok resolution) :
    resolution.operation.kind.angle? =
      if node.isRotated ∧ .angle ∉ resolution.unused then some node.angle else none := by
  obtain ⟨_, controls, hchoose, _⟩ := resolve_eq_ok_iff.1 h
  have hused : node.kind.isRotatable ∧ node.isRotated ↔
      node.isRotated ∧ .angle ∉ resolution.unused := by
    rw [mem_unused_iff h, Overspecifies, isRotatable_iff]
    tauto
  rw [angle_of_choose hchoose]
  simp only [hused]

/-- Only set fields are reported. -/
theorem holds_of_mem_unused (h : node.resolve wire wires = .ok resolution) {field : Field}
    (hmem : field ∈ resolution.unused) : node.holds field := by
  obtain ⟨_, controls, _, hunused⟩ := resolve_eq_ok_iff.1 h
  rw [hunused] at hmem
  exact (List.mem_filter.1 hmem).2

/-- The fields are reported in their order. -/
theorem unused_sublist (h : node.resolve wire wires = .ok resolution) :
    resolution.unused.Sublist Field.order := by
  rw [unused_of_resolve h]
  exact List.filter_sublist

/-- Barriers are what resolves to a barrier. -/
theorem barrier_of_resolve (h : node.resolve wire wires = .ok resolution) :
    resolution.operation.kind = .barrier ↔ node.kind = .barrier := by
  obtain ⟨_, controls, hchoose, _⟩ := resolve_eq_ok_iff.1 h
  exact (barrier_of_choose hchoose).1

/-- Of a barrier all set fields are reported. -/
theorem mem_unused_of_isBarrier (h : node.resolve wire wires = .ok resolution)
    (hbarrier : resolution.operation.isBarrier) {field : Field} (hholds : node.holds field) :
    field ∈ resolution.unused := by
  have hkind := (barrier_of_resolve h).1 (beq_iff_eq.1 hbarrier)
  rw [mem_unused_iff h]
  cases field <;> exact ⟨hholds, by simp [hkind]⟩

/-- Every set field of a node that resolves is used by the operation or reported, and none is both.
    An operation other than a barrier takes the controls, the wire of the node and the partner, each
    lane if it is set and not reported; it has the angle exactly if that is set and not reported.
    What is reported is set, and each field is reported once, in the order of the fields. Of a
    barrier every set field is reported. -/
theorem resolve_accounts (h : node.resolve wire wires = .ok resolution) :
    (resolution.operation.isBarrier = false →
      resolution.operation.wires =
        (if .controlA ∈ resolution.unused then [] else node.controlA.toList) ++
          (if .controlB ∈ resolution.unused then [] else node.controlB.toList) ++ [wire] ++
          (if .swapPartner ∈ resolution.unused then [] else node.swapPartner.toList) ∧
      resolution.operation.kind.angle? =
        if node.isRotated ∧ .angle ∉ resolution.unused then some node.angle else none) ∧
    (∀ field ∈ resolution.unused, node.holds field) ∧
    resolution.unused.Nodup ∧
    resolution.unused.Sublist [.swapPartner, .angle, .controlA, .controlB] ∧
    (resolution.operation.isBarrier → ∀ field, node.holds field → field ∈ resolution.unused) := by
  refine ⟨fun hbarrier => ⟨?_, angle?_of_resolve h⟩, fun field hmem => holds_of_mem_unused h hmem,
    ?_, unused_sublist h, fun hbarrier field hholds => mem_unused_of_isBarrier h hbarrier hholds⟩
  · exact wires_of_resolve h fun hkind => by simp [Operation.isBarrier, hkind] at hbarrier
  · exact (unused_sublist h).nodup (by decide)

/-- A turned `z` with two controls, and with a partner that it has no use for: the second control
    and the partner are reported, and what is left makes up the operation. -/
theorem resolve_accounts_turned :
    let angle : Binary64 := .ofBits 0x3ff8000000000000
    let node : Node := ⟨.z, angle, some ⟨0⟩, some ⟨1⟩, some ⟨2⟩⟩
    let resolution : Resolution := ⟨⟨.crz angle, [⟨0⟩, ⟨3⟩]⟩, [.swapPartner, .controlB]⟩
    node.resolve ⟨3⟩ 4 = .ok resolution ∧
      resolution.operation.wires = [⟨0⟩] ++ [] ++ [⟨3⟩] ++ [] ∧
      resolution.operation.kind.angle? = some angle ∧
      ∀ field ∈ resolution.unused, node.holds field := by
  intro angle node resolution
  have h : node.resolve ⟨3⟩ 4 = .ok resolution := rfl
  obtain ⟨hused, hset, -⟩ := resolve_accounts h
  exact ⟨h, (hused rfl).1, (hused rfl).2, hset⟩

/-! ### Nothing is reported in vain -/

/-- The two nodes are the same but for the given fields. -/
structure AgreesBut (fields : List Field) (node other : Node) : Prop where
  /-- They are of one kind. -/
  kind : other.kind = node.kind
  /-- They have the same angle, to the last bit. -/
  angle : .angle ∉ fields → other.angle = node.angle
  /-- They have the same first control. -/
  controlA : .controlA ∉ fields → other.controlA = node.controlA
  /-- They have the same second control. -/
  controlB : .controlB ∉ fields → other.controlB = node.controlB
  /-- They have the same partner. -/
  swapPartner : .swapPartner ∉ fields → other.swapPartner = node.swapPartner

theorem AgreesBut.mono {fields fields' : List Field} (h : AgreesBut fields node other)
    (hsub : fields ⊆ fields') : AgreesBut fields' node other where
  kind := h.kind
  angle := fun hnot => h.angle fun hmem => hnot (hsub hmem)
  controlA := fun hnot => h.controlA fun hmem => hnot (hsub hmem)
  controlB := fun hnot => h.controlB fun hmem => hnot (hsub hmem)
  swapPartner := fun hnot => h.swapPartner fun hmem => hnot (hsub hmem)

/-- The choice of an operation does not depend on the fields that it leaves out. -/
theorem choose_of_agreesBut {operation : Operation} {controls : List Field}
    (h : node.choose wire wires = .ok (operation, controls))
    (hagree : AgreesBut (node.kind.leavesOut ++ controls) node other) :
    other.choose wire wires = .ok (operation, controls) := by
  obtain ⟨hkind, hangle, hcontrolA, hcontrolB, hpartner⟩ := hagree
  revert h
  fun_cases choose node wire wires <;> rintro ⟨⟩ <;>
    simp_all [choose, Kind.leavesOut, Kind.isRotatable, isRotated]

/-- A node that fits and agrees but for what is reported resolves to the same operation. -/
theorem exists_resolve_of_agreesBut (h : node.resolve wire wires = .ok resolution)
    (hagree : AgreesBut resolution.unused node other) (hfits : other.Fits wire wires) :
    ∃ unused, other.resolve wire wires = .ok ⟨resolution.operation, unused⟩ := by
  obtain ⟨_, controls, hchoose, hunused⟩ := resolve_eq_ok_iff.1 h
  have hsub : resolution.unused ⊆ node.kind.leavesOut ++ controls := by
    rw [hunused]
    exact List.filter_sublist.subset
  have hother := choose_of_agreesBut hchoose (hagree.mono hsub)
  exact ⟨(other.kind.leavesOut ++ controls).filter other.holds,
    resolve_eq_ok_iff.2 ⟨hfits, controls, hother, rfl⟩⟩

/-- The lane in a field, if it is one of lanes and set. -/
def lane? (node : Node) : Field → Option Wire
  | .angle => none
  | .controlA => node.controlA
  | .controlB => node.controlB
  | .swapPartner => node.swapPartner

theorem exists_lane? {field : Field} (h : node.holds field) (hne : field ≠ .angle) :
    ∃ lane, node.lane? field = some lane := by
  cases field with
  | angle => exact absurd rfl hne
  | _ => exact Option.isSome_iff_exists.1 h

theorem kind_erase (node : Node) (field : Field) : (node.erase field).kind = node.kind := by
  cases field <;> rfl

/-- A lane that is not left out is an operand. -/
theorem mem_operands_of_lane? {field : Field} {lane : Wire} (hlane : node.lane? field = some lane)
    {unused : List Field} (hunused : field ∉ unused) (wire : Wire) :
    lane ∈ node.operands wire unused := by
  cases field <;> simp_all [lane?, operands]

/-- A lane and the lanes that stay without it are all lanes. -/
theorem lanes_perm_of_lane? {field : Field} {lane : Wire} (hlane : node.lane? field = some lane) :
    node.lanes.Perm (lane :: (node.erase field).lanes) := by
  cases field with
  | angle => exact absurd hlane nofun
  | controlA =>
    rw [lane?] at hlane
    simp [lanes, erase, hlane]
  | controlB =>
    rw [lane?] at hlane
    simp [lanes, erase, hlane]
  | swapPartner =>
    rw [lane?] at hlane
    simpa [lanes, erase, hlane] using
      List.perm_append_singleton lane (node.controlA.toList ++ node.controlB.toList)

/-- Without a lane, no lane is that wire, and neither is the wire of the node. -/
theorem Fits.not_mem_of_lane? (h : node.Fits wire wires) {field : Field} {lane : Wire}
    (hlane : node.lane? field = some lane) : lane ∉ wire :: (node.erase field).lanes := by
  have hperm : (wire :: node.lanes).Perm (lane :: wire :: (node.erase field).lanes) :=
    ((lanes_perm_of_lane? hlane).cons wire).trans (.swap ..)
  exact (List.nodup_cons.1 (hperm.nodup_iff.1 h.nodup_operands)).1

/-- Without a lane that is used the operation is on other wires. -/
theorem wires_ne_of_erase (h : node.resolve wire wires = .ok resolution) {field : Field}
    {lane : Wire} (hlane : node.lane? field = some lane) (hused : field ∉ resolution.unused)
    (hkind : node.kind ≠ .barrier) (herase : (node.erase field).resolve wire wires = .ok result) :
    result.operation.wires ≠ resolution.operation.wires := by
  have hmem : lane ∈ resolution.operation.wires := by
    rw [wires_of_resolve h fun hbarrier => hkind ((barrier_of_resolve h).1 hbarrier)]
    exact mem_operands_of_lane? hlane hused wire
  have hkind' : result.operation.kind ≠ .barrier := by
    intro hbarrier
    exact hkind (node.kind_erase field ▸ (barrier_of_resolve herase).1 hbarrier)
  -- The operands without the lane are among the wire and the lanes that stay.
  obtain ⟨all, hsub, hperm⟩ := (node.erase field).exists_sublist_operands wire result.unused
  have hfits := (resolve_eq_ok_iff.1 h).1
  intro heq
  rw [← heq, wires_of_resolve herase hkind'] at hmem
  exact hfits.not_mem_of_lane? hlane (hperm.mem_iff.1 (hsub.subset hmem))

/-- Without its angle a node has an operation without an angle. -/
theorem angle?_of_erase (herase : (node.erase .angle).resolve wire wires = .ok result) :
    result.operation.kind.angle? = none := by
  rw [angle?_of_resolve herase]
  exact if_neg fun hrotated => absurd hrotated.1 (by simp [isRotated, erase, Binary64.isZero,
    Binary64.zero])

/-- Without a set field that is not reported the operation is on other wires, or one of the two has
    an angle and the other has none. -/
theorem wires_or_angle?_ne_of_erase (h : node.resolve wire wires = .ok resolution) {field : Field}
    (hholds : node.holds field) (hused : field ∉ resolution.unused)
    (herase : (node.erase field).resolve wire wires = .ok result) :
    result.operation.wires ≠ resolution.operation.wires ∨
      result.operation.kind.angle?.isSome ≠ resolution.operation.kind.angle?.isSome := by
  have hkind : node.kind ≠ .barrier := by
    intro hkind
    have hbarrier := (barrier_of_resolve h).2 hkind
    exact hused (mem_unused_of_isBarrier h (beq_iff_eq.2 hbarrier) hholds)
  by_cases hangle : field = .angle
  · right
    subst hangle
    rw [angle?_of_erase herase, angle?_of_resolve h, if_pos ⟨hholds, hused⟩]
    exact Bool.false_ne_true
  · left
    obtain ⟨lane, hlane⟩ := exists_lane? hholds hangle
    exact wires_ne_of_erase h hlane hused hkind herase

/-- What is reported of a node is what its operation does not depend on. Any node that fits and
    agrees with it but for reported fields, whatever they are in it, resolves to the same operation.
    And without any one set field that is not reported the node resolves to another operation,
    also if angles are compared by the numbers they mean, or to none. -/
theorem resolve_report_exact (h : node.resolve wire wires = .ok resolution) :
    (∀ other, AgreesBut resolution.unused node other → other.check wire wires = .ok () →
      ∃ unused, other.resolve wire wires = .ok ⟨resolution.operation, unused⟩) ∧
    ∀ field, node.holds field → field ∉ resolution.unused → ∀ result,
      (node.erase field).resolve wire wires = .ok result →
        result.operation ≠ resolution.operation ∧
          result.operation.numEq resolution.operation = false := by
  refine ⟨fun other hagree hcheck => ?_, fun field hholds hused result herase => ?_⟩
  · exact exists_resolve_of_agreesBut h hagree (check_eq_ok_iff.1 hcheck)
  have hdiffers := wires_or_angle?_ne_of_erase h hholds hused herase
  refine ⟨fun heq => ?_, ?_⟩
  · rw [heq] at hdiffers
    exact hdiffers.elim (absurd rfl) (absurd rfl)
  · rw [← Bool.not_eq_true]
    intro heq
    obtain ⟨hwires, hangle⟩ := Operation.wires_angle?_of_numEq heq
    exact hdiffers.elim (absurd hwires) (absurd hangle)

/-- Of a turned `z` with two controls the second one is reported. Without it the operation is the
    same, and without the angle it is another one. -/
theorem resolve_report_exact_turned :
    let angle : Binary64 := .ofBits 0x3ff8000000000000
    let node : Node := ⟨.z, angle, some ⟨0⟩, some ⟨1⟩, none⟩
    let operation : Operation := ⟨.crz angle, [⟨0⟩, ⟨3⟩]⟩
    node.resolve ⟨3⟩ 4 = .ok ⟨operation, [.controlB]⟩ ∧
      (∃ unused, (node.erase .controlB).resolve ⟨3⟩ 4 = .ok ⟨operation, unused⟩) ∧
      ∀ result, (node.erase .angle).resolve ⟨3⟩ 4 = .ok result →
        result.operation ≠ operation ∧ result.operation.numEq operation = false := by
  intro angle node operation
  have h : node.resolve ⟨3⟩ 4 = .ok ⟨operation, [.controlB]⟩ := rfl
  obtain ⟨hsame, hother⟩ := resolve_report_exact h
  have hagree : AgreesBut [.controlB] node (node.erase .controlB) :=
    ⟨rfl, fun _ => rfl, fun _ => rfl, fun hnot => absurd List.mem_cons_self hnot, fun _ => rfl⟩
  exact ⟨h, hsame _ hagree rfl, hother .angle rfl (by decide)⟩

end Node

end GateGrid

import GateGrid.Resolution
import GateGrid.Proofs.Grid.Scan
import GateGrid.Proofs.Node.Fits

/-!
# What nodes resolve to

The choice of an operation goes through the kinds one by one, and each of them settles for itself
which wires its operation takes and which fields it leaves out. Three rules hold for all of them.

* A set field is reported exactly if the node is over-specified by it (`Node.Overspecifies`), and
  the fields are reported in one order (`Node.unused_of_resolve`).
* The operation takes the lanes that are not reported, and the wire of the node after the controls
  (`Node.wires_of_resolve`). Only a barrier takes all wires.
* The angle of the operation is that of the node, and not zero (`Node.angle_of_resolve`).

A node that fits therefore always resolves (`Node.exists_resolve`), and to an operation that can be
carried out (`Node.wellFormed_of_resolve`).
-/

namespace GateGrid

namespace Node

/-- The fields in the order in which they are reported. -/
def Field.order : List Field := [.swapPartner, .angle, .controlA, .controlB]

/-- A field is set and has no meaning for the node: a partner that is not to be exchanged with, an
    angle of what is not turned, a control of what has no controlled form, and a second control
    anywhere but on an `x` that is not turned. -/
def Overspecifies (node : Node) : Field → Prop
  | .swapPartner => node.swapPartner.isSome ∧ node.kind ≠ .swap
  | .angle => node.isRotated ∧ ¬(node.kind = .x ∨ node.kind = .y ∨ node.kind = .z)
  | .controlA => node.controlA.isSome ∧
      (node.kind ∈ [Kind.identity, .s, .sdg, .t, .tdg, .barrier] ∨
        (node.kind = .x ∨ node.kind = .y) ∧ node.isRotated)
  | .controlB => node.controlB.isSome ∧ ¬(node.kind = .x ∧ ¬node.isRotated)

instance (node : Node) (field : Field) : Decidable (node.Overspecifies field) :=
  match field with
  | .swapPartner => inferInstanceAs (Decidable (_ ∧ _))
  | .angle => inferInstanceAs (Decidable (_ ∧ _))
  | .controlA => inferInstanceAs (Decidable (_ ∧ _))
  | .controlB => inferInstanceAs (Decidable (_ ∧ _))

/-- Some field of the node has no meaning. -/
def Overspecified (node : Node) : Prop := ∃ field, node.Overspecifies field

theorem Field.mem_order (field : Field) : field ∈ Field.order := by
  cases field <;> decide

theorem exists_mem_order_iff {node : Node} :
    (∃ field ∈ Field.order, node.Overspecifies field) ↔ node.Overspecified :=
  ⟨fun ⟨field, _, h⟩ => ⟨field, h⟩, fun ⟨field, h⟩ => ⟨field, field.mem_order, h⟩⟩

instance (node : Node) : Decidable node.Overspecified := decidable_of_iff _ exists_mem_order_iff

/-- The wires of a node for its operation: the controls, its own wire and the partner, without the
    lanes that are not used. -/
def operands (node : Node) (wire : Wire) (unused : List Field) : List Wire :=
  (if .controlA ∈ unused then [] else node.controlA.toList) ++
    (if .controlB ∈ unused then [] else node.controlB.toList) ++ [wire] ++
    (if .swapPartner ∈ unused then [] else node.swapPartner.toList)

variable {node : Node} {wire : Wire} {wires : UInt32}

/-! ### The choice of an operation -/

section Choose

variable {operation : Operation} {controls : List Field}

/-- A node that fits has an operation. -/
theorem exists_choose (h : node.Fits wire wires) :
    ∃ operation controls, node.choose wire wires = .ok (operation, controls) := by
  cases hchoose : node.choose wire wires with
  | ok chosen => exact ⟨chosen.1, chosen.2, rfl⟩
  | error reason =>
    -- The one case without an operation is an exchange without a partner.
    have hpartner := h.partner
    revert hchoose
    fun_cases choose node wire wires <;> rintro ⟨⟩
    simp_all

/-- An exchange that has an operation has a partner. -/
theorem partner_of_choose (h : node.choose wire wires = .ok (operation, controls)) :
    node.kind = .swap → node.swapPartner.isSome := by
  revert h
  fun_cases choose node wire wires <;> rintro ⟨⟩ <;> simp_all

/-- An operation has as many wires as its kind takes. -/
theorem takes_of_choose (h : node.choose wire wires = .ok (operation, controls)) :
    operation.kind.takes operation.wires.length := by
  revert h
  fun_cases choose node wire wires <;> rintro ⟨⟩ <;> rfl

/-- The angle of an operation is that of the node, if the node is turned by it. -/
theorem angle_of_choose (h : node.choose wire wires = .ok (operation, controls)) :
    operation.kind.angle? =
      if node.kind.isRotatable ∧ node.isRotated then some node.angle else none := by
  revert h
  fun_cases choose node wire wires <;> rintro ⟨⟩ <;>
    simp_all [Operation.Kind.angle?, Kind.isRotatable]

/-- A barrier comes from a barrier, and takes all wires. -/
theorem barrier_of_choose (h : node.choose wire wires = .ok (operation, controls)) :
    (operation.kind = .barrier ↔ node.kind = .barrier) ∧
      (node.kind = .barrier → operation.wires = Wire.range wires) := by
  revert h
  fun_cases choose node wire wires <;> rintro ⟨⟩ <;> simp_all

/-- The fields that are left out are named in order, and none twice. -/
theorem filter_order_of_choose (h : node.choose wire wires = .ok (operation, controls)) :
    Field.order.filter (· ∈ node.kind.leavesOut ++ controls) = node.kind.leavesOut ++ controls := by
  revert h
  fun_cases choose node wire wires <;> rintro ⟨⟩ <;> simp only [*] <;> rfl

/-- A field is left out and set exactly if it over-specifies the node. -/
theorem overspecifies_iff_of_choose (hfits : node.Fits wire wires)
    (h : node.choose wire wires = .ok (operation, controls)) (field : Field) :
    field ∈ node.kind.leavesOut ++ controls ∧ node.holds field ↔ node.Overspecifies field := by
  -- Without a first control there is no second one, and `x` and `y` do not name it as left out.
  have hcontrol := hfits.control
  revert h
  fun_cases choose node wire wires <;> rintro ⟨⟩ <;> cases field <;>
    simp_all [Kind.leavesOut, Overspecifies, Kind.isRotatable, holds]

/-- A lane counts for nothing if it is left out where it is set. -/
theorem toList_of_isSome (lane : Option Wire) :
    (if lane.isSome then [] else lane.toList) = [] := by
  cases lane <;> rfl

/-- The operation of a node other than a barrier takes the lanes that are not left out. -/
theorem wires_of_choose (hfits : node.Fits wire wires)
    (h : node.choose wire wires = .ok (operation, controls)) (hkind : node.kind ≠ .barrier) :
    operation.wires = node.operands wire ((node.kind.leavesOut ++ controls).filter node.holds) := by
  have hcontrol := hfits.control
  revert h
  fun_cases choose node wire wires <;> rintro ⟨⟩ <;>
    simp_all [Kind.leavesOut, Kind.isRotatable, holds, operands, toList_of_isSome]

end Choose

/-! ### Resolution -/

variable {resolution : Resolution}

/-- A node resolves if it fits, to the operation that is chosen for it; the fields left out that are
    set are reported. -/
theorem resolve_eq_ok_iff :
    node.resolve wire wires = .ok resolution ↔ node.Fits wire wires ∧
      ∃ controls, node.choose wire wires = .ok (resolution.operation, controls) ∧
        resolution.unused = (node.kind.leavesOut ++ controls).filter node.holds := by
  rw [← check_eq_ok_iff, resolve]
  cases node.check wire wires with
  | error reason => simp
  | ok _ =>
    cases node.choose wire wires with
    | error reason => simp
    | ok chosen =>
      obtain ⟨operation, controls⟩ := chosen
      obtain ⟨operation', unused⟩ := resolution
      simp only [Except.ok.injEq, Resolution.mk.injEq, Prod.mk.injEq, true_and]
      constructor
      · rintro ⟨rfl, rfl⟩
        exact ⟨controls, ⟨rfl, rfl⟩, rfl⟩
      · rintro ⟨_, ⟨rfl, rfl⟩, rfl⟩
        exact ⟨rfl, rfl⟩

/-- A node that fits resolves. -/
theorem exists_resolve (h : node.Fits wire wires) :
    ∃ resolution, node.resolve wire wires = .ok resolution := by
  obtain ⟨operation, controls, hchoose⟩ := exists_choose h
  exact ⟨⟨operation, _⟩, resolve_eq_ok_iff.2 ⟨h, controls, hchoose, rfl⟩⟩

/-- The fields that over-specify a node are reported, in order. -/
theorem unused_of_resolve (h : node.resolve wire wires = .ok resolution) :
    resolution.unused = Field.order.filter (node.Overspecifies ·) := by
  obtain ⟨hfits, controls, hchoose, hunused⟩ := resolve_eq_ok_iff.1 h
  rw [hunused, ← filter_order_of_choose hchoose, List.filter_filter]
  refine List.filter_congr fun field _ => ?_
  rw [Bool.eq_iff_iff, Bool.and_eq_true, decide_eq_true_iff, decide_eq_true_iff, And.comm]
  exact overspecifies_iff_of_choose hfits hchoose field

theorem mem_unused_iff (h : node.resolve wire wires = .ok resolution) (field : Field) :
    field ∈ resolution.unused ↔ node.Overspecifies field := by
  rw [unused_of_resolve h, List.mem_filter, decide_eq_true_iff]
  exact and_iff_right field.mem_order

/-- Nothing is reported of a node exactly if it is not over-specified. -/
theorem unused_eq_nil_iff (h : node.resolve wire wires = .ok resolution) :
    resolution.unused = [] ↔ ¬node.Overspecified := by
  rw [unused_of_resolve h, List.filter_eq_nil_iff, ← exists_mem_order_iff]
  simp

/-- Of an over-specified node the first field that has no meaning is reported first. -/
theorem exists_unused_eq_cons (h : node.resolve wire wires = .ok resolution)
    (hover : node.Overspecified) :
    ∃ field rest, resolution.unused = field :: rest ∧
      Field.order.find? (node.Overspecifies ·) = some field := by
  cases hunused : resolution.unused with
  | nil => exact absurd hover ((unused_eq_nil_iff h).1 hunused)
  | cons field rest =>
    refine ⟨field, rest, rfl, ?_⟩
    rw [← List.head?_filter, ← unused_of_resolve h, hunused, List.head?_cons]

/-- An operation other than a barrier takes the lanes that are not reported. -/
theorem wires_of_resolve (h : node.resolve wire wires = .ok resolution)
    (hkind : resolution.operation.kind ≠ .barrier) :
    resolution.operation.wires = node.operands wire resolution.unused := by
  obtain ⟨hfits, controls, hchoose, hunused⟩ := resolve_eq_ok_iff.1 h
  rw [hunused]
  exact wires_of_choose hfits hchoose fun hnode => hkind ((barrier_of_choose hchoose).1.2 hnode)

/-- The angle of an operation is set. -/
theorem angle_of_resolve (h : node.resolve wire wires = .ok resolution) {angle : Binary64}
    (hangle : resolution.operation.kind.angle? = some angle) :
    angle = node.angle ∧ angle.isZero = false := by
  obtain ⟨_, controls, hchoose, _⟩ := resolve_eq_ok_iff.1 h
  rw [angle_of_choose hchoose] at hangle
  split at hangle
  · next hrotated =>
    obtain rfl := Option.some_inj.1 hangle
    exact ⟨rfl, by simpa [isRotated] using hrotated.2⟩
  · exact absurd hangle nofun

end Node

/-! ### Operations that can be carried out -/

namespace Operation

/-- An operation can be carried out on `wires` wires. -/
structure WellFormed (operation : Operation) (wires : UInt32) : Prop where
  /-- It has as many wires as its kind takes. -/
  arity : ∀ count, operation.kind.arity = some count → operation.wires.length = count
  /-- No wire is named twice. -/
  distinct : operation.wires.Nodup
  /-- The wires are there. -/
  inside : ∀ wire ∈ operation.wires, wire.index < wires
  /-- The angle of a rotation is not zero. -/
  rotation : ∀ angle, operation.kind.angle? = some angle → angle.isZero = false
  /-- A barrier takes all wires, from the top. -/
  barrier : operation.kind = .barrier →
    operation.wires.map (·.index.toNat) = List.range wires.toNat

/-- An operation that can be carried out passes the test of its number of wires. -/
theorem WellFormed.make_eq {operation : Operation} {wires : UInt32}
    (h : operation.WellFormed wires) : make operation.kind operation.wires = .ok operation := by
  have htakes : operation.kind.takes operation.wires.length := by
    rw [Kind.takes]
    cases hcount : operation.kind.arity with
    | none => rfl
    | some count => simp [h.arity count hcount]
  rw [make, if_pos htakes]

end Operation

/-- The numbers of all wires, from the top. -/
theorem Wire.map_toNat_range (count : UInt32) :
    (Wire.range count).map (·.index.toNat) = List.range count.toNat := by
  rw [Wire.range, List.map_map]
  refine (List.map_congr_left fun i hi => ?_).trans (List.map_id _)
  exact UInt32.toNat_ofNat_of_lt' (Nat.lt_trans (List.mem_range.1 hi) count.toNat_lt)

theorem Wire.nodup_range (count : UInt32) : (Wire.range count).Nodup := by
  refine List.Nodup.of_map (·.index.toNat) ?_
  rw [Wire.map_toNat_range]
  exact List.nodup_range

namespace Node

variable {node : Node} {wire : Wire} {wires : UInt32} {resolution : Resolution}

/-- If no lane is left out, the operands of a node are its wire and its lanes. -/
theorem operands_nil_perm (node : Node) (wire : Wire) :
    (node.operands wire []).Perm (wire :: node.lanes) := by
  simp only [operands, List.not_mem_nil, if_false]
  rw [List.append_assoc _ [wire]]
  exact List.perm_middle

/-- The operands of a node are among its wire and its lanes, each taken once. -/
theorem exists_sublist_operands (node : Node) (wire : Wire) (unused : List Field) :
    ∃ all, (node.operands wire unused).Sublist all ∧ all.Perm (wire :: node.lanes) := by
  have hlane (field : Field) (lane : Option Wire) :
      (if field ∈ unused then [] else lane.toList).Sublist lane.toList := by
    split
    · exact List.nil_sublist _
    · exact List.Sublist.refl _
  exact ⟨node.operands wire [],
    (((hlane _ _).append (hlane _ _)).append (List.Sublist.refl _)).append (hlane _ _),
    node.operands_nil_perm wire⟩

/-- The operands of a node that fits are different wires of the grid. -/
theorem Fits.operands (h : node.Fits wire wires) (hwire : wire.index < wires)
    (unused : List Field) : (node.operands wire unused).Nodup ∧
      ∀ operand ∈ node.operands wire unused, operand.index < wires := by
  obtain ⟨all, hsub, hperm⟩ := node.exists_sublist_operands wire unused
  refine ⟨hsub.nodup (hperm.nodup_iff.2 h.nodup_operands), fun operand hmem => ?_⟩
  rcases List.mem_cons.1 (hperm.mem_iff.1 (hsub.subset hmem)) with rfl | hlane
  · exact hwire
  · exact h.inside operand hlane

/-- A node on a wire of the grid resolves to an operation that can be carried out. -/
theorem wellFormed_of_resolve (hwire : wire.index < wires)
    (h : node.resolve wire wires = .ok resolution) : resolution.operation.WellFormed wires := by
  obtain ⟨hfits, controls, hchoose, _⟩ := resolve_eq_ok_iff.1 h
  have harity : ∀ count, resolution.operation.kind.arity = some count →
      resolution.operation.wires.length = count := by
    intro count hcount
    have htakes := takes_of_choose hchoose
    rw [Operation.Kind.takes, hcount] at htakes
    exact (beq_iff_eq.1 htakes).symm
  have hangle : ∀ angle, resolution.operation.kind.angle? = some angle → angle.isZero = false :=
    fun _ hsome => (angle_of_resolve h hsome).2
  by_cases hkind : resolution.operation.kind = .barrier
  · have hwires : resolution.operation.wires = Wire.range wires :=
      (barrier_of_choose hchoose).2 ((barrier_of_choose hchoose).1.1 hkind)
    refine ⟨harity, ?_, ?_, hangle, fun _ => ?_⟩ <;> rw [hwires]
    · exact Wire.nodup_range wires
    · exact fun _ hmem => Wire.mem_range.1 hmem
    · exact Wire.map_toNat_range wires
  · obtain ⟨hnodup, hinside⟩ := hfits.operands hwire resolution.unused
    rw [← wires_of_resolve h hkind] at hnodup hinside
    exact ⟨harity, hnodup, hinside, hangle, fun hbarrier => absurd hbarrier hkind⟩

end Node

end GateGrid

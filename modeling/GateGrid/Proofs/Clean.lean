import GateGrid.Proofs.Compile
import GateGrid.Proofs.Grid.Store
import GateGrid.Proofs.Report

/-!
# Cleaning a grid

A node may have fields set that its operation leaves out. *Cleaning* the node unsets them: those
that are reported when the node resolves, and no others. The clean node still fits its wire, since a
second control never loses its first one and an exchange never loses its partner; it resolves to the
same operation, and nothing is left to report.

So the permissive policy does to a grid what the strict one does to the grid with all its nodes
clean. Cleaning a grid means to store each of its nodes again, without those fields.

* `Node.without`: a node with some fields unset;
* `Node.resolve_without`: a clean node resolves to the same operation, with nothing to report;
* `Grid.cleaning`, `Grid.cleaned`: the requests that clean a grid, and the grid after them;
* `Grid.Sound.placements_cleaned`: the nodes of the clean grid are the clean nodes, in the same
  cells;
* `Grid.compile_cleaned_build`: the two policies on a grid and on the clean grid.
-/

namespace GateGrid

namespace Node

variable {node : Node} {wire : Wire} {wires : UInt32} {resolution : Resolution}

/-- The node with all the given fields unset. -/
def without (node : Node) (fields : List Field) : Node := fields.foldl erase node

/-- Unsetting fields one after the other is unsetting all of them at once. -/
theorem without_eq (node : Node) (fields : List Field) :
    node.without fields =
      { kind := node.kind
        angle := if .angle ∈ fields then .zero else node.angle
        controlA := if .controlA ∈ fields then none else node.controlA
        controlB := if .controlB ∈ fields then none else node.controlB
        swapPartner := if .swapPartner ∈ fields then none else node.swapPartner } := by
  induction fields generalizing node with
  | nil => rfl
  | cons field fields ih =>
    rw [without, List.foldl_cons, ← without, ih]
    cases field <;> simp [erase]

/-- The fields that stay set are the others. -/
theorem holds_without (node : Node) (fields : List Field) (field : Field) :
    (node.without fields).holds field = (node.holds field && field ∉ fields) := by
  rw [without_eq]
  by_cases h : field ∈ fields
  · cases field <;> simp [holds, isRotated, h]
    rfl
  · cases field <;> simp [holds, isRotated, h]

theorem lanes_without (node : Node) (fields : List Field) :
    (node.without fields).lanes.Sublist node.lanes := by
  have hlane (field : Field) (lane : Option Wire) :
      (if field ∈ fields then none else lane).toList.Sublist lane.toList := by
    split
    · exact List.nil_sublist _
    · exact List.Sublist.refl _
  rw [without_eq]
  exact ((hlane _ _).append (hlane _ _)).append (hlane _ _)

/-- Where a first control has no meaning a second one has none either. -/
theorem Overspecifies.controlB (h : node.Overspecifies .controlA) (hset : node.controlB.isSome) :
    node.Overspecifies .controlB := by
  refine ⟨hset, fun ⟨hkind, hplain⟩ => ?_⟩
  rcases h.2 with hmem | hrotated
  · rw [hkind] at hmem
    exact absurd hmem (by decide)
  · exact hplain hrotated.2

/-- A node still fits without the fields that over-specify it. -/
theorem Fits.without (h : node.Fits wire wires) {fields : List Field}
    (hfields : ∀ field, field ∈ fields ↔ node.Overspecifies field) :
    (node.without fields).Fits wire wires := by
  have hsub := node.lanes_without fields
  have hholds (field : Field) : (node.without fields).holds field ↔
      node.holds field ∧ ¬node.Overspecifies field := by
    rw [holds_without, Bool.and_eq_true, decide_eq_true_iff, hfields]
  refine ⟨fun hset => ?_, fun lane hlane => h.inside lane (hsub.subset hlane),
    fun lane hlane => h.foreign lane (hsub.subset hlane), hsub.nodup h.distinct, fun hkind => ?_⟩
  · obtain ⟨hset, hplain⟩ := (hholds .controlB).1 hset
    exact (hholds .controlA).2 ⟨h.control hset, fun hover => hplain (hover.controlB hset)⟩
  · rw [without_eq] at hkind
    exact (hholds .swapPartner).2 ⟨h.partner hkind, fun hover => hover.2 hkind⟩

/-- A node agrees with what it is without some fields, but for these. -/
theorem agreesBut_without (node : Node) (fields : List Field) :
    AgreesBut fields node (node.without fields) := by
  rw [without_eq]
  exact ⟨rfl, fun h => if_neg h, fun h => if_neg h, fun h => if_neg h, fun h => if_neg h⟩

/-- A clean node resolves to the same operation, with nothing to report. -/
theorem resolve_without (h : node.resolve wire wires = .ok resolution) :
    (node.without resolution.unused).resolve wire wires = .ok ⟨resolution.operation, []⟩ := by
  obtain ⟨hfits, controls, hchoose, hunused⟩ := resolve_eq_ok_iff.1 h
  refine resolve_eq_ok_iff.2 ⟨hfits.without (mem_unused_iff h), controls, ?_, ?_⟩
  · refine choose_of_agreesBut hchoose ((node.agreesBut_without resolution.unused).mono ?_)
    rw [hunused]
    exact List.filter_sublist.subset
  · -- A field that is left out and was set is one of those unset.
    rw [eq_comm, List.filter_eq_nil_iff]
    intro field hmem hholds
    rw [holds_without, Bool.and_eq_true, decide_eq_true_iff, hunused, List.mem_filter] at hholds
    rw [show (node.without resolution.unused).kind = node.kind by rw [without_eq]] at hmem
    exact hholds.2 ⟨hmem, hholds.1⟩

/-- The node without the fields that are reported when it resolves. -/
def clean (node : Node) (wire : Wire) (wires : UInt32) : Node :=
  match node.resolve wire wires with
  | .ok resolution => node.without resolution.unused
  | .error _ => node

theorem clean_eq (h : node.resolve wire wires = .ok resolution) :
    node.clean wire wires = node.without resolution.unused := by
  rw [clean, h]

theorem resolve_clean (h : node.resolve wire wires = .ok resolution) :
    (node.clean wire wires).resolve wire wires = .ok ⟨resolution.operation, []⟩ := by
  rw [clean_eq h, resolve_without h]

theorem Fits.clean (h : node.Fits wire wires) : (node.clean wire wires).Fits wire wires := by
  obtain ⟨resolution, hresolve⟩ := exists_resolve h
  exact (resolve_eq_ok_iff.1 (resolve_clean hresolve)).1

/-- Cleaning twice is cleaning once. -/
theorem Fits.clean_clean (h : node.Fits wire wires) :
    (node.clean wire wires).clean wire wires = node.clean wire wires := by
  obtain ⟨resolution, hresolve⟩ := exists_resolve h
  exact clean_eq (resolve_clean hresolve)

end Node

/-- The placed node without the fields that are reported when it resolves. -/
def Placement.clean (wires : UInt32) (placement : Placement) : Placement :=
  ⟨placement.cell, placement.node.clean placement.cell.wire wires⟩

namespace Grid

/-! ### Whole grids -/

variable {grid : Grid} {cell : Cell}

/-- The requests that clean a grid: each of its nodes is stored again, in the order of time, without
    the fields that are reported when it resolves. -/
def cleaning (grid : Grid) : List Request :=
  storing (grid.placements.map (·.clean grid.wires))

/-- The grid with all its nodes clean. -/
def cleaned (grid : Grid) : Grid := grid.after grid.cleaning

theorem Sound.fits_clean (h : grid.Sound) :
    ∀ placement ∈ grid.placements.map (·.clean grid.wires),
      placement.node.Fits placement.cell.wire grid.wires :=
  List.forall_mem_map.2 fun placement hmem => (h.fits placement hmem).clean

theorem contains_clean :
    ∀ placement ∈ grid.placements.map (·.clean grid.wires), grid.Contains placement.cell :=
  List.forall_mem_map.2 fun _ hmem => (get_eq_ok_iff.1 (mem_placements.1 hmem)).1

/-- Cleaning never fails. -/
theorem Sound.replies_cleaning (h : grid.Sound) :
    grid.replies grid.cleaning = grid.cleaning.map fun _ => .ok .stored :=
  replies_storing contains_clean h.fits_clean

/-- In the clean grid each cell holds the clean node. -/
theorem Sound.node?_cleaned (h : grid.Sound) (hcell : grid.Contains cell) :
    grid.cleaned.node? cell = (grid.node? cell).map (·.clean cell.wire grid.wires) := by
  let content (cell : Cell) : Option Node := (grid.node? cell).map (·.clean cell.wire grid.wires)
  have hcontent : ∀ placement ∈ grid.placements.map (·.clean grid.wires),
      some placement.node = content placement.cell := by
    refine List.forall_mem_map.2 fun placement hmem => ?_
    have hnode := (get_eq_ok_iff.1 (mem_placements.1 hmem)).2
    change _ = (grid.node? placement.cell).map _
    rw [hnode]
    rfl
  rw [cleaned, cleaning, node?_after_storing hcell contains_clean h.fits_clean hcontent]
  split
  · rfl
  · next hfree =>
    -- A cell that is not written again was empty.
    cases hnode : grid.node? cell with
    | none => rfl
    | some node =>
      have hmem : ⟨cell, node⟩ ∈ grid.placements :=
        mem_placements.2 (get_eq_ok_iff.2 ⟨hcell, hnode⟩)
      refine absurd ?_ hfree
      rw [List.map_map]
      exact List.mem_map.2 ⟨_, hmem, rfl⟩

/-- The nodes of the clean grid are the clean nodes, in the same order. -/
theorem Sound.placements_cleaned (h : grid.Sound) :
    grid.cleaned.placements = grid.placements.map (·.clean grid.wires) := by
  have hcells : grid.cleaned.cells = grid.cells := by
    rw [cells, cells, cleaned, wires_after, columns_after]
  rw [placements, hcells, placements, List.map_filterMap]
  refine List.filterMap_congr fun cell hmem => ?_
  rw [h.node?_cleaned (mem_cells.1 hmem), Option.map_map, Option.map_map]
  rfl

theorem Resolves.clean {wires : UInt32} {placements : List Placement}
    {resolutions : List Resolution} (h : Resolves wires placements resolutions) :
    Resolves wires (placements.map (·.clean wires))
      (resolutions.map fun resolution => ⟨resolution.operation, []⟩) := by
  induction h with
  | nil => exact .nil
  | cons hresolve _ ih => exact .cons (Node.resolve_clean hresolve) ih

/-- The strict policy makes of the clean grid what the permissive one makes of the grid. -/
theorem Sound.compile_cleaned (h : grid.Sound) :
    ∃ circuit, (grid.cleaned.compile .strict).1 = .ok circuit ∧
      (grid.compile .permissive).1 = .ok circuit := by
  obtain ⟨resolutions, hresolves⟩ := exists_resolves h.fits
  refine ⟨_, ?_, fst_compile_permissive hresolves⟩
  have hclean := hresolves.clean
  have hunused : ∀ resolution ∈ resolutions.map fun resolution =>
      Resolution.mk resolution.operation [], resolution.unused = [] :=
    List.forall_mem_map.2 fun _ _ => rfl
  rw [fst_compile, h.placements_cleaned, cleaned, wires_after,
    compilePlacements_strict hclean hunused, compilePlacements_permissive hclean, List.map_map]
  rfl

/-- A clean grid stays as it is when it is cleaned. -/
theorem Sound.cleaned_cleaned (h : grid.Sound) : grid.cleaned.cleaned = grid.cleaned := by
  have hcleaned : grid.cleaned.Sound := h.after grid.cleaning
  have hwires : grid.cleaned.wires = grid.wires := wires_after _
  refine ext_node? (wires_after _) (columns_after _) fun cell hcell => ?_
  rw [cleaned, contains_after, cleaned, contains_after] at hcell
  rw [hcleaned.node?_cleaned ((contains_after _ _).2 hcell), h.node?_cleaned hcell, hwires]
  cases hnode : grid.node? cell with
  | none => rfl
  | some node =>
    exact congrArg some (h.fits_of_node? hcell hnode).clean_clean

/-- After any run, every request that cleans the grid is carried out. The strict policy compiles the
    clean grid, to the circuit that the permissive policy makes of the grid itself, and cleaning the
    clean grid changes nothing. -/
theorem compile_cleaned_build (wires columns : UInt32) (requests : List Request) :
    ((build wires columns requests).replies (build wires columns requests).cleaning =
      (build wires columns requests).cleaning.map fun _ => .ok .stored) ∧
    (∃ circuit, ((build wires columns requests).cleaned.compile .strict).1 = .ok circuit ∧
      ((build wires columns requests).compile .permissive).1 = .ok circuit) ∧
    (build wires columns requests).cleaned.cleaned = (build wires columns requests).cleaned := by
  have h := sound_build wires columns requests
  exact ⟨h.replies_cleaning, h.compile_cleaned, h.cleaned_cleaned⟩

end Grid

end GateGrid

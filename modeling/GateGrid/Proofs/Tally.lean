import GateGrid.Proofs.Compile
import GateGrid.Proofs.Origin
import Mathlib.Algebra.BigOperators.Group.List.Lemmas
import Mathlib.Data.Set.Card

/-!
# Counting operations and nodes

The tally of a circuit is made by counting the names of its operations one after the other. After
any number of them it has each name once, with the number of times that it occurred.

The operations of a circuit come from the nodes of a grid, one from each. The name of an operation
tells the kind of the node: the names fall into families, one for each kind, and no two families
have a name in common. So the counts of a family add up to the number of nodes of its kind.

* `Circuit.Tallies`: the counts are those of a sequence of names;
* `Circuit.Tallies.countName`, `Circuit.tallies_tally`: what counting one name preserves, and the
  tally of a circuit;
* `Node.Kind.variants`: the names of the operations that nodes of a kind resolve to;
* `Operation.Kind.name_mem_variants_iff`: the name of an operation tells the kind of the node;
* `Grid.ncard_cells_of_kind`: the number of cells with a node of some kind;
* `Circuit.tally_families`: the tally of any circuit, and of those that come from grids.
-/

namespace GateGrid

namespace Circuit

variable {counts : List (String × ℕ)} {names : List String}

/-- The counts are those of a sequence of names. -/
structure Tallies (names : List String) (counts : List (String × ℕ)) : Prop where
  /-- No name is counted in two places. -/
  nodup : (counts.map Prod.fst).Nodup
  /-- The names that occur are there, each with the number of times. -/
  lookup : ∀ name, counts.lookup name = if name ∈ names then some (names.count name) else none
  /-- All occurrences are counted. -/
  sum : (counts.map Prod.snd).sum = names.length

/-! ### One name more -/

/-- A name that is new goes to the end of the names; else they stay as they are. -/
theorem keys_countName (name : String) (counts : List (String × ℕ)) :
    (countName name counts).map Prod.fst =
      if name ∈ counts.map Prod.fst then counts.map Prod.fst
      else counts.map Prod.fst ++ [name] := by
  induction counts with
  | nil => rfl
  | cons entry rest ih =>
    obtain ⟨other, count⟩ := entry
    rw [countName]
    by_cases heq : other = name
    · simp [heq]
    · rw [if_neg heq, List.map_cons, ih]
      have hne : name ≠ other := fun h => heq h.symm
      split <;> simp_all

theorem lookup_cons_eq_ite (name key : String) (count : ℕ) (rest : List (String × ℕ)) :
    List.lookup name ((key, count) :: rest) =
      if name = key then some count else rest.lookup name := by
  rw [List.lookup_cons]
  split <;> simp_all

/-- One name has one occurrence more, and the others have as many as before. -/
theorem lookup_countName (name other : String) (counts : List (String × ℕ)) :
    (countName name counts).lookup other =
      if other = name then some ((counts.lookup name).getD 0 + 1) else counts.lookup other := by
  induction counts with
  | nil => exact lookup_cons_eq_ite ..
  | cons entry rest ih =>
    obtain ⟨key, count⟩ := entry
    rw [countName]
    by_cases hkey : key = name
    · subst hkey
      rw [if_pos rfl, lookup_cons_eq_ite, lookup_cons_eq_ite, lookup_cons_eq_ite, if_pos rfl]
      split <;> rfl
    · have hne : name ≠ key := fun heq => hkey heq.symm
      rw [if_neg hkey, lookup_cons_eq_ite, ih, lookup_cons_eq_ite, lookup_cons_eq_ite, if_neg hne]
      by_cases hother : other = key
      · rw [if_pos hother, if_pos hother, if_neg fun heq => hkey (hother ▸ heq)]
      · rw [if_neg hother, if_neg hother]

theorem sum_countName (name : String) (counts : List (String × ℕ)) :
    ((countName name counts).map Prod.snd).sum = (counts.map Prod.snd).sum + 1 := by
  induction counts with
  | nil => rfl
  | cons entry rest ih =>
    obtain ⟨other, count⟩ := entry
    rw [countName]
    split
    · simp only [List.map_cons, List.sum_cons]
      omega
    · simp only [List.map_cons, List.sum_cons, ih]
      omega

/-- Counting a name makes the counts those of the names with this one at the end. -/
theorem Tallies.countName (h : Tallies names counts) (name : String) :
    Tallies (names ++ [name]) (countName name counts) where
  nodup := by
    rw [keys_countName]
    split
    · exact h.nodup
    · next hnew =>
      exact h.nodup.append (List.nodup_singleton name) (List.disjoint_singleton.2 hnew)
  lookup := by
    intro other
    rw [lookup_countName, h.lookup, h.lookup, List.count_append, List.count_singleton]
    by_cases hother : other = name
    · subst hother
      by_cases hmem : other ∈ names <;> simp [hmem, List.count_eq_zero_of_not_mem]
    · have hne : name ≠ other := fun heq => hother heq.symm
      simp [hother, hne]
  sum := by rw [sum_countName, h.sum, List.length_append, List.length_singleton]

/-- Counting names one after the other makes the counts those of all names. -/
theorem Tallies.foldl (h : Tallies names counts) (later : List Operation) :
    Tallies (names ++ later.map (·.kind.name)) (later.foldl
      (fun counts operation => Circuit.countName operation.kind.name counts) counts) := by
  induction later generalizing names counts with
  | nil => rwa [List.map_nil, List.append_nil]
  | cons operation later ih =>
    have hnext := ih (h.countName operation.kind.name)
    rwa [List.append_assoc, List.singleton_append] at hnext

theorem tallies_tally (circuit : Circuit) :
    Tallies (circuit.operations.map (·.kind.name)) circuit.tally := by
  have hnil : Tallies [] [] := ⟨List.nodup_nil, fun _ => rfl, rfl⟩
  exact hnil.foldl circuit.operations

theorem Tallies.mem_keys_iff (h : Tallies names counts) (name : String) :
    name ∈ counts.map Prod.fst ↔ name ∈ names := by
  have hlookup := h.lookup name
  by_cases hmem : name ∈ names
  · rw [if_pos hmem] at hlookup
    obtain ⟨before, behind, hcounts, -⟩ := List.lookup_eq_some_iff.1 hlookup
    refine iff_of_true (List.mem_map.2 ⟨(name, names.count name), ?_, rfl⟩) hmem
    rw [hcounts]
    exact List.mem_append_right _ List.mem_cons_self
  · rw [if_neg hmem, List.lookup_eq_none_iff] at hlookup
    refine iff_of_false (fun hkey => ?_) hmem
    obtain ⟨entry, hentry, rfl⟩ := List.mem_map.1 hkey
    exact absurd (hlookup entry hentry) (by simp)

theorem Tallies.getD_lookup (h : Tallies names counts) (name : String) :
    (counts.lookup name).getD 0 = names.count name := by
  rw [h.lookup]
  split
  · rfl
  · next hnot => exact (List.count_eq_zero_of_not_mem hnot).symm

theorem sum_ite_eq_count (name : String) (family : List String) :
    (family.map fun other => if name == other then 1 else 0).sum = family.count name := by
  induction family with
  | nil => rfl
  | cons other family ih =>
    rw [List.map_cons, List.sum_cons, ih, List.count_cons, Nat.add_comm, Bool.beq_comm]

/-- The occurrences of different names add up to those of any of them. -/
theorem sum_count_eq_countP {family : List String} (hfamily : family.Nodup) (names : List String) :
    (family.map fun name => names.count name).sum = names.countP (· ∈ family) := by
  induction names with
  | nil => simp
  | cons name names ih =>
    simp only [List.count_cons]
    rw [List.sum_map_add, ih, sum_ite_eq_count, hfamily.count, List.countP_cons]
    simp only [decide_eq_true_eq]

end Circuit

/-! ### Families -/

/-- The names of the operations that nodes of a kind resolve to. -/
def Node.Kind.variants : Node.Kind → List String
  | .x => ["x", "cx", "ccx", "rx"]
  | .y => ["y", "cy", "ry"]
  | .z => ["z", "cz", "rz", "crz"]
  | .h => ["h", "ch"]
  | .swap => ["swap", "cswap"]
  | kind => [kind.mnemonic]

theorem Node.Kind.nodup_variants (kind : Node.Kind) : kind.variants.Nodup := by
  cases kind <;> decide

/-- The name of an operation is in the family of the kind of node that it comes from, and in no
    other. -/
theorem Operation.Kind.name_mem_variants_iff (kind : Operation.Kind) (source : Node.Kind) :
    kind.name ∈ source.variants ↔ kind.source = source := by
  cases kind <;> cases source <;>
    simp [name, Operation.Kind.source, Node.Kind.variants, Node.Kind.mnemonic]

namespace Grid

variable {wires : UInt32} {placements : List Placement} {resolutions : List Resolution}

/-- Each node has one operation, whose name is in the family of its kind. -/
theorem Resolves.countP_variants (h : Resolves wires placements resolutions) (kind : Node.Kind) :
    (resolutions.map (·.operation)).countP (·.kind.name ∈ kind.variants) =
      placements.countP (·.node.kind = kind) := by
  induction h with
  | nil => rfl
  | cons hresolve _ ih =>
    obtain ⟨_, controls, hchoose, _⟩ := Node.resolve_eq_ok_iff.1 hresolve
    rw [List.map_cons, List.countP_cons, List.countP_cons, ih]
    simp only [Operation.Kind.name_mem_variants_iff, Node.source_of_choose hchoose]

/-- The walk finds the cells that hold a node of some kind, each once. -/
theorem ncard_cells_of_kind (grid : Grid) (kind : Node.Kind) :
    {cell | ∃ node, grid.get cell = .ok (some node) ∧ node.kind = kind}.ncard =
      grid.placements.countP (·.node.kind = kind) := by
  let found := (grid.placements.filter (·.node.kind = kind)).map (·.cell)
  have hnodup : found.Nodup := by
    refine (List.Pairwise.sublist List.filter_sublist grid.pairwise_placements).map _ ?_
    exact fun _ _ hbefore => hbefore.ne
  have hmem : {cell | ∃ node, grid.get cell = .ok (some node) ∧ node.kind = kind} =
      (found.toFinset : Set Cell) := by
    ext cell
    simp only [Set.mem_ofPred_eq, List.coe_toFinset, found, List.mem_map, List.mem_filter,
      decide_eq_true_eq, mem_placements]
    constructor
    · rintro ⟨node, hget, hkind⟩
      exact ⟨⟨cell, node⟩, ⟨hget, hkind⟩, rfl⟩
    · rintro ⟨placement, ⟨hget, hkind⟩, rfl⟩
      exact ⟨placement.node, hget, hkind⟩
  rw [hmem, Set.ncard_coe_finset, List.toFinset_card_of_nodup hnodup, List.length_map,
    List.countP_eq_length_filter]

end Grid

/-- The tally of a circuit has each name of an operation that occurs once and no other names, with
    the number of operations of this name, and its numbers add up to that of the operations. And in
    the tally of the circuit of any grid the numbers of a family add up to the number of cells that
    hold a node of its kind. -/
theorem Circuit.tally_families :
    (∀ circuit : Circuit,
      (circuit.tally.map Prod.fst).Nodup ∧
      (∀ name, name ∈ circuit.tally.map Prod.fst ↔
        ∃ operation ∈ circuit.operations, operation.kind.name = name) ∧
      (∀ name, circuit.tally.lookup name =
        if ∃ operation ∈ circuit.operations, operation.kind.name = name
        then some (circuit.operations.countP (·.kind.name = name)) else none) ∧
      (circuit.tally.map Prod.snd).sum = circuit.operations.length) ∧
    ∀ (wires columns : UInt32) (requests : List Request),
      ∃ circuit, ((Grid.build wires columns requests).compile .permissive).1 = .ok circuit ∧
        ∀ kind : Node.Kind,
          (kind.variants.map fun name => (circuit.tally.lookup name).getD 0).sum =
            {cell | ∃ node, (Grid.build wires columns requests).get cell = .ok (some node) ∧
              node.kind = kind}.ncard := by
  refine ⟨fun circuit => ?_, fun wires columns requests => ?_⟩
  · have htally := circuit.tallies_tally
    refine ⟨htally.nodup, fun name => ?_, fun name => ?_, ?_⟩
    · rw [htally.mem_keys_iff, List.mem_map]
    · rw [htally.lookup, List.count, List.countP_map]
      simp only [List.mem_map]
      rfl
    · rw [htally.sum, List.length_map]
  · obtain ⟨resolutions, hresolves⟩ :=
      Grid.exists_resolves (Grid.sound_build wires columns requests).fits
    refine ⟨_, Grid.fst_compile_permissive hresolves, fun kind => ?_⟩
    rw [Grid.ncard_cells_of_kind, ← hresolves.countP_variants]
    simp only [(Circuit.tallies_tally _).getD_lookup]
    rw [Circuit.sum_count_eq_countP kind.nodup_variants, List.countP_map]
    rfl

end GateGrid

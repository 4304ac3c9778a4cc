import GateGrid.Proofs.Compile
import GateGrid.Proofs.Event
import Mathlib.Data.List.TakeWhile

/-!
# Logs of compilations

The log of a compilation has a line for each event. The two policies tell the same story about a
grid for as long as nothing is ignored. At the first warning of the permissive policy the strict one
stops, and before it has told anything about the cell: so its log is what the other log says before
its first warning, and that warning names what the strict policy refuses.

* `Grid.log`: the lines of a log;
* `Grid.Resolves.snd_strict`: the events of the strict policy are those of the permissive one before
  its first warning;
* `Grid.Resolves.fst_strict_of_find?_eq_some`: the first warning names what is refused;
* `Grid.Logs`: what the two logs of a grid are, word for word, and what they tell;
* `Grid.log_build`: the two logs of a grid, after any run.
-/

namespace GateGrid

/-! ### Single nodes -/

/-- What is told about a node of which nothing is reported is its operation alone. -/
theorem Placement.told_of_nil {resolution : Resolution} (placement : Placement)
    (h : resolution.unused = []) :
    placement.told resolution = [.emitted placement resolution.operation] := by
  rw [told, h]
  rfl

/-- What is told about another node starts with a warning. -/
theorem Placement.told_of_cons {resolution : Resolution} {field : Node.Field}
    {rest : List Node.Field} (placement : Placement) (h : resolution.unused = field :: rest) :
    ∃ later, placement.told resolution =
      .ignored placement.cell placement.node.kind field :: later := by
  rw [told, h]
  exact ⟨_, rfl⟩

namespace Grid

/-! ### Sequences of nodes -/

section Sequences

variable {wires : UInt32} {placements : List Placement} {resolutions : List Resolution}

/-- The events of the strict policy are those of the permissive one before its first warning. -/
theorem Resolves.snd_strict (h : Resolves wires placements resolutions) :
    (compilePlacements .strict wires placements).2 =
      (compilePlacements .permissive wires placements).2.takeWhile (!·.isWarning) := by
  induction h with
  | nil => rfl
  | @cons placement resolution _ _ hresolve _ ih =>
    rw [compilePlacements_cons (Placement.compile_permissive hresolve)]
    cases hunused : resolution.unused with
    | nil =>
      rw [compilePlacements_cons (Placement.compile_strict_of_nil hresolve hunused), ih,
        placement.told_of_nil hunused]
      rfl
    | cons field rest =>
      obtain ⟨later, htold⟩ := placement.told_of_cons hunused
      rw [compilePlacements_cons_error (Placement.compile_strict_of_cons hresolve hunused), htold]
      rfl

/-- Without a warning nothing is reported of any node. -/
theorem Resolves.unused_eq_nil_of_find? (h : Resolves wires placements resolutions)
    (hfind : (compilePlacements .permissive wires placements).2.find? (·.isWarning) = none) :
    ∀ resolution ∈ resolutions, resolution.unused = [] := by
  induction h with
  | nil => exact fun _ hmem => absurd hmem List.not_mem_nil
  | @cons placement resolution _ _ hresolve _ ih =>
    rw [compilePlacements_cons (Placement.compile_permissive hresolve)] at hfind
    cases hunused : resolution.unused with
    | nil =>
      rw [placement.told_of_nil hunused] at hfind
      exact List.forall_mem_cons.2 ⟨hunused, ih hfind⟩
    | cons field rest =>
      obtain ⟨later, htold⟩ := placement.told_of_cons hunused
      rw [htold] at hfind
      exact absurd hfind nofun

/-- The first warning names what the strict policy refuses. -/
theorem Resolves.fst_strict_of_find?_eq_some {event : Event}
    (h : Resolves wires placements resolutions)
    (hfind : (compilePlacements .permissive wires placements).2.find? (·.isWarning) =
      some event) :
    ∃ cell kind field, event = .ignored cell kind field ∧
      (compilePlacements .strict wires placements).1 =
        .error (.malformed cell (.unusedField kind field)) := by
  induction h with
  | nil => exact absurd hfind nofun
  | @cons placement resolution _ _ hresolve _ ih =>
    rw [compilePlacements_cons (Placement.compile_permissive hresolve)] at hfind
    cases hunused : resolution.unused with
    | nil =>
      rw [placement.told_of_nil hunused] at hfind
      obtain ⟨cell, kind, field, hevent, hstrict⟩ := ih hfind
      refine ⟨cell, kind, field, hevent, ?_⟩
      rw [compilePlacements_cons (Placement.compile_strict_of_nil hresolve hunused), hstrict]
      rfl
    | cons field rest =>
      obtain ⟨later, htold⟩ := placement.told_of_cons hunused
      rw [htold] at hfind
      refine ⟨_, _, field, (Option.some_inj.1 hfind).symm, ?_⟩
      rw [compilePlacements_cons_error (Placement.compile_strict_of_cons hresolve hunused)]

/-- There is an event of level `DEBUG` for each node. -/
theorem Resolves.count_emitted (h : Resolves wires placements resolutions) :
    ((List.zipWith Placement.told placements resolutions).flatten.countP (·.level == "DEBUG")) =
      resolutions.length := by
  induction h with
  | nil => rfl
  | @cons placement resolution _ _ _ _ ih =>
    have htold : (placement.told resolution).countP (·.level == "DEBUG") = 1 := by
      simp [Placement.told, List.countP_append, List.countP_eq_zero, Event.level]
    rw [List.zipWith_cons_cons, List.flatten_cons, List.countP_append, ih, htold,
      List.length_cons, Nat.add_comm]

end Sequences

/-! ### Whole grids -/

variable {grid : Grid}

/-- The events before the first node. -/
def opening (grid : Grid) : List Event :=
  [.span grid.wires grid.columns, .started grid.wires grid.columns grid.numOccupied]

theorem find?_opening (grid : Grid) (events : List Event) :
    (grid.opening ++ events).find? (·.isWarning) = events.find? (·.isWarning) := rfl

/-- The permissive policy tells the opening, then of each node, then the end. -/
theorem compile_permissive_of_resolves {resolutions : List Resolution}
    (h : Resolves grid.wires grid.placements resolutions) :
    grid.compile .permissive =
      (.ok ⟨grid.wires, resolutions.map (·.operation)⟩, grid.opening ++
        (List.zipWith Placement.told grid.placements resolutions).flatten ++
        [.finished resolutions.length]) := by
  rw [compile, compilePlacements_permissive h]
  simp only [opening, List.length_map]

/-- Where a node is refused, nothing is told after the events of the nodes before it. -/
theorem compile_of_error {policy : Policy} {error : Error}
    (h : (compilePlacements policy grid.wires grid.placements).1 = .error error) :
    grid.compile policy =
      (.error error, grid.opening ++ (compilePlacements policy grid.wires grid.placements).2) := by
  rw [compile]
  generalize compilePlacements policy grid.wires grid.placements = compiled at h ⊢
  obtain ⟨outcome, events⟩ := compiled
  obtain rfl : outcome = .error error := h
  rfl

/-- The warnings of the permissive policy are about the nodes. -/
theorem find?_compile_permissive (h : grid.Sound) :
    (grid.compile .permissive).2.find? (·.isWarning) =
      (compilePlacements .permissive grid.wires grid.placements).2.find? (·.isWarning) := by
  obtain ⟨resolutions, hresolves⟩ := exists_resolves h.fits
  rw [compile_permissive_of_resolves hresolves, compilePlacements_permissive hresolves,
    List.append_assoc, find?_opening, List.find?_append]
  exact Option.or_none

/-- Without a warning the two policies do the same. -/
theorem Sound.compile_strict_of_find?_eq_none (h : grid.Sound)
    (hfind : (grid.compile .permissive).2.find? (·.isWarning) = none) :
    grid.compile .strict = grid.compile .permissive := by
  obtain ⟨resolutions, hresolves⟩ := exists_resolves h.fits
  rw [find?_compile_permissive h] at hfind
  rw [compile, compile,
    compilePlacements_strict hresolves (hresolves.unused_eq_nil_of_find? hfind)]

/-- At the first warning of the permissive policy the strict one stops, with an error that names the
    same field of the same node. -/
theorem Sound.compile_strict_of_find?_eq_some (h : grid.Sound) {event : Event}
    (hfind : (grid.compile .permissive).2.find? (·.isWarning) = some event) :
    ∃ cell kind field, event = .ignored cell kind field ∧
      grid.compile .strict = (.error (.malformed cell (.unusedField kind field)),
        (grid.compile .permissive).2.takeWhile (!·.isWarning)) := by
  obtain ⟨resolutions, hresolves⟩ := exists_resolves h.fits
  rw [find?_compile_permissive h] at hfind
  obtain ⟨cell, kind, field, hevent, hstrict⟩ := hresolves.fst_strict_of_find?_eq_some hfind
  refine ⟨cell, kind, field, hevent, ?_⟩
  have hevents := hresolves.snd_strict
  -- The events of the nodes up to the first warning, and those behind it.
  rw [compilePlacements_permissive hresolves] at hfind hevents
  obtain ⟨hwarning, before, later, hsplit, hbefore⟩ := List.find?_eq_some_iff_append.1 hfind
  have htake (rest : List Event) : (before ++ event :: rest).takeWhile (!·.isWarning) = before := by
    rw [List.takeWhile_append_of_pos hbefore, List.takeWhile_cons_of_neg (by simpa using hwarning),
      List.append_nil]
  have hopening : ∀ event ∈ grid.opening, !event.isWarning := by
    simp [opening, Event.isWarning]
  dsimp only at hsplit
  rw [hsplit, htake] at hevents
  rw [compile_of_error hstrict, hevents, compile_permissive_of_resolves hresolves, hsplit,
    List.append_assoc, List.takeWhile_append_of_pos hopening, List.append_assoc, List.cons_append,
    htake]

/-- The lines that are logged while a grid is compiled. -/
def log (policy : Policy) (grid : Grid) : List String :=
  (grid.compile policy).2.map Event.line

/-- The log of the strict policy is that of the permissive one before its first warning. -/
theorem Sound.log_strict (h : grid.Sound) :
    grid.log .strict = (grid.log .permissive).takeWhile (Event.levelOf · != "WARN") := by
  have hevents : (grid.compile .strict).2 =
      (grid.compile .permissive).2.takeWhile (!·.isWarning) := by
    cases hfind : (grid.compile .permissive).2.find? (·.isWarning) with
    | none =>
      rw [h.compile_strict_of_find?_eq_none hfind, eq_comm, List.takeWhile_eq_self_iff]
      simpa using hfind
    | some event =>
      obtain ⟨_, _, _, _, hstrict⟩ := h.compile_strict_of_find?_eq_some hfind
      rw [hstrict]
  rw [log, hevents, log, List.takeWhile_map, Event.comp_line (· != "WARN")]
  simp only [bne, Event.level_beq_warn]

/-- The strict policy compiles the grid exactly if it logs what the permissive one logs. -/
theorem Sound.exists_compile_strict_iff (h : grid.Sound) :
    (∃ circuit, (grid.compile .strict).1 = .ok circuit) ↔
      grid.log .strict = grid.log .permissive := by
  constructor
  · rintro ⟨circuit, hcircuit⟩
    cases hfind : (grid.compile .permissive).2.find? (·.isWarning) with
    | none => rw [log, h.compile_strict_of_find?_eq_none hfind, log]
    | some event =>
      obtain ⟨_, _, _, _, hstrict⟩ := h.compile_strict_of_find?_eq_some hfind
      rw [hstrict] at hcircuit
      exact absurd hcircuit nofun
  · intro hlog
    -- The log has no warning, as it does not go on behind its first one.
    rw [h.log_strict, List.takeWhile_eq_self_iff, log, List.forall_mem_map] at hlog
    have hfind : (grid.compile .permissive).2.find? (·.isWarning) = none := by
      rw [List.find?_eq_none]
      intro event hmem hwarning
      have hlevel := hlog event hmem
      rw [Event.levelOf_line, bne, Event.level_beq_warn, hwarning] at hlevel
      exact absurd hlevel nofun
    obtain ⟨resolutions, hresolves⟩ := exists_resolves h.fits
    rw [h.compile_strict_of_find?_eq_none hfind, compile_permissive_of_resolves hresolves]
    exact ⟨_, rfl⟩

/-- What the strict policy refuses is named by the first warning of the permissive one. -/
theorem Sound.exists_of_compile_strict_error (h : grid.Sound) {error : Error}
    (herror : (grid.compile .strict).1 = .error error) :
    ∃ cell kind field, error = .malformed cell (.unusedField kind field) ∧
      (grid.compile .permissive).2.find? (·.isWarning) = some (.ignored cell kind field) ∧
      (grid.log .permissive).find? (Event.levelOf · == "WARN") =
        some (Event.ignored cell kind field).line := by
  cases hfind : (grid.compile .permissive).2.find? (·.isWarning) with
  | none =>
    obtain ⟨resolutions, hresolves⟩ := exists_resolves h.fits
    rw [h.compile_strict_of_find?_eq_none hfind, compile_permissive_of_resolves hresolves] at herror
    exact absurd herror nofun
  | some event =>
    obtain ⟨cell, kind, field, rfl, hstrict⟩ := h.compile_strict_of_find?_eq_some hfind
    rw [hstrict] at herror
    refine ⟨cell, kind, field, (Except.error.inj herror).symm, rfl, ?_⟩
    rw [log, List.find?_map, Event.comp_line (· == "WARN")]
    simp only [Event.level_beq_warn, hfind, Option.map_some]

/-- What is logged about a grid with `wires` wires and `columns` columns, if its nodes have the
    given resolutions. -/
structure Logs (grid : Grid) (wires columns : UInt32) (resolutions : List Resolution) : Prop where
  /-- The permissive policy compiles the grid to the operations of the nodes. -/
  circuit : (grid.compile .permissive).1 = .ok ⟨wires, resolutions.map (·.operation)⟩
  /-- It logs the size and the number of cells in use; then, of each node in the order of time, each
      field that is left out, with the kind and the cell, and after these the cell, the node, and
      the name and the wires of the operation; and then the number of operations. -/
  lines : grid.log .permissive =
    ["SPAN compile wires=" ++ toString wires.toNat ++ " columns=" ++ toString columns.toNat,
      "INFO Compiling " ++ toString wires.toNat ++ "x" ++ toString columns.toNat ++
        " grid with " ++ toString grid.numOccupied ++ " occupied cells"] ++
    (List.zipWith (fun placement resolution =>
      (resolution.unused.map fun field => "WARN Ignoring '" ++ field.name ++ "' on " ++
        placement.node.kind.mnemonic ++ " node at " ++ placement.cell.label) ++
      ["DEBUG " ++ placement.cell.column.label ++ " " ++ placement.cell.wire.label ++ ": " ++
        placement.node.display ++ " -> " ++ resolution.operation.kind.name ++ " [" ++
        ", ".intercalate (resolution.operation.wires.map fun wire => toString wire.index.toNat) ++
        "]"]) grid.scan resolutions).flatten ++
    ["INFO Grid compiled to " ++ toString resolutions.length ++ " operations"]
  /-- All this can be read off the lines: no other events have the same lines, unless they are about
      the same things. -/
  told : ∀ events : List Event, events.map Event.line = grid.log .permissive ↔
    List.Forall₂ Event.Alike events (grid.compile .permissive).2
  /-- There are as many cells in use as operations. -/
  occupied : grid.numOccupied = resolutions.length
  /-- There are as many lines about operations. -/
  emitted : (grid.log .permissive).countP (Event.levelOf · == "DEBUG") = resolutions.length
  /-- The log of the strict policy is that of the permissive one before its first warning. -/
  strict : grid.log .strict = (grid.log .permissive).takeWhile (Event.levelOf · != "WARN")
  /-- That is the whole log exactly if the strict policy compiles the grid. -/
  whole : (∃ circuit, (grid.compile .strict).1 = .ok circuit) ↔
    grid.log .strict = grid.log .permissive
  /-- Otherwise the first warning names the cell, the kind and the field of the error, and no
      others. -/
  refused : ∀ error, (grid.compile .strict).1 = .error error →
    ∃ cell kind field, error = .malformed cell (.unusedField kind field) ∧
      (grid.compile .permissive).2.find? (·.isWarning) = some (.ignored cell kind field) ∧
      ∃ line, (grid.log .permissive).find? (Event.levelOf · == "WARN") = some line ∧
        ∀ (cell' : Cell) (kind' : Node.Kind) (field' : Node.Field),
          line = "WARN Ignoring '" ++ field'.name ++ "' on " ++ kind'.mnemonic ++ " node at " ++
            cell'.label ↔ cell' = cell ∧ kind' = kind ∧ field' = field

/-- After any run, the log of the permissive policy is the opening, the warnings about each node in
    the order of time and the operation it was resolved to, and the end; the cells in use, the lines
    about operations and the operations are equally many. The log of the strict policy is all of it
    before the first warning. That is the whole log exactly if the strict policy compiles the grid,
    and else the first warning names the cell, the kind and the field of its error. -/
theorem log_build (wires columns : UInt32) (requests : List Request) :
    ∃ resolutions : List Resolution,
      Resolves wires (build wires columns requests).scan resolutions ∧
      (build wires columns requests).Logs wires columns resolutions := by
  have h := sound_build wires columns requests
  obtain ⟨resolutions, hresolves⟩ := exists_resolves h.fits
  have hcompile := compile_permissive_of_resolves hresolves
  rw [placements_eq_scan, wires_build] at hresolves
  refine ⟨resolutions, hresolves, ?_, ?_, fun events => Event.map_line_eq_iff, ?_, ?_,
    h.log_strict, h.exists_compile_strict_iff, fun error herror => ?_⟩
  · rw [hcompile, wires_build]
  · rw [log, hcompile, opening, placements_eq_scan, wires_build, columns_build]
    simp only [List.map_append, List.map_cons, List.map_nil, List.map_flatten, List.map_zipWith,
      Placement.told, List.map_map]
    rfl
  · rw [← length_placements, placements_eq_scan, hresolves.length_eq]
  · rw [log, List.countP_map, Event.comp_line (· == "DEBUG"), hcompile, placements_eq_scan,
      List.countP_append, List.countP_append, hresolves.count_emitted]
    simp [opening, Event.level]
  · obtain ⟨cell, kind, field, herror, hevent, hline⟩ := h.exists_of_compile_strict_error herror
    refine ⟨cell, kind, field, herror, hevent, _, hline, fun cell' kind' field' => ?_⟩
    constructor
    · intro heq
      exact Event.ignored_line_inj heq.symm
    · rintro ⟨rfl, rfl, rfl⟩
      rfl

end Grid

end GateGrid

import GateGrid.Compile
import GateGrid.Proofs.Circuit.Display
import GateGrid.Proofs.Node.Display

/-!
# Lines of a log

A line of a log starts with its *level*, and then it says what happened. The line of an operation
names the cell, shows the node, and gives the name and the wires of the operation; the line of a
warning names the field, the kind and the cell; the other lines give numbers. All of these can be
read off the line, since each part ends at a character that is not in it.

The line does not tell more than that. The text of a node hides the sign of an angle that is zero
and the bits of one that is no number, and the name of a rotation does not give its angle.

* `Event.levelOf_line`: the level of an event can be read off its line;
* `Event.Alike`: two events are about the same things;
* `Event.line_eq_iff`: events with the same line.
-/

namespace GateGrid.Event

open Text (Free)

/-! ### Levels -/

/-- The level of an event. -/
def level : Event → String
  | .span .. => "SPAN"
  | .started .. => "INFO"
  | .ignored .. => "WARN"
  | .emitted .. => "DEBUG"
  | .finished .. => "INFO"

/-- The level of a line of a log: its first word. -/
def levelOf (line : String) : String :=
  String.ofList (line.toList.takeWhile (· ≠ ' '))

/-- The level of an event can be read off its line. -/
theorem levelOf_line (event : Event) : levelOf event.line = event.level := by
  -- All that matters is the first part of each line, up to its first blank.
  cases event with
  | span wires columns =>
    change levelOf ("SPAN compile wires=" ++ _ ++ _ ++ _) = "SPAN"
    simp [levelOf]
  | started wires columns occupied =>
    change levelOf ("INFO Compiling " ++ _ ++ _ ++ _ ++ _ ++ _ ++ _) = "INFO"
    simp [levelOf]
  | ignored cell kind field =>
    change levelOf ("WARN Ignoring '" ++ _ ++ _ ++ _ ++ _ ++ _) = "WARN"
    simp [levelOf]
  | emitted placement operation =>
    change levelOf ("DEBUG " ++ _ ++ _ ++ _ ++ _ ++ _ ++ _ ++ _ ++ _ ++ _ ++ _) = "DEBUG"
    simp [levelOf]
  | finished operations =>
    change levelOf ("INFO Grid compiled to " ++ _ ++ _) = "INFO"
    simp [levelOf]

/-- A test of the levels of lines is a test of the levels of events. -/
theorem comp_line (test : String → Bool) :
    (fun line => test (levelOf line)) ∘ line = fun event => test event.level :=
  funext fun event => congrArg test event.levelOf_line

/-- The event is a warning. -/
def isWarning : Event → Bool
  | .ignored .. => true
  | _ => false

theorem level_beq_warn (event : Event) : (event.level == "WARN") = event.isWarning := by
  cases event <;> simp [level, isWarning]

/-! ### Numbers -/

/-- The line about the size of a grid. -/
theorem span_line_inj {wires wires' columns columns' : UInt32}
    (h : (span wires columns).line = (span wires' columns').line) :
    wires = wires' ∧ columns = columns' := by
  have htoList (wires columns : UInt32) : (span wires columns).line.toList =
      "SPAN compile wires=".toList ++ (Nat.toDigits 10 wires.toNat ++
        ' ' :: ("columns=".toList ++ Nat.toDigits 10 columns.toNat)) := by
    have hcolumns : " columns=".toList = ' ' :: "columns=".toList := rfl
    change ("SPAN compile wires=" ++ toString wires.toNat ++ " columns=" ++
      toString columns.toNat).toList = _
    simp only [String.toList_append, toList_toString, hcolumns, List.append_assoc,
      List.cons_append]
  rw [← String.toList_inj, htoList, htoList] at h
  obtain ⟨hwires, hrest⟩ := toDigits_append_cons_inj rfl (List.append_cancel_left h)
  exact ⟨UInt32.toNat_inj.1 hwires,
    UInt32.toNat_inj.1 (toDigits_inj (List.append_cancel_left hrest))⟩

theorem toList_line_started (wires columns : UInt32) (occupied : ℕ) :
    (started wires columns occupied).line.toList = "INFO ".toList ++ ('C' :: ("ompiling ".toList ++
      (Nat.toDigits 10 wires.toNat ++ 'x' :: (Nat.toDigits 10 columns.toNat ++
        ' ' :: ("grid with ".toList ++ (Nat.toDigits 10 occupied ++
          ' ' :: "occupied cells".toList)))))) := by
  have hopening : "INFO Compiling ".toList = "INFO ".toList ++ 'C' :: "ompiling ".toList := rfl
  have hx : "x".toList = ['x'] := rfl
  have hgrid : " grid with ".toList = ' ' :: "grid with ".toList := rfl
  have hcells : " occupied cells".toList = ' ' :: "occupied cells".toList := rfl
  change ("INFO Compiling " ++ toString wires.toNat ++ "x" ++ toString columns.toNat ++
    " grid with " ++ toString occupied ++ " occupied cells").toList = _
  simp only [String.toList_append, toList_toString, hopening, hx, hgrid, hcells,
    List.append_assoc, List.cons_append, List.nil_append]

theorem toList_line_finished (operations : ℕ) :
    (finished operations).line.toList = "INFO ".toList ++ ('G' :: ("rid compiled to ".toList ++
      (Nat.toDigits 10 operations ++ ' ' :: "operations".toList))) := by
  have hopening : "INFO Grid compiled to ".toList =
      "INFO ".toList ++ 'G' :: "rid compiled to ".toList := rfl
  have hoperations : " operations".toList = ' ' :: "operations".toList := rfl
  change ("INFO Grid compiled to " ++ toString operations ++ " operations").toList = _
  simp only [String.toList_append, toList_toString, hopening, hoperations, List.append_assoc,
    List.cons_append]

/-- The line about the start of a compilation. -/
theorem started_line_inj {wires wires' columns columns' : UInt32} {occupied occupied' : ℕ}
    (h : (started wires columns occupied).line = (started wires' columns' occupied').line) :
    wires = wires' ∧ columns = columns' ∧ occupied = occupied' := by
  rw [← String.toList_inj, toList_line_started, toList_line_started] at h
  have hbody := (List.cons.inj (List.append_cancel_left h)).2
  obtain ⟨hwires, hrest⟩ := toDigits_append_cons_inj rfl (List.append_cancel_left hbody)
  obtain ⟨hcolumns, hrest⟩ := toDigits_append_cons_inj rfl hrest
  obtain ⟨hoccupied, -⟩ := toDigits_append_cons_inj rfl (List.append_cancel_left hrest)
  exact ⟨UInt32.toNat_inj.1 hwires, UInt32.toNat_inj.1 hcolumns, hoccupied⟩

/-- The line about the end of a compilation. -/
theorem finished_line_inj {operations operations' : ℕ}
    (h : (finished operations).line = (finished operations').line) : operations = operations' := by
  rw [← String.toList_inj, toList_line_finished, toList_line_finished] at h
  have hbody := (List.cons.inj (List.append_cancel_left h)).2
  exact (toDigits_append_cons_inj rfl (List.append_cancel_left hbody)).1

/-- The lines about the start and the end have the same level, but not the same next word. -/
theorem started_line_ne_finished_line (wires columns : UInt32) (occupied operations : ℕ) :
    (started wires columns occupied).line ≠ (finished operations).line := by
  intro h
  rw [← String.toList_inj, toList_line_started, toList_line_finished] at h
  exact absurd (List.cons.inj (List.append_cancel_left h)).1 (by decide)

/-! ### Warnings -/

/-- A warning tells the field, the kind and the cell. -/
theorem ignored_line_inj {cell cell' : Cell} {kind kind' : Node.Kind} {field field' : Node.Field}
    (h : (ignored cell kind field).line = (ignored cell' kind' field').line) :
    cell = cell' ∧ kind = kind' ∧ field = field' := by
  have htoList (cell : Cell) (kind : Node.Kind) (field : Node.Field) :
      (ignored cell kind field).line.toList = "WARN Ignoring '".toList ++ (field.name.toList ++
        '\x27' :: (" on ".toList ++ (kind.mnemonic.toList ++
          ' ' :: ("node at ".toList ++ cell.label.toList)))) := by
    have hon : "' on ".toList = '\x27' :: " on ".toList := rfl
    have hnode : " node at ".toList = ' ' :: "node at ".toList := rfl
    change ("WARN Ignoring '" ++ field.name ++ "' on " ++ kind.mnemonic ++ " node at " ++
      cell.label).toList = _
    simp only [String.toList_append, hon, hnode, List.append_assoc, List.cons_append]
  have hname (field : Node.Field) : Free ['\x27'] field.name.toList := by
    cases field <;> decide
  rw [← String.toList_inj, htoList, htoList] at h
  obtain ⟨hfield, hrest⟩ := Text.append_cons_inj_of_free List.mem_cons_self (hname field)
    (hname field') (List.append_cancel_left h)
  obtain ⟨hkind, hcell⟩ := Text.append_cons_inj_of_free (by decide) kind.free_mnemonic
    kind'.free_mnemonic (List.append_cancel_left hrest)
  exact ⟨Cell.label_inj (String.toList_inj.1 (List.append_cancel_left hcell)),
    Node.Kind.mnemonic_inj (String.toList_inj.1 hkind),
    Node.Field.name_inj (String.toList_inj.1 hfield)⟩

/-! ### Operations -/

/-- The numbers of the wires of an operation. -/
def numbers (operation : Operation) : List (List Char) :=
  operation.wires.map fun wire => Nat.toDigits 10 wire.index.toNat

theorem toList_line_emitted (placement : Placement) (operation : Operation) :
    (emitted placement operation).line.toList = "DEBUG ".toList ++
      (placement.cell.column.label.toList ++ ' ' :: (placement.cell.wire.label.toList ++
        ':' :: ' ' :: (placement.node.display.toList ++ ' ' :: ("-> ".toList ++
          (operation.kind.name.toList ++ ' ' :: '[' ::
            ([',', ' '].intercalate (numbers operation) ++ [']'])))))) := by
  have hnumbers : (", ".intercalate (operation.wires.map fun wire =>
      toString wire.index.toNat)).toList = [',', ' '].intercalate (numbers operation) := by
    rw [String.toList_intercalate, List.map_map, numbers]
    exact congrArg _ (List.map_congr_left fun wire _ => toList_toString _)
  have hblank : " ".toList = [' '] := rfl
  have hcolon : ": ".toList = [':', ' '] := rfl
  have harrow : " -> ".toList = ' ' :: "-> ".toList := rfl
  have hopen : " [".toList = [' ', '['] := rfl
  have hclose : "]".toList = [']'] := rfl
  change ("DEBUG " ++ placement.cell.column.label ++ " " ++ placement.cell.wire.label ++ ": " ++
    placement.node.display ++ " -> " ++ operation.kind.name ++ " [" ++
    ", ".intercalate (operation.wires.map fun wire => toString wire.index.toNat) ++ "]").toList = _
  simp only [String.toList_append, hnumbers, hblank, hcolon, harrow, hopen, hclose,
    List.append_assoc, List.cons_append, List.nil_append]

/-- The numbers of the wires tell the wires. -/
theorem numbers_inj {operation operation' : Operation}
    (h : [',', ' '].intercalate (numbers operation) = [',', ' '].intercalate (numbers operation')) :
    operation.wires = operation'.wires := by
  have hfree (operation : Operation) : ∀ text ∈ numbers operation, text ≠ [] ∧ Free [','] text := by
    intro text htext
    obtain ⟨wire, -, rfl⟩ := List.mem_map.1 htext
    have hdigits := digits_toDigits wire.index.toNat
    exact ⟨hdigits.1, hdigits.free (List.forall_mem_singleton.2 rfl)⟩
  have hrow := Text.intercalate_inj (hfree operation) (hfree operation') h
  refine List.map_injective_iff.2 (fun wire other heq => ?_) hrow
  exact congrArg Wire.mk (UInt32.toNat_inj.1 (toDigits_inj heq))

/-- The line of an operation tells the cell, the node as far as its text does, and the operation but
    for its angle. -/
theorem emitted_line_eq_iff {placement placement' : Placement} {operation operation' : Operation} :
    (emitted placement operation).line = (emitted placement' operation').line ↔
      placement.cell = placement'.cell ∧ placement.node.Alike placement'.node ∧
        (∃ angle, operation'.kind = operation.kind.turn angle) ∧
          operation.wires = operation'.wires := by
  rw [← String.toList_inj, toList_line_emitted, toList_line_emitted, ← Operation.Kind.name_eq_iff]
  constructor
  · intro h
    obtain ⟨hcolumn, hrest⟩ := Text.append_cons_inj_of_free (by decide)
      placement.cell.column.free_label placement'.cell.column.free_label (List.append_cancel_left h)
    obtain ⟨hwire, hrest⟩ := Text.append_cons_inj_of_free (by decide)
      placement.cell.wire.free_label placement'.cell.wire.free_label hrest
    -- There are blanks in the text of a node, but the one that ends it is outside all parentheses.
    obtain ⟨hnode, hrest⟩ := Text.delimited_phrase (by decide) _ placement.node.isPhrase_display _
      placement'.node.isPhrase_display _ _ (Text.stops_cons List.mem_cons_self _)
      (Text.stops_cons List.mem_cons_self _) (List.cons.inj hrest).2
    obtain ⟨hname, hrest⟩ := Text.append_cons_inj_of_free (by decide) operation.kind.free_name
      operation'.kind.free_name (List.append_cancel_left (List.cons.inj hrest).2)
    have hnumbers := List.append_cancel_right (List.cons.inj hrest).2
    exact ⟨congrArg₂ Cell.mk (Wire.label_inj (String.toList_inj.1 hwire))
      (Column.label_inj (String.toList_inj.1 hcolumn)),
      Node.display_eq_iff.1 (String.toList_inj.1 hnode), String.toList_inj.1 hname,
      numbers_inj hnumbers⟩
  · rintro ⟨hcell, hnode, hname, hwires⟩
    rw [hcell, Node.display_eq_iff.2 hnode, hname, numbers, numbers, hwires]

/-! ### All lines -/

/-- Two events are about the same things, as far as lines tell them. -/
inductive Alike : Event → Event → Prop
  /-- A size is told in full. -/
  | span (wires columns : UInt32) : Alike (.span wires columns) (.span wires columns)
  /-- So are a size and the number of cells in use. -/
  | started (wires columns : UInt32) (occupied : ℕ) :
    Alike (.started wires columns occupied) (.started wires columns occupied)
  /-- So are a cell, a kind and a field. -/
  | ignored (cell : Cell) (kind : Node.Kind) (field : Node.Field) :
    Alike (.ignored cell kind field) (.ignored cell kind field)
  /-- Of a node the cell is told and what its text tells, and of an operation the wires and the
      kind, but for the angle of a rotation. -/
  | emitted {placement placement' : Placement} {operation operation' : Operation} :
    placement.cell = placement'.cell → placement.node.Alike placement'.node →
      (∃ angle, operation'.kind = operation.kind.turn angle) →
      operation.wires = operation'.wires →
      Alike (.emitted placement operation) (.emitted placement' operation')
  /-- The number of operations is told. -/
  | finished (operations : ℕ) : Alike (.finished operations) (.finished operations)

/-- Two events have the same line if and only if they are about the same things. -/
theorem line_eq_iff {a b : Event} : a.line = b.line ↔ a.Alike b := by
  constructor
  · intro h
    have hlevel : a.level = b.level := by rw [← levelOf_line, h, levelOf_line]
    -- What is left are events of one kind, and the two kinds of level `INFO`.
    cases a <;> cases b <;> simp only [level, String.reduceEq] at hlevel
    case span.span =>
      obtain ⟨rfl, rfl⟩ := span_line_inj h
      exact .span _ _
    case started.started =>
      obtain ⟨rfl, rfl, rfl⟩ := started_line_inj h
      exact .started _ _ _
    case started.finished => exact absurd h (started_line_ne_finished_line _ _ _ _)
    case ignored.ignored =>
      obtain ⟨rfl, rfl, rfl⟩ := ignored_line_inj h
      exact .ignored _ _ _
    case emitted.emitted =>
      obtain ⟨hcell, hnode, hkind, hwires⟩ := emitted_line_eq_iff.1 h
      exact .emitted hcell hnode hkind hwires
    case finished.started => exact absurd h.symm (started_line_ne_finished_line _ _ _ _)
    case finished.finished =>
      obtain rfl := finished_line_inj h
      exact .finished _
  · intro h
    cases h with
    | emitted hcell hnode hkind hwires =>
      exact emitted_line_eq_iff.2 ⟨hcell, hnode, hkind, hwires⟩
    | span | started | ignored | finished => rfl

/-- Two logs are the same if and only if their events are about the same things, one by one. -/
theorem map_line_eq_iff {events events' : List Event} :
    events.map line = events'.map line ↔ List.Forall₂ Alike events events' := by
  rw [← List.forall₂_eq_eq_eq, List.forall₂_map_left_iff, List.forall₂_map_right_iff]
  simp only [line_eq_iff]

end GateGrid.Event

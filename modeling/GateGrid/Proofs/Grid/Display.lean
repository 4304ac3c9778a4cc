import GateGrid.Proofs.Grid.Address
import GateGrid.Proofs.Node.Display
import Mathlib.Data.Option.Defs

/-!
# What the text of a grid tells

The text of a grid has a line for its size and a line for each wire. A line holds the texts of the
cells of the wire, with a blank in front of each. There are blanks inside the text of a node too,
but only in parentheses, so that it is always known which ones stand between two cells.

So the text tells the size of the grid, and for each cell whether it is empty and what its node is,
up to what the text of a node does not tell.

* `Grid.displaySlot_eq_iff`: contents of cells with the same text;
* `Grid.line_eq_iff`: wires with the same line;
* `Grid.display_eq_iff_cells`: grids with the same text.
-/

namespace GateGrid.Grid

open Text (Free IsPhrase)

variable {a b : Grid} {wire : Wire}

/-! ### Cells -/

/-- No node has the text of an empty cell. -/
theorem display_ne_point (node : Node) : node.display ≠ "." := by
  intro h
  rw [← String.toList_inj, Node.toList_display] at h
  cases hkind : node.kind <;> simp [hkind, Node.Kind.mnemonic] at h

/-- Cells have the same text if both are empty, or both hold nodes that have the same text. -/
theorem displaySlot_eq_iff {content content' : Option Node} :
    displaySlot content = displaySlot content' ↔ Option.Rel Node.Alike content content' := by
  rcases content with _ | node <;> rcases content' with _ | node' <;> simp only [displaySlot]
  · exact ⟨fun _ => .none, fun _ => trivial⟩
  · exact ⟨fun h => absurd h.symm (display_ne_point node'), nofun⟩
  · exact ⟨fun h => absurd h (display_ne_point node), nofun⟩
  · rw [Node.display_eq_iff]
    exact ⟨.some, fun | .some h => h⟩

/-- The text of a cell is a word, perhaps with something in parentheses behind it. -/
theorem isPhrase_displaySlot (content : Option Node) :
    IsPhrase [' '] (displaySlot content).toList := by
  rcases content with _ | node
  · exact ⟨['.'], none, by decide, nofun, rfl⟩
  · exact node.isPhrase_display

theorem free_displaySlot_line (content : Option Node) :
    Free ['\n'] (displaySlot content).toList := by
  rcases content with _ | node
  · rw [displaySlot]
    decide
  · exact node.free_display_line

/-! ### Wires -/

/-- The texts of the cells of a wire. -/
def cellTexts (grid : Grid) (wire : Wire) : List (List Char) :=
  (grid.row wire).map fun content => (displaySlot content).toList

/-- The line of a wire. -/
def line (grid : Grid) (wire : Wire) : List Char :=
  wire.label.toList ++ ':' :: (grid.cellTexts wire).flatMap (' ' :: ·)

/-- The line of a wire is a single line. -/
theorem free_line (grid : Grid) (wire : Wire) : Free ['\n'] (grid.line wire) := by
  refine (wire.free_label.mono (by decide)).append (Free.append (s := [':']) (by decide) ?_)
  intro c hc
  obtain ⟨text, htext, hc⟩ := List.mem_flatMap.1 hc
  obtain ⟨content, -, rfl⟩ := List.mem_map.1 htext
  exact Free.append (s := [' ']) (by decide) (free_displaySlot_line content) c hc

/-- In grids of one size, wires have the same line if their cells have, one by one, contents with
    the same text. -/
theorem line_eq_iff (hwires : a.wires = b.wires) (hcolumns : a.columns = b.columns)
    (hwire : wire.index < a.wires) :
    a.line wire = b.line wire ↔ ∀ column : Column, column.index < a.columns →
      Option.Rel Node.Alike (a.node? ⟨wire, column⟩) (b.node? ⟨wire, column⟩) := by
  have hphrase (grid : Grid) : ∀ text ∈ grid.cellTexts wire, IsPhrase [' '] text := by
    intro text htext
    obtain ⟨content, -, rfl⟩ := List.mem_map.1 htext
    exact isPhrase_displaySlot content
  have hline : a.line wire = b.line wire ↔ a.cellTexts wire = b.cellTexts wire := by
    constructor
    · intro h
      have hcells := (List.cons.inj (List.append_cancel_left h)).2
      exact (Text.delimited_phrase (by decide)).flatMap_inj (hphrase a) (hphrase b) hcells
    · intro h
      rw [line, line, h]
  rw [hline, cellTexts, cellTexts, row_eq_map hwire, row_eq_map (hwires ▸ hwire), ← hcolumns,
    List.map_map, List.map_map, List.map_inj_left]
  simp only [Column.mem_range, Function.comp_apply, String.toList_inj, displaySlot_eq_iff]

/-! ### Grids -/

theorem toList_display (grid : Grid) :
    grid.display.toList = "GridStore ".toList ++ (Nat.toDigits 10 grid.wires.toNat ++
      'x' :: (Nat.toDigits 10 grid.columns.toNat ++
        ':' :: ((Wire.range grid.wires).map grid.line).flatMap ('\n' :: ·))) := by
  have hline (wire : Wire) : ("\n" ++ wire.label ++ ":" ++ String.join ((grid.row wire).map
      fun content => " " ++ displaySlot content)).toList = '\n' :: grid.line wire := by
    simp [line, cellTexts, List.flatMap_map]
  have hlines : (String.join ((Wire.range grid.wires).map fun wire => "\n" ++ wire.label ++ ":" ++
      String.join ((grid.row wire).map fun content => " " ++ displaySlot content))).toList =
      ((Wire.range grid.wires).map grid.line).flatMap ('\n' :: ·) := by
    rw [String.toList_join, List.flatMap_map, List.flatMap_map]
    exact List.flatMap_congr fun wire _ => hline wire
  have hx : "x".toList = ['x'] := rfl
  have hcolon : ":".toList = [':'] := rfl
  unfold display
  rw [String.toList_append, hlines]
  simp only [String.toList_append, toList_toString, hx, hcolon, List.append_assoc,
    List.cons_append, List.nil_append]

/-- Grids have the same text if and only if they have the same size and the same lines. -/
theorem display_eq_iff_lines : a.display = b.display ↔
    a.wires = b.wires ∧ a.columns = b.columns ∧
      (Wire.range a.wires).map a.line = (Wire.range b.wires).map b.line := by
  rw [← String.toList_inj, toList_display, toList_display]
  constructor
  · intro h
    have hfree (grid : Grid) : ∀ text ∈ (Wire.range grid.wires).map grid.line,
        Free ['\n'] text := by
      intro text htext
      obtain ⟨wire, -, rfl⟩ := List.mem_map.1 htext
      exact grid.free_line wire
    obtain ⟨hwires, hrest⟩ := toDigits_append_cons_inj rfl (List.append_cancel_left h)
    obtain ⟨hcolumns, hlines⟩ := toDigits_append_cons_inj rfl hrest
    exact ⟨UInt32.toNat_inj.1 hwires, UInt32.toNat_inj.1 hcolumns,
      (Text.delimited_free ['\n']).flatMap_inj (hfree a) (hfree b) hlines⟩
  · rintro ⟨hwires, hcolumns, hlines⟩
    rw [hlines, hwires, hcolumns]

/-- Grids have the same text if and only if they have the same size and each cell is empty in both,
    or holds nodes in both that are the same up to the sign of an angle that is zero and the bits
    of one that is no number. -/
theorem display_eq_iff_cells (a b : Grid) :
    a.display = b.display ↔ a.wires = b.wires ∧ a.columns = b.columns ∧
      ∀ cell : Cell, cell.wire.index < a.wires → cell.column.index < a.columns →
        ∃ content content', a.get cell = .ok content ∧ b.get cell = .ok content' ∧
          Option.Rel Node.Alike content content' := by
  rw [display_eq_iff_lines]
  refine and_congr_right fun hwires => and_congr_right fun hcolumns => ?_
  rw [← hwires, List.map_inj_left]
  constructor
  · intro h cell hwire hcolumn
    have hline := h cell.wire (Wire.mem_range.2 hwire)
    have hcell : a.Contains cell := ⟨hwire, hcolumn⟩
    have hcell' : b.Contains cell := ⟨hwires ▸ hwire, hcolumns ▸ hcolumn⟩
    exact ⟨_, _, get_eq_ok_iff.2 ⟨hcell, rfl⟩, get_eq_ok_iff.2 ⟨hcell', rfl⟩,
      (line_eq_iff hwires hcolumns hwire).1 hline cell.column hcolumn⟩
  · intro h wire hwire
    rw [Wire.mem_range] at hwire
    refine (line_eq_iff hwires hcolumns hwire).2 fun column hcolumn => ?_
    obtain ⟨content, content', hget, hget', halike⟩ := h ⟨wire, column⟩ hwire hcolumn
    rwa [(get_eq_ok_iff.1 hget).2, (get_eq_ok_iff.1 hget').2]

end GateGrid.Grid

import GateGrid.Circuit
import GateGrid.Proofs.Number.Display
import Mathlib.Data.List.Forall2

/-!
# What the text of a circuit tells

The text of a circuit has a line for the numbers of its wires and of its operations, and a line for
each operation. Nothing in the line of an operation is the end of a line, so the lines can be taken
apart. In a line the name ends at a parenthesis or a blank, the angle ends at the closing
parenthesis, and the names of the wires have commas between them. So each part can be found again,
however many wires there are.

Nothing is lost but one thing: a rotation by what is no number does not tell its bits.

* `Operation.Kind.name_eq_iff`: kinds with the same name;
* `Operation.Kind.Alike`, `Operation.Alike`: the same up to the bits of what is no number;
* `Operation.display_eq_iff`: operations with the same text;
* `Circuit.display_eq_iff_operations`: circuits with the same text.
-/

namespace GateGrid

open Text (Free reserved enclosed)

namespace Operation

/-! ### Kinds -/

namespace Kind

/-- A rotation of the same kind by another angle. -/
def turn : Kind → Binary64 → Kind
  | .rx _, angle => .rx angle
  | .ry _, angle => .ry angle
  | .rz _, angle => .rz angle
  | .crz _, angle => .crz angle
  | kind, _ => kind

theorem name_turn (kind : Kind) (angle : Binary64) : (kind.turn angle).name = kind.name := by
  cases kind <;> rfl

theorem angle?_turn (kind : Kind) (angle : Binary64) :
    (kind.turn angle).angle? = kind.angle?.map fun _ => angle := by
  cases kind <;> rfl

/-- Two kinds are the same, or they are rotations of one kind by what is no number. -/
def Alike (a b : Kind) : Prop :=
  a = b ∨ ∃ x y, a.angle? = some x ∧ x.isNaN ∧ y.isNaN ∧ b = a.turn y

theorem free_name (kind : Kind) : Free reserved kind.name.toList := by
  cases kind <;> rw [name] <;> decide

/-- A name tells the kind, but for the angle of a rotation. -/
theorem name_eq_iff {a b : Kind} : a.name = b.name ↔ ∃ angle, b = a.turn angle := by
  constructor
  · intro h
    refine ⟨b.angle?.getD .zero, ?_⟩
    cases a <;> cases b <;> simp_all [name, angle?, turn]
  · rintro ⟨angle, rfl⟩
    rw [name_turn]

/-- A kind is known by its name and its angle. -/
theorem eq_of_name_eq {a b : Kind} (hname : a.name = b.name) (hangle : a.angle? = b.angle?) :
    a = b := by
  obtain ⟨angle, rfl⟩ := name_eq_iff.1 hname
  cases a <;> simp_all [angle?, turn]

/-- A kind is known by its name and the text of its angle, up to the bits of what is no number. -/
theorem name_angle?_eq_iff {a b : Kind} :
    a.name = b.name ∧ a.angle?.map Binary64.display = b.angle?.map Binary64.display ↔
      a.Alike b := by
  constructor
  · rintro ⟨hname, hangle⟩
    cases ha : a.angle? with
    | none =>
      rw [ha, Option.map_none, eq_comm, Option.map_eq_none_iff] at hangle
      exact .inl (eq_of_name_eq hname (ha.trans hangle.symm))
    | some x =>
      rw [ha, Option.map_some, eq_comm, Option.map_eq_some_iff] at hangle
      obtain ⟨y, hb, hdisplay⟩ := hangle
      rcases Binary64.display_eq_iff.1 hdisplay with rfl | ⟨hy, hx⟩
      · exact .inl (eq_of_name_eq hname (ha.trans hb.symm))
      · refine .inr ⟨x, y, ha, hx, hy, eq_of_name_eq ?_ ?_⟩
        · rw [name_turn, hname]
        · rw [angle?_turn, ha, hb, Option.map_some]
  · rintro (rfl | ⟨x, y, ha, hx, hy, rfl⟩)
    · exact ⟨rfl, rfl⟩
    · have hdisplay : x.display = y.display := Binary64.display_eq_iff.2 (.inr ⟨hx, hy⟩)
      rw [name_turn, angle?_turn, ha, Option.map_some, Option.map_some, Option.map_some, hdisplay]
      exact ⟨rfl, rfl⟩

end Kind

/-! ### Operations -/

/-- Two operations are the same up to the bits of what is no number. -/
structure Alike (a b : Operation) : Prop where
  /-- They have the same kind, and angles that are the same or both no numbers. -/
  kind : a.kind.Alike b.kind
  /-- They act on the same wires, in the same order. -/
  wires : a.wires = b.wires

/-- The text in the parentheses of an operation. -/
def inner? (operation : Operation) : Option (List Char) :=
  operation.kind.angle?.map (·.display.toList)

/-- The names of the wires of an operation. -/
def labels (operation : Operation) : List (List Char) := operation.wires.map (·.label.toList)

theorem toList_display (operation : Operation) :
    operation.display.toList = operation.kind.name.toList ++
      (enclosed operation.inner? ++ ' ' :: [',', ' '].intercalate operation.labels) := by
  have hcomma : ", ".toList = [',', ' '] := rfl
  rw [display, inner?, labels]
  cases operation.kind.angle? with
  | none => simp [enclosed, hcomma, Function.comp_def]
  | some angle => simp [enclosed, hcomma, Function.comp_def]

theorem free_inner? {operation : Operation} :
    ∀ text ∈ operation.inner?, Free reserved text := by
  intro text htext
  obtain ⟨angle, -, rfl⟩ := Option.map_eq_some_iff.1 htext
  exact angle.free_display

theorem labels_ne_nil_free {operation : Operation} :
    ∀ text ∈ operation.labels, text ≠ [] ∧ Free reserved text := by
  intro text htext
  obtain ⟨wire, -, rfl⟩ := List.mem_map.1 htext
  refine ⟨?_, wire.free_label⟩
  rw [Wire.toList_label]
  exact List.cons_ne_nil _ _

/-- The text of an operation is a single line. -/
theorem free_display_line (operation : Operation) : Free ['\n'] operation.display.toList := by
  have hsub : ['\n'] ⊆ reserved := by decide
  rw [toList_display]
  refine (operation.kind.free_name.mono hsub).append
    (Free.append ?_ (Free.append (s := [' ']) ?_ ?_))
  · exact .enclosed (by decide) fun text htext => (free_inner? text htext).mono hsub
  · decide
  · exact .intercalate (by decide) fun text htext => (labels_ne_nil_free text htext).2.mono hsub

/-- Operations have the same text if they are the same up to the bits of what is no number. -/
theorem display_eq_iff {a b : Operation} : a.display = b.display ↔ a.Alike b := by
  constructor
  · intro h
    have hname (operation : Operation) : Free ['(', ' '] operation.kind.name.toList :=
      operation.kind.free_name.mono (by decide)
    have hinner (operation : Operation) : ∀ text ∈ operation.inner?, ')' ∉ text :=
      fun text htext hmem => free_inner? text htext ')' hmem (by decide)
    have hlabels (operation : Operation) : ∀ text ∈ operation.labels, text ≠ [] ∧ Free [','] text :=
      fun text htext => ⟨(labels_ne_nil_free text htext).1,
        (labels_ne_nil_free text htext).2.mono (by decide)⟩
    rw [← String.toList_inj, toList_display, toList_display] at h
    obtain ⟨hkind, hangle, hwires⟩ := Text.append_enclosed_append_inj (hname a) (hname b)
      (hinner a) (hinner b) (by decide) (Text.stops_cons List.mem_cons_self _)
      (Text.stops_cons List.mem_cons_self _) h
    have hrow := Text.intercalate_inj (hlabels a) (hlabels b) (List.cons.inj hwires).2
    refine ⟨Kind.name_angle?_eq_iff.1 ⟨String.toList_inj.1 hkind, ?_⟩, ?_⟩
    · have hinj := Option.map_injective fun _ _ => String.toList_inj.1
      refine hinj ?_
      rw [Option.map_map, Option.map_map]
      exact hangle
    · exact List.map_injective_iff.2 (fun _ _ heq => Wire.label_inj (String.toList_inj.1 heq)) hrow
  · rintro ⟨hkind, hwires⟩
    obtain ⟨hname, hangle⟩ := Kind.name_angle?_eq_iff.2 hkind
    have hinner : a.inner? = b.inner? := by
      have h := congrArg (Option.map String.toList) hangle
      rwa [Option.map_map, Option.map_map] at h
    rw [← String.toList_inj, toList_display, toList_display, hname, hinner, labels, labels, hwires]

end Operation

/-! ### Circuits -/

namespace Circuit

/-- The lines of the operations of a circuit. -/
def lines (circuit : Circuit) : List (List Char) := circuit.operations.map (·.display.toList)

theorem toList_display (circuit : Circuit) :
    circuit.display.toList = Nat.toDigits 10 circuit.wires.toNat ++
      ' ' :: ("wires, ".toList ++ (Nat.toDigits 10 circuit.operations.length ++
        ' ' :: ("ops".toList ++ circuit.lines.flatMap ('\n' :: ·)))) := by
  have hlines : (String.join (circuit.operations.map fun operation =>
      "\n" ++ operation.display)).toList = circuit.lines.flatMap ('\n' :: ·) := by
    rw [String.toList_join, lines, List.flatMap_map, List.flatMap_map]
    refine List.flatMap_congr fun operation _ => ?_
    rw [String.toList_append]
    rfl
  have hwires : " wires, ".toList = ' ' :: "wires, ".toList := rfl
  have hops : " ops".toList = ' ' :: "ops".toList := rfl
  rw [display, String.toList_append, hlines]
  simp only [String.toList_append, toList_toString, hwires, hops, List.append_assoc,
    List.cons_append]

theorem free_lines {circuit : Circuit} : ∀ line ∈ circuit.lines, Free ['\n'] line := by
  intro line hline
  obtain ⟨operation, -, rfl⟩ := List.mem_map.1 hline
  exact operation.free_display_line

/-- Circuits have the same text if and only if they have the same number of wires and, one by one,
    operations that are the same up to the bits of what is no number. -/
theorem display_eq_iff_operations (a b : Circuit) :
    a.display = b.display ↔
      a.wires = b.wires ∧ List.Forall₂ Operation.Alike a.operations b.operations := by
  have hlines : a.lines = b.lines ↔ List.Forall₂ Operation.Alike a.operations b.operations := by
    rw [lines, lines, ← List.forall₂_eq_eq_eq, List.forall₂_map_left_iff,
      List.forall₂_map_right_iff]
    simp only [String.toList_inj, Operation.display_eq_iff]
  rw [← hlines, ← String.toList_inj, toList_display, toList_display]
  constructor
  · intro h
    -- The number of operations is not needed: the ends of the lines tell it as well.
    obtain ⟨hwires, hrest⟩ := toDigits_append_cons_inj rfl h
    obtain ⟨-, hrest⟩ := toDigits_append_cons_inj rfl (List.append_cancel_left hrest)
    exact ⟨UInt32.toNat_inj.1 hwires, (Text.delimited_free ['\n']).flatMap_inj free_lines free_lines
      (List.append_cancel_left hrest)⟩
  · rintro ⟨hwires, heq⟩
    have hlength : a.operations.length = b.operations.length := by
      have h := congrArg List.length heq
      rwa [lines, lines, List.length_map, List.length_map] at h
    rw [hwires, heq, hlength]

end Circuit

end GateGrid

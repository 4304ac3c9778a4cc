import GateGrid.Proofs.Circuit
import GateGrid.Proofs.Json.Truncated

/-!
# Circuits that were cut off

A circuit whose text was cut off on the way is never taken for another one, and the one who reads it
is told what happened: the text ended too early, wherever that was. In a key or in the name of a
kind, the closing quotation mark is missing. In the number of wires, in the number of a wire or in
an angle, what is left may be a number, but not the one that was written; what is missing there is
the comma or the bracket behind it.

* `Operation.needs`: an operation that was cut off;
* `Circuit.ofJson_truncated`: a circuit that was cut off.
-/

namespace GateGrid

open Json (BreaksOff Layout)
open Json.Reader (Blank Needs)

variable {layout : Layout} {blanks : List Char}

/-- The number of a wire may be a number when it was cut off. -/
theorem Wire.breaksOff (layout : Layout) (wire : Wire) : BreaksOff layout Wire.read wire.json :=
  (Json.Reader.breaksOff_natural32 layout wire.index).map Wire.mk

namespace Operation

theorem Kind.needs (hlayout : layout.Loose) {kind : Kind} (h : kind.isFinite) (depth : ℕ)
    (hblanks : Blank blanks) : Needs Kind.read (blanks ++ kind.json.write layout depth) := by
  have hname := kind.plain_jsonName
  cases kind with
  | rx angle => exact Json.Reader.needs_angled hlayout hname rfl h depth hblanks
  | ry angle => exact Json.Reader.needs_angled hlayout hname rfl h depth hblanks
  | rz angle => exact Json.Reader.needs_angled hlayout hname rfl h depth hblanks
  | crz angle => exact Json.Reader.needs_angled hlayout hname rfl h depth hblanks
  | _ => exact Json.Reader.needs_word hname depth hblanks

theorem Kind.breaksOff (hlayout : layout.Loose) {kind : Kind} (h : kind.isFinite) :
    BreaksOff layout Kind.read kind.json :=
  (kind.conveys hlayout).breaksOff h fun depth _ hblanks => Kind.needs hlayout h depth hblanks

/-- Wherever the text of an operation was cut off, it ended too early, if the angle is finite. -/
theorem needs (hlayout : layout.Loose) {operation : Operation} (h : operation.kind.isFinite)
    (depth : ℕ) (hblanks : Blank blanks) :
    Needs Operation.read (blanks ++ operation.json.write layout depth) := by
  refine Json.Reader.needs_record hlayout (operation.fills hlayout) h ?_ depth hblanks
  simp only [List.forall_mem_cons]
  refine ⟨?_, ?_, nofun⟩
  · rintro _ ⟨⟩ draft
    exact (Kind.breaksOff hlayout h).map _
  · rintro _ ⟨⟩ draft
    have hwires := Json.Reader.breaksOff_listOf hlayout
      (fun wire (_ : wire ∈ operation.wires) => wire.conveys layout)
      (fun wire _ => wire.breaksOff layout)
    exact hwires.map _

theorem breaksOff (hlayout : layout.Loose) {operation : Operation} (h : operation.kind.isFinite) :
    BreaksOff layout Operation.read operation.json :=
  (operation.conveys hlayout).breaksOff h fun depth _ hblanks => needs hlayout h depth hblanks

end Operation

namespace Circuit

/-- Wherever the text of a circuit was cut off, it ended too early, if all angles are finite. -/
theorem needs (hlayout : layout.Loose) {circuit : Circuit} (h : circuit.isFinite) (depth : ℕ)
    (hblanks : Blank blanks) : Needs Circuit.read (blanks ++ circuit.json.write layout depth) := by
  have hfinite : ∀ operation ∈ circuit.operations, operation.kind.isFinite := List.all_eq_true.1 h
  refine Json.Reader.needs_record hlayout (circuit.fills hlayout) h ?_ depth hblanks
  simp only [List.forall_mem_cons]
  refine ⟨?_, ?_, nofun⟩
  · rintro _ ⟨⟩ draft
    exact (Json.Reader.breaksOff_natural32 layout circuit.wires).map _
  · rintro _ ⟨⟩ draft
    have hoperations := Json.Reader.breaksOff_listOf hlayout
      (fun operation hmem => hfinite operation hmem ▸ operation.conveys hlayout)
      (fun operation hmem => Operation.breaksOff hlayout (hfinite operation hmem))
    exact hoperations.map _

/-- The text of a circuit with finite angles is cut in two, and only the first part arrives, be it
    empty or all but the last character. It is not read as a circuit, and the one who reads it is
    told that the text ended too early. -/
theorem ofJson_truncated (circuit : Circuit)
    (h : ∀ operation ∈ circuit.operations, ∀ angle ∈ operation.kind.angle?, angle.isFinite)
    (part rest : String) (hcut : circuit.toJson = part ++ rest) (hrest : rest ≠ "") :
    ofJson part = .error .truncated := by
  have htext : circuit.json.write .indented 0 = part.toList ++ rest.toList := by
    rw [← String.toList_append, ← hcut, toJson, Json.indented, String.toList_ofList]
  have hne : part.toList ≠ circuit.json.write .indented 0 := by
    intro heq
    have hnil : rest.toList = [] := List.self_eq_append_right.1 (heq.trans htext)
    exact hrest (String.toList_inj.1 hnil)
  have hread := needs Layout.loose_indented ((isFinite_iff circuit).2 h) 0 Json.Reader.blank_nil
    part.toList ⟨rest.toList, htext.symm⟩ hne
  rw [ofJson, Json.Reader.readAll, hread]

/-- Of the angle `1.5` only the first digit arrives. It is a number, but the circuit is not taken
    for one with the angle `1`. -/
theorem ofJson_truncated_angle :
    ofJson ("\x7b\n  \"num_wires\": 2,\n  \"operations\": [\n    \x7b\n      \"kind\": \x7b\n" ++
      "        \"Rx\": 1") = .error .truncated :=
  ofJson_truncated ⟨2, [⟨.rx (.ofBits 0x3ff8000000000000), [⟨0⟩]⟩]⟩ (by decide) _
    ".5\n      \x7d,\n      \"wires\": [\n        0\n      ]\n    \x7d\n  ]\n\x7d"
    (by decide +kernel) (by decide)

end Circuit

end GateGrid

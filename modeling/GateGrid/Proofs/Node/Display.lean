import GateGrid.Node.Basic
import GateGrid.Proofs.Node.Kind
import GateGrid.Proofs.Number.Display

/-!
# What the text of a node tells

The text of a node is its mnemonic, and in parentheses the fields that are set, each with a *tag*
that names it. The mnemonic ends at the parenthesis, and the fields have commas between them. A
field that is not set is left out; no other field starts with its tag, so that it is missed.

Two things are not told: the sign of an angle that is zero, since it does not count as set, and the
bits of one that is no number.

* `Node.Alike`: the same up to these two things;
* `Node.flatMap_tagged_inj`: fields that may be left out are known by their tags;
* `Node.isPhrase_display`: the text of a node shows where it ends;
* `Node.display_eq_iff`: nodes with the same text.
-/

namespace GateGrid.Node

open Text (Free IsPhrase reserved enclosed)

/-- Two nodes are the same up to the sign of an angle that is zero and the bits of one that is no
    number. -/
structure Alike (a b : Node) : Prop where
  /-- They have the same kind. -/
  kind : a.kind = b.kind
  /-- Their angles are the same, or both zero, or both no numbers. -/
  angle : a.angle = b.angle ∨ (a.angle.isZero ∧ b.angle.isZero) ∨ (a.angle.isNaN ∧ b.angle.isNaN)
  /-- They have the same first control, if any. -/
  controlA : a.controlA = b.controlA
  /-- They have the same second control, if any. -/
  controlB : a.controlB = b.controlB
  /-- They have the same partner, if any. -/
  swapPartner : a.swapPartner = b.swapPartner

/-! ### Names -/

theorem Kind.mnemonic_inj {kind other : Kind} (h : kind.mnemonic = other.mnemonic) :
    kind = other :=
  eq_of_mem_spellings (mnemonic_mem_spellings other) (h ▸ mnemonic_mem_spellings kind)

theorem Kind.free_mnemonic (kind : Kind) : Free reserved kind.mnemonic.toList := by
  cases kind <;> decide

/-- Different fields have different names. -/
theorem Field.name_inj {field other : Field} (h : field.name = other.name) : field = other := by
  cases field <;> cases other <;> simp [name] at h ⊢

/-! ### Fields and their tags -/

/-- A value behind its tag, or nothing. -/
def tagged (tag : String) (value : Option String) : List String := (value.map (tag ++ ·)).toList

theorem mem_tagged {tag text : String} {value : Option String} :
    text ∈ tagged tag value ↔ ∃ found ∈ value, tag ++ found = text := by
  rw [tagged, Option.mem_toList]
  exact Option.map_eq_some_iff

/-- A value that may be left out is known by its tag, if nothing behind it starts with the tag. -/
theorem tagged_append_inj {tag : String} {value value' : Option String} {rest rest' : List String}
    (hrest : ∀ text ∈ rest, ¬tag.toList <+: text.toList)
    (hrest' : ∀ text ∈ rest', ¬tag.toList <+: text.toList)
    (h : tagged tag value ++ rest = tagged tag value' ++ rest') :
    value = value' ∧ rest = rest' := by
  have hfront (found : String) : tag.toList <+: (tag ++ found).toList := by
    rw [String.toList_append]
    exact List.prefix_append _ _
  rcases value with _ | found <;> rcases value' with _ | found'
  · exact ⟨rfl, h⟩
  · have hmem : tag ++ found' ∈ rest := by
      rw [show rest = (tag ++ found') :: rest' from h]
      exact List.mem_cons_self
    exact absurd (hfront found') (hrest _ hmem)
  · have hmem : tag ++ found ∈ rest' := by
      rw [show rest' = (tag ++ found) :: rest from h.symm]
      exact List.mem_cons_self
    exact absurd (hfront found) (hrest' _ hmem)
  · obtain ⟨hfound, hrest⟩ := List.cons.inj h
    rw [← String.toList_inj, String.toList_append, String.toList_append] at hfound
    exact ⟨congrArg some (String.toList_inj.1 (List.append_cancel_left hfound)), hrest⟩

/-- Values behind their tags, some of which may be left out, are known by their texts, if no tag is
    the start of what stands behind a later one. -/
theorem flatMap_tagged_inj {parts parts' : List (String × Option String)}
    (htags : parts.map Prod.fst = parts'.map Prod.fst)
    (hapart : (parts.map Prod.fst).Pairwise fun tag later =>
      ∀ found, ¬tag.toList <+: (later ++ found).toList)
    (h : (parts.flatMap fun part => tagged part.1 part.2) =
      parts'.flatMap fun part => tagged part.1 part.2) : parts = parts' := by
  induction parts generalizing parts' with
  | nil => rw [List.map_eq_nil_iff.1 htags.symm]
  | cons part parts ih =>
    cases parts' with
    | nil => exact absurd htags nofun
    | cons part' parts' =>
      obtain ⟨htag, hlater⟩ := List.cons.inj htags
      obtain ⟨hhead, htail⟩ := List.pairwise_cons.1 hapart
      -- Whether the first field is there can be seen, since nothing behind it starts with its tag.
      have hrest {parts : List (String × Option String)}
          (hparts : ∀ later ∈ parts.map Prod.fst,
            ∀ found, ¬part.1.toList <+: (later ++ found).toList) :
          ∀ text ∈ parts.flatMap fun part => tagged part.1 part.2,
            ¬part.1.toList <+: text.toList := by
        intro text htext
        obtain ⟨other, hother, htext⟩ := List.mem_flatMap.1 htext
        obtain ⟨found, -, rfl⟩ := mem_tagged.1 htext
        exact hparts _ (List.mem_map_of_mem hother) found
      rw [List.flatMap_cons, List.flatMap_cons, ← htag] at h
      obtain ⟨hvalue, hparts⟩ := tagged_append_inj (hrest hhead) (hrest (hlater ▸ hhead)) h
      rw [Prod.ext htag hvalue, ih hlater htail hparts]

variable {a b node : Node}

/-- The text of the angle, if it is set. -/
def angleText? (node : Node) : Option String :=
  if node.isRotated then some node.angle.display else none

/-- The tags of the fields, each with the text of the field if it is set. -/
def parts (node : Node) : List (String × Option String) :=
  [("angle=", node.angleText?), ("ctrl_a=", node.controlA.map Wire.label),
   ("ctrl_b=", node.controlB.map Wire.label), ("swap=", node.swapPartner.map Wire.label)]

theorem details_eq (node : Node) :
    node.details = node.parts.flatMap fun part => tagged part.1 part.2 := by
  have hangle : (if node.isRotated then ["angle=" ++ node.angle.display] else []) =
      tagged "angle=" node.angleText? := by
    rw [angleText?]
    split_ifs <;> rfl
  have hlane (tag : String) (lane : Option Wire) :
      lane.toList.map (fun wire => tag ++ wire.label) = tagged tag (lane.map Wire.label) := by
    cases lane <;> rfl
  simp only [details, hangle, hlane, parts, List.flatMap_cons, List.flatMap_nil, List.append_nil,
    List.append_assoc]

/-- The text of the angle tells the angle, up to the sign of zero and the bits of what is no
    number. -/
theorem angleText?_eq_iff : a.angleText? = b.angleText? ↔
    a.angle = b.angle ∨ (a.angle.isZero ∧ b.angle.isZero) ∨ (a.angle.isNaN ∧ b.angle.isNaN) := by
  have hzero (node : Node) : node.isRotated = false ↔ node.angle.isZero := by
    rw [isRotated, Bool.not_eq_false']
  constructor
  · intro h
    rw [angleText?, angleText?] at h
    cases ha : a.isRotated <;> cases hb : b.isRotated
    · exact .inr (.inl ⟨(hzero a).1 ha, (hzero b).1 hb⟩)
    · simp [ha, hb] at h
    · simp [ha, hb] at h
    · rw [ha, hb, if_pos rfl, if_pos rfl, Option.some_inj, Binary64.display_eq_iff] at h
      exact h.imp_right .inr
  · have hnone (node : Node) (h : node.angle.isZero) : node.angleText? = none :=
      if_neg (by rw [(hzero node).2 h]; decide)
    have hrotated (node : Node) (h : node.angle.isNaN) : node.angleText? = some "NaN" := by
      have hnonzero : node.isRotated := by
        rw [Binary64.isNaN, decide_eq_true_eq] at h
        rw [isRotated, Binary64.isZero, Bool.not_eq_true', beq_eq_false_iff_ne]
        omega
      rw [angleText?, if_pos hnonzero, Binary64.display_of_isNaN h]
    rintro (h | ⟨ha, hb⟩ | ⟨ha, hb⟩)
    · rw [angleText?, angleText?, isRotated, isRotated, h]
    · rw [hnone a ha, hnone b hb]
    · rw [hrotated a ha, hrotated b hb]

/-- The fields are known by the list of their texts. -/
theorem details_eq_iff : a.details = b.details ↔ a.angleText? = b.angleText? ∧
    a.controlA = b.controlA ∧ a.controlB = b.controlB ∧ a.swapPartner = b.swapPartner := by
  constructor
  · intro h
    have hlabel {lane lane' : Option Wire} (h : lane.map Wire.label = lane'.map Wire.label) :
        lane = lane' := Option.map_injective (fun _ _ => Wire.label_inj) h
    have hapart : (a.parts.map Prod.fst).Pairwise fun tag later =>
        ∀ found, ¬tag.toList <+: (later ++ found).toList := by
      simp [parts]
    rw [details_eq, details_eq] at h
    have hparts : a.parts = b.parts := flatMap_tagged_inj rfl hapart h
    simp only [parts, List.cons.injEq, Prod.mk.injEq, true_and, and_true] at hparts
    obtain ⟨hangle, hcontrolA, hcontrolB, hpartner⟩ := hparts
    exact ⟨hangle, hlabel hcontrolA, hlabel hcontrolB, hlabel hpartner⟩
  · rintro ⟨hangle, hcontrolA, hcontrolB, hpartner⟩
    rw [details_eq, details_eq, parts, parts, hangle, hcontrolA, hcontrolB, hpartner]

/-! ### The text of a node -/

/-- The text in the parentheses of a node. -/
def inner? (node : Node) : Option (List Char) :=
  if node.details = [] then none else some ([',', ' '].intercalate (node.details.map String.toList))

theorem toList_display (node : Node) :
    node.display.toList = node.kind.mnemonic.toList ++ enclosed node.inner? := by
  have hcomma : ", ".toList = [',', ' '] := rfl
  rw [display, inner?]
  cases node.details with
  | nil => simp [enclosed]
  | cons text details => simp [enclosed, hcomma]

theorem details_ne_nil_free :
    ∀ text ∈ node.details.map String.toList, text ≠ [] ∧ Free reserved text := by
  have htagged {tag : String} {value : Option String} (htag : tag.toList ≠ [])
      (hfree : Free reserved tag.toList) (hvalue : ∀ found ∈ value, Free reserved found.toList) :
      ∀ text ∈ tagged tag value, text.toList ≠ [] ∧ Free reserved text.toList := by
    intro text htext
    obtain ⟨found, hfound, rfl⟩ := mem_tagged.1 htext
    rw [String.toList_append]
    exact ⟨List.append_ne_nil_of_left_ne_nil htag _, hfree.append (hvalue found hfound)⟩
  have hlabel (lane : Option Wire) : ∀ found ∈ lane.map Wire.label, Free reserved found.toList := by
    intro found hfound
    obtain ⟨wire, -, rfl⟩ := Option.map_eq_some_iff.1 hfound
    exact wire.free_label
  have hangle : ∀ found ∈ node.angleText?, Free reserved found.toList := by
    intro found hfound
    rw [angleText?] at hfound
    split_ifs at hfound
    · obtain rfl := Option.some_inj.1 hfound
      exact node.angle.free_display
    · exact absurd hfound nofun
  rw [List.forall_mem_map, details_eq]
  simp only [parts, List.flatMap_cons, List.flatMap_nil, List.append_nil, List.forall_mem_append]
  exact ⟨htagged (by decide) (by decide) hangle, htagged (by decide) (by decide) (hlabel _),
    htagged (by decide) (by decide) (hlabel _), htagged (by decide) (by decide) (hlabel _)⟩

/-- The text in the parentheses tells the fields. -/
theorem inner?_eq_iff : a.inner? = b.inner? ↔ a.details = b.details := by
  have hfree {node : Node} : ∀ text ∈ node.details.map String.toList, text ≠ [] ∧ Free [','] text :=
    fun text htext => ⟨(details_ne_nil_free text htext).1,
      (details_ne_nil_free text htext).2.mono (by decide)⟩
  constructor
  · intro h
    rw [inner?, inner?] at h
    split_ifs at h with ha hb
    · rw [ha, hb]
    · have hmap := Text.intercalate_inj hfree hfree (Option.some_inj.1 h)
      exact List.map_injective_iff.2 (fun _ _ => String.toList_inj.1) hmap
  · intro h
    rw [inner?, inner?, h]

theorem free_inner? (marks : List Char) (hmarks : marks ⊆ reserved)
    (hcomma : Free marks [',', ' ']) : ∀ text ∈ node.inner?, Free marks text := by
  intro text htext
  rw [inner?] at htext
  split_ifs at htext
  · exact absurd htext nofun
  · obtain rfl := Option.some_inj.1 htext
    exact .intercalate hcomma fun text htext => (details_ne_nil_free text htext).2.mono hmarks

theorem not_mem_inner? : ∀ text ∈ node.inner?, ')' ∉ text :=
  fun text htext hmem =>
    free_inner? [')'] (by decide) (by decide) text htext ')' hmem List.mem_cons_self

/-- The text of a node is a word, perhaps with something in parentheses behind it. -/
theorem isPhrase_display (node : Node) : IsPhrase [' '] node.display.toList :=
  ⟨node.kind.mnemonic.toList, node.inner?, node.kind.free_mnemonic.mono (by decide),
    not_mem_inner?, node.toList_display⟩

/-- The text of a node is a single line. -/
theorem free_display_line (node : Node) : Free ['\n'] node.display.toList := by
  rw [toList_display]
  exact (node.kind.free_mnemonic.mono (by decide)).append
    (.enclosed (by decide) (free_inner? _ (by decide) (by decide)))

/-- Nodes have the same text if they are the same up to the sign of an angle that is zero and the
    bits of one that is no number. -/
theorem display_eq_iff : a.display = b.display ↔ a.Alike b := by
  constructor
  · intro h
    have hword (kind : Kind) : Free ['('] kind.mnemonic.toList :=
      kind.free_mnemonic.mono (by decide)
    rw [← String.toList_inj, toList_display, toList_display, ← List.append_nil (enclosed _),
      ← List.append_nil (enclosed b.inner?)] at h
    obtain ⟨hkind, hinner, -⟩ := Text.append_enclosed_append_inj (hword a.kind) (hword b.kind)
      not_mem_inner? not_mem_inner? List.not_mem_nil (Text.stops_nil _) (Text.stops_nil _) h
    obtain ⟨hangle, hcontrolA, hcontrolB, hpartner⟩ := details_eq_iff.1 (inner?_eq_iff.1 hinner)
    exact ⟨Kind.mnemonic_inj (String.toList_inj.1 hkind), angleText?_eq_iff.1 hangle, hcontrolA,
      hcontrolB, hpartner⟩
  · rintro ⟨hkind, hangle, hcontrolA, hcontrolB, hpartner⟩
    have hdetails : a.details = b.details :=
      details_eq_iff.2 ⟨angleText?_eq_iff.2 hangle, hcontrolA, hcontrolB, hpartner⟩
    rw [← String.toList_inj, toList_display, toList_display, hkind, inner?_eq_iff.2 hdetails]

end GateGrid.Node

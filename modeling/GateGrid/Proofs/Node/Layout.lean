import GateGrid.Proofs.Json.Gather
import GateGrid.Proofs.Node.Codec

/-!
# Nodes in any layout

The same node can be written in many ways: as an object, with its fields in any order, with blanks
anywhere between the parts and with members of no interest among the fields, or as a list of its
fields in their order. A field that has its default may be left out of an object, and at the end of
a list. All of these are read as the node. An object that gives a field twice, or no kind, is
refused.

The *entries* of a node are its fields with their content. What a member or an element shows is an
entry, whatever its text; what has been read is a draft, which holds entries too. Each entry that is
read joins those of the draft, unless the draft has one with the same key.

* `Node.entries`, `Node.Draft.entries`: the entries of a node and of a draft;
* `Node.Entry.Shows`, `Node.Describes`: the texts that show entries;
* `Node.Written`: the texts of a node;
* `Node.Faulty`: objects with a field that is given twice, or without a kind;
* `Node.Describes.gathers_or_clashes`: what is read of the members of an object;
* `Node.readAll_layout`: how the texts are read.
-/

namespace GateGrid.Node

open Json (IsNumeral IsValue Item Member Spells listText objectText)
open Json.Reader (Adds Blank Clashes Gathers InOrder Takes blank_nil)

/-! ### Entries -/

/-- A field of a node with its content. -/
inductive Entry
  | kind (kind : Kind)
  | angle (angle : Binary64)
  | controlA (lane : Option Wire)
  | controlB (lane : Option Wire)
  | swapPartner (lane : Option Wire)
  deriving DecidableEq

/-- The names of the fields. -/
def keys : List String := ["kind", "angle", "control_a", "control_b", "swap_partner"]

/-- The name of the field. -/
def Entry.key : Entry → String
  | .kind _ => "kind"
  | .angle _ => "angle"
  | .controlA _ => "control_a"
  | .controlB _ => "control_b"
  | .swapPartner _ => "swap_partner"

/-- The field may be left out: the angle is the zero without a sign, or the lane is not set. -/
def Entry.IsDefault : Entry → Prop
  | .kind _ => False
  | .angle value => value = .zero
  | .controlA lane | .controlB lane | .swapPartner lane => lane = none

instance : DecidablePred Entry.IsDefault
  | .kind _ => .isFalse id
  | .angle value => inferInstanceAs (Decidable (value = .zero))
  | .controlA lane | .controlB lane | .swapPartner lane =>
    inferInstanceAs (Decidable (lane = none))

/-- The entries of a node, in the order of its fields. -/
def entries (node : Node) : List Entry :=
  [.kind node.kind, .angle node.angle, .controlA node.controlA, .controlB node.controlB,
   .swapPartner node.swapPartner]

/-- The entries tell the node: each is one of its own and is there once, and those that are missing
    may be left out. -/
structure ToldBy (node : Node) (told : List Entry) : Prop where
  /-- No field is told twice. -/
  nodup : (told.map Entry.key).Nodup
  /-- What is told is true. -/
  subset : ∀ entry ∈ told, entry ∈ node.entries
  /-- What is not told is the default. -/
  default : ∀ entry ∈ node.entries, entry ∈ told ∨ entry.IsDefault

/-! ### Texts -/

/-- The text of a lane: its number, or `null` if it is not set. -/
def laneText : Option Wire → List Char
  | none => ['n', 'u', 'l', 'l']
  | some lane => Nat.toDigits 10 lane.index.toNat

/-- The text shows the content of the entry. -/
inductive Entry.Shows : Entry → List Char → Prop
  /-- The name of the kind, with any escapes. -/
  | kind {kind : Kind} {text : List Char} :
      Spells text kind.jsonName → Shows (.kind kind) ('"' :: (text ++ ['"']))
  /-- A numeral that is read as the angle. -/
  | angle {angle : Binary64} {text : List Char} : IsNumeral text →
      Json.Reader.binary64.readAll (String.ofList text) = .ok angle → Shows (.angle angle) text
  | controlA (lane : Option Wire) : Shows (.controlA lane) (laneText lane)
  | controlB (lane : Option Wire) : Shows (.controlB lane) (laneText lane)
  | swapPartner (lane : Option Wire) : Shows (.swapPartner lane) (laneText lane)

/-- The members show the entries, in this order, among others that have no key of a field. -/
inductive Describes : List Member → List Entry → Prop
  | nil : Describes [] []
  | entry {member : Member} {members : List Member} {entry : Entry} {told : List Entry} :
      member.Loose → Spells member.key entry.key → entry.Shows member.item.value →
      Describes members told → Describes (member :: members) (entry :: told)
  | other {member : Member} {members : List Member} {name : String} {told : List Entry} :
      member.Loose → Spells member.key name → name ∉ keys → IsValue member.item.value →
      Describes members told → Describes (member :: members) told

/-- The texts of a node. -/
inductive Written (node : Node) : List Char → Prop
  /-- An object with the entries in any order. -/
  | object {front space back : List Char} {members : List Member} {told : List Entry} :
      Blank front → Blank space → Blank back → Describes members told → node.ToldBy told →
      Written node (front ++ (objectText space members ++ back))
  /-- A list of the entries in their order, up to some from which on all are defaults. -/
  | list {front space back : List Char} {items : List Item} {told left : List Entry} :
      Blank front → Blank space → Blank back → (∀ item ∈ items, item.Loose) →
      List.Forall₂ (fun item entry => entry.Shows item.value) items told →
      node.entries = told ++ left → (∀ entry ∈ left, entry.IsDefault) →
      Written node (front ++ (listText space items ++ back))

/-- Objects that are no nodes, whatever follows them. -/
inductive Faulty : List Char → Prop
  /-- A field is given again. Neither the value there nor the members behind it need be anything. -/
  | repeated {front space rest : List Char} {members others : List Member} {again : Member}
      {told : List Entry} {entry : Entry} : Blank front → Describes members told → entry ∈ told →
      Blank again.before → Spells again.key entry.key →
      Faulty (front ++ (objectText space (members ++ again :: others) ++ rest))
  /-- There is no kind. -/
  | lacking {front space rest : List Char} {members : List Member} {told : List Entry} :
      Blank front → Blank space → Describes members told → (∀ kind, .kind kind ∉ told) →
      Faulty (front ++ (objectText space members ++ rest))

/-! ### Drafts -/

namespace Draft

/-- The entries of a draft, in the order of the fields. -/
def entries (draft : Draft) : List Entry :=
  draft.kind.toList.map .kind ++ draft.angle.toList.map .angle ++
    draft.controlA.toList.map .controlA ++ draft.controlB.toList.map .controlB ++
    draft.swapPartner.toList.map .swapPartner

/-- The draft with an entry. -/
def add (draft : Draft) : Entry → Draft
  | .kind kind => { draft with kind := some kind }
  | .angle angle => { draft with angle := some angle }
  | .controlA lane => { draft with controlA := some lane }
  | .controlB lane => { draft with controlB := some lane }
  | .swapPartner lane => { draft with swapPartner := some lane }

/-- The field of the entry has been read. -/
def has (draft : Draft) : Entry → Bool
  | .kind _ => draft.kind.isSome
  | .angle _ => draft.angle.isSome
  | .controlA _ => draft.controlA.isSome
  | .controlB _ => draft.controlB.isSome
  | .swapPartner _ => draft.swapPartner.isSome

variable {draft : Draft} {entry : Entry}

/-- A field that has been read is the one of an entry with the same key. -/
theorem has_iff_mem : draft.has entry ↔ entry.key ∈ draft.entries.map Entry.key := by
  cases entry <;> simp [has, entries, Entry.key, Option.isSome_iff_exists]

/-- An entry that is new joins the others. -/
theorem entries_add (h : draft.has entry = false) :
    (draft.add entry).entries.Perm (entry :: draft.entries) := by
  rw [List.perm_iff_count]
  intro other
  cases entry
  all_goals
    simp only [has, Option.isSome_eq_false_iff, Option.isNone_iff_eq_none] at h
    simp only [entries, add, h, Option.toList_some, Option.toList_none, List.map_cons, List.map_nil,
      List.count_append, List.count_cons, List.count_nil]
    omega

/-- Where no key is there twice, the field of an entry to come has not been read. -/
theorem has_eq_false {told : List Entry}
    (h : ((draft.entries ++ entry :: told).map Entry.key).Nodup) : draft.has entry = false := by
  rw [← Bool.not_eq_true, has_iff_mem]
  rw [List.map_append, List.map_cons] at h
  exact fun hmem => (List.nodup_append.1 h).2.2 _ hmem _ List.mem_cons_self rfl

/-- An entry that is read is no longer one of those to come. -/
theorem entries_add_append (h : draft.has entry = false) (told : List Entry) :
    ((draft.add entry).entries ++ told).Perm (draft.entries ++ entry :: told) :=
  ((entries_add h).append_right told).trans List.perm_middle.symm

/-- A field of a node, by what the draft gives of it and the default otherwise. -/
theorem getD_eq {α : Type} {given : Option α} {value default : α}
    (hsome : ∀ other, given = some other → other = value)
    (hvalue : given = some value ∨ value = default) : given.getD default = value := by
  rcases given with _ | other
  · exact (hvalue.resolve_left (by simp)).symm
  · exact hsome other rfl

/-- A draft that tells a node becomes that node. -/
theorem finish_eq_some {node : Node} (h : node.ToldBy draft.entries) :
    draft.finish = some node := by
  obtain ⟨-, hsubset, hdefault⟩ := h
  have hangle (value : Binary64) (hvalue : draft.angle = some value) : value = node.angle := by
    simpa [Node.entries] using hsubset (.angle value) (by simp [entries, hvalue])
  have ha (lane : Option Wire) (hlane : draft.controlA = some lane) : lane = node.controlA := by
    simpa [Node.entries] using hsubset (.controlA lane) (by simp [entries, hlane])
  have hb (lane : Option Wire) (hlane : draft.controlB = some lane) : lane = node.controlB := by
    simpa [Node.entries] using hsubset (.controlB lane) (by simp [entries, hlane])
  have hpartner (lane : Option Wire) (hlane : draft.swapPartner = some lane) :
      lane = node.swapPartner := by
    simpa [Node.entries] using hsubset (.swapPartner lane) (by simp [entries, hlane])
  obtain ⟨hkind, hangle', ha', hb', hpartner'⟩ : draft.kind = some node.kind ∧
      (draft.angle = some node.angle ∨ node.angle = .zero) ∧
      (draft.controlA = some node.controlA ∨ node.controlA = none) ∧
      (draft.controlB = some node.controlB ∨ node.controlB = none) ∧
      (draft.swapPartner = some node.swapPartner ∨ node.swapPartner = none) := by
    simpa [entries, Node.entries, Entry.IsDefault] using hdefault
  simp only [finish, hkind, Option.map_some, getD_eq hangle hangle', getD_eq ha ha', getD_eq hb hb',
    getD_eq hpartner hpartner']

/-- A draft without a kind becomes no node. -/
theorem finish_eq_none (h : ∀ kind, .kind kind ∉ draft.entries) : draft.finish = none := by
  have hkind : draft.kind = none := by
    simpa [entries, ← Option.eq_none_iff_forall_ne_some] using h
  rw [finish, hkind, Option.map_none]

end Draft

/-! ### Fields -/

/-- The field of a record is the one for the entry. -/
structure Serves (field : Json.Field Draft) (entry : Entry) : Prop where
  /-- The field is noticed if it has been read. -/
  isGiven : ∀ draft, field.isGiven draft = draft.has entry
  /-- The field is read from what shows the entry. -/
  takes : ∀ draft {text}, entry.Shows text → Takes (field.read draft) text (draft.add entry)

theorem takes_kind {kind : Kind} {text : List Char} (h : Spells text kind.jsonName) :
    Takes Kind.read ('"' :: (text ++ ['"'])) kind :=
  Json.Reader.takes_choice h (by cases kind <;> rfl)

theorem takes_lane (lane : Option Wire) :
    Takes (Json.Reader.optional Wire.read) (laneText lane) lane := by
  intro blanks rest hblanks hrest
  cases lane with
  | none =>
    rw [laneText, Json.Reader.optional, List.cons_append,
      Json.Reader.bind_of_ok (Json.Reader.lookAhead_append hblanks rfl)]
    rfl
  | some lane => exact (conveys_lane .compact lane).read_append 0 hblanks hrest

/-- Each entry has a field, which is found by its key. -/
theorem exists_serves (entry : Entry) :
    ∃ field, fields.find? (·.key == entry.key) = some field ∧ Serves field entry := by
  cases entry with
  | kind kind =>
    refine ⟨_, rfl, fun _ => rfl, fun draft text hshows => ?_⟩
    cases hshows with
    | kind hname => exact (takes_kind hname).map fun kind => { draft with kind := some kind }
  | angle angle =>
    refine ⟨_, rfl, fun _ => rfl, fun draft text hshows => ?_⟩
    cases hshows with
    | angle hnumeral hangle =>
      exact (Json.Reader.takes_binary64 hnumeral hangle).map fun angle =>
        { draft with angle := some angle }
  | controlA lane =>
    refine ⟨_, rfl, fun _ => rfl, fun draft text hshows => ?_⟩
    cases hshows
    exact (takes_lane lane).map fun lane => { draft with controlA := some lane }
  | controlB lane =>
    refine ⟨_, rfl, fun _ => rfl, fun draft text hshows => ?_⟩
    cases hshows
    exact (takes_lane lane).map fun lane => { draft with controlB := some lane }
  | swapPartner lane =>
    refine ⟨_, rfl, fun _ => rfl, fun draft text hshows => ?_⟩
    cases hshows
    exact (takes_lane lane).map fun lane => { draft with swapPartner := some lane }

/-- The entries of a node have the fields in their order. -/
theorem forall₂_serves (node : Node) : List.Forall₂ Serves fields node.entries := by
  obtain ⟨_, ⟨⟩, hkind⟩ := exists_serves (.kind node.kind)
  obtain ⟨_, ⟨⟩, hangle⟩ := exists_serves (.angle node.angle)
  obtain ⟨_, ⟨⟩, ha⟩ := exists_serves (.controlA node.controlA)
  obtain ⟨_, ⟨⟩, hb⟩ := exists_serves (.controlB node.controlB)
  obtain ⟨_, ⟨⟩, hpartner⟩ := exists_serves (.swapPartner node.swapPartner)
  exact .cons hkind (.cons hangle (.cons ha (.cons hb (.cons hpartner .nil))))

/-- No field is found by another key. -/
theorem find?_fields_eq_none {name : String} (h : name ∉ keys) :
    fields.find? (·.key == name) = none := by
  simp only [keys, List.mem_cons, List.not_mem_nil, or_false, not_or] at h
  simp [fields, Ne.symm, h]

/-! ### Objects -/

variable {members : List Member} {told : List Entry}

/-- The members of an object are gathered, unless two entries have the same key; then the second one
    clashes with the first. -/
theorem Describes.gathers_or_clashes (h : Describes members told) (draft : Draft) :
    (∃ final, Gathers fields draft members final ∧ final.entries.Perm (draft.entries ++ told)) ∨
    (¬((draft.entries ++ told).map Entry.key).Nodup ∧
      ∀ others, Clashes fields draft (members ++ others)) := by
  induction h generalizing draft with
  | nil => exact .inl ⟨draft, .nil draft, by rw [List.append_nil]⟩
  | @entry member members entry told hloose hkey hshows _ ih =>
    obtain ⟨field, hfield, hserves⟩ := exists_serves entry
    cases hhas : draft.has entry with
    | true =>
      refine .inr ⟨fun hnodup => ?_, fun others => ?_⟩
      · exact Bool.noConfusion (hhas.symm.trans (Draft.has_eq_false hnodup))
      · exact .here hloose.1 hkey hfield ((hserves.isGiven draft).trans hhas)
    | false =>
      have hadds : Adds fields draft member (draft.add entry) :=
        .field hkey hfield ((hserves.isGiven draft).trans hhas) (hserves.takes draft hshows)
      have hperm := Draft.entries_add_append hhas told
      rcases ih (draft.add entry) with ⟨final, hgathers, hfinal⟩ | ⟨hnodup, hclashes⟩
      · exact .inl ⟨final, .cons hloose hadds hgathers, hfinal.trans hperm⟩
      · refine .inr ⟨fun h => hnodup ((hperm.map Entry.key).nodup_iff.2 h), fun others => ?_⟩
        exact .later hloose hadds (hclashes others)
  | @other member members name told hloose hkey hname hvalue _ ih =>
    have hadds : Adds fields draft member draft := .other hkey (find?_fields_eq_none hname) hvalue
    rcases ih draft with ⟨final, hgathers, hfinal⟩ | ⟨hnodup, hclashes⟩
    · exact .inl ⟨final, .cons hloose hadds hgathers, hfinal⟩
    · exact .inr ⟨hnodup, fun others => .later hloose hadds (hclashes others)⟩

/-- What tells a node does so in any order. -/
theorem ToldBy.perm {node : Node} {told' : List Entry} (h : node.ToldBy told)
    (hperm : told'.Perm told) : node.ToldBy told' where
  nodup := (hperm.map Entry.key).nodup_iff.2 h.nodup
  subset := fun entry hentry => h.subset entry (hperm.mem_iff.1 hentry)
  default := fun entry hentry => (h.default entry hentry).imp_left hperm.mem_iff.2

/-- An object that tells a node is read as the node. -/
theorem takes_object {node : Node} {space : List Char} (hspace : Blank space)
    (h : Describes members told) (htold : node.ToldBy told) :
    Takes Node.read (objectText space members) node := by
  rcases h.gathers_or_clashes {} with ⟨final, hgathers, hfinal⟩ | ⟨hnodup, -⟩
  · exact Json.Reader.takes_object hgathers hspace (Draft.finish_eq_some (htold.perm hfinal))
  · exact absurd htold.nodup hnodup

/-- What is wrong with an object is noticed, whatever follows it. -/
theorem Faulty.read_eq {text : List Char} (h : Faulty text) :
    Node.read text = .error .mismatch := by
  cases h with
  | @repeated _ _ _ _ others again told entry hfront hmembers hentry hbefore hkey =>
    refine Json.Reader.record_clashes ?_ Draft.finish hfront _ _
    rcases hmembers.gathers_or_clashes {} with ⟨final, hgathers, hfinal⟩ | ⟨-, hclashes⟩
    · -- The field has been read when its key comes again.
      obtain ⟨field, hfield, hserves⟩ := exists_serves entry
      have hhas : final.has entry :=
        Draft.has_iff_mem.2 (List.mem_map_of_mem (hfinal.mem_iff.2 hentry))
      exact hgathers.append_clashes (.here hbefore hkey hfield ((hserves.isGiven final).trans hhas))
    · exact hclashes (again :: others)
  | lacking hfront hspace hmembers hkind =>
    rcases hmembers.gathers_or_clashes {} with ⟨final, hgathers, hfinal⟩ | ⟨-, hclashes⟩
    · refine Json.Reader.record_incomplete hgathers (Draft.finish_eq_none ?_) hfront hspace _
      exact fun kind hmem => hkind kind (hfinal.mem_iff.1 hmem)
    · have hclash := hclashes []
      rw [List.append_nil] at hclash
      exact Json.Reader.record_clashes hclash Draft.finish hfront _ _

/-! ### Lists -/

/-- What shows an entry is a value. -/
theorem Entry.Shows.isValue {entry : Entry} {text : List Char} (h : entry.Shows text) :
    IsValue text := by
  have hlane (lane : Option Wire) : IsValue (laneText lane) := by
    cases lane with
    | none => exact .literal List.mem_cons_self
    | some lane => exact .numeral (.toDigits _)
  cases h with
  | kind hname =>
    obtain ⟨units, hunits, -⟩ := hname
    exact .string hunits
  | angle hnumeral _ => exact .numeral hnumeral
  | controlA lane => exact hlane lane
  | controlB lane => exact hlane lane
  | swapPartner lane => exact hlane lane

/-- Elements that show entries are read as fields in their order. -/
theorem exists_inOrder {served : List (Json.Field Draft)} {items : List Item} {left : List Entry}
    (hshows : List.Forall₂ (fun item entry => entry.Shows item.value) items told)
    (hloose : ∀ item ∈ items, item.Loose) (hserved : List.Forall₂ Serves served (told ++ left))
    (draft : Draft) (hnodup : ((draft.entries ++ told).map Entry.key).Nodup) :
    ∃ final, InOrder served draft items final ∧ final.entries.Perm (draft.entries ++ told) := by
  induction hshows generalizing served draft with
  | nil => exact ⟨draft, .nil served draft, by rw [List.append_nil]⟩
  | @cons item entry items told hshow _ ih =>
    obtain ⟨hitem, hitems⟩ := List.forall_mem_cons.1 hloose
    cases hserved with
    | @cons field _ served _ hserves hserved =>
      have hhas := Draft.has_eq_false hnodup
      have hperm := Draft.entries_add_append hhas told
      obtain ⟨final, horder, hfinal⟩ := ih hitems hserved (draft.add entry)
        ((hperm.map Entry.key).nodup_iff.2 hnodup)
      refine ⟨final, .cons hitem hshow.isValue.opens (hserves.takes draft hshow) horder, ?_⟩
      exact hfinal.trans hperm

/-- The keys of a node's entries are the names of the fields. -/
theorem map_key_entries (node : Node) : node.entries.map Entry.key = keys := rfl

theorem nodup_keys : keys.Nodup := by decide

/-- A list of the first entries of a node is read as the node if the others are defaults. -/
theorem takes_list {node : Node} {space : List Char} {items : List Item} {left : List Entry}
    (hspace : Blank space) (hloose : ∀ item ∈ items, item.Loose)
    (hshows : List.Forall₂ (fun item entry => entry.Shows item.value) items told)
    (htold : node.entries = told ++ left) (hleft : ∀ entry ∈ left, entry.IsDefault) :
    Takes Node.read (listText space items) node := by
  have hserved := forall₂_serves node
  have hnodup := nodup_keys
  rw [← map_key_entries node] at hnodup
  rw [htold] at hserved hnodup
  rw [List.map_append] at hnodup
  have htells : node.ToldBy told := by
    refine ⟨(List.nodup_append.1 hnodup).1, fun entry hentry => ?_, fun entry hentry => ?_⟩
    · rw [htold]
      exact List.mem_append_left left hentry
    · rw [htold] at hentry
      exact (List.mem_append.1 hentry).imp_right (hleft entry)
  obtain ⟨final, horder, hfinal⟩ := exists_inOrder hshows hloose hserved {} htells.nodup
  exact Json.Reader.takes_list horder hspace (Draft.finish_eq_some (htells.perm hfinal))

/-- A text of a node is read as the node, whatever its layout; an object that gives a field twice,
    or no kind, is a mismatch. -/
theorem readAll_layout :
    (∀ (node : Node) (text : List Char), node.Written text →
      Node.read.readAll (String.ofList text) = .ok node) ∧
    ∀ text : List Char, Faulty text →
      Node.read.readAll (String.ofList text) = .error .mismatch := by
  refine ⟨fun node text h => ?_, fun text h => ?_⟩
  · cases h with
    | object hfront hspace hback hmembers htold =>
      exact (takes_object hspace hmembers htold).readAll hfront hback
    | list hfront hspace hback hloose hshows htold hleft =>
      exact (takes_list hspace hloose hshows htold hleft).readAll hfront hback
  · rw [Json.Reader.readAll, String.toList_ofList, h.read_eq]

/-- A node is read from an object that is shuffled, with an escape in a key and a member of no
    interest, and from a list that ends early. With the kind once more, or without it, the object is
    refused. -/
theorem readAll_layout_shuffled :
    let node : Node := { kind := .z, angle := .ofBits 0x3ff8000000000000, controlA := some ⟨2⟩ }
    let object := " \x7b\"note\":[1e999,[]] ,\"control_b\" : null,\"angle\":1.5," ++
      "\"\\u006bind\":\"z\",\"control_a\":2\x7d\n"
    let list := "[\"z\", 1.5,2 ]"
    let again := "\x7b\"\\u006bind\":\"z\",\"kind\":\x7d"
    let lacking := "\x7b\"angle\":1.5\x7d"
    (node.Written object.toList ∧ Node.read.readAll object = .ok node) ∧
      (node.Written list.toList ∧ Node.read.readAll list = .ok node) ∧
      (Faulty again.toList ∧ Node.read.readAll again = .error .mismatch) ∧
      Faulty lacking.toList ∧ Node.read.readAll lacking = .error .mismatch := by
  intro node object list again lacking
  let note : Member := ⟨[], "note".toList, [], ⟨[], "[1e999,[]]".toList, [' ']⟩⟩
  let controlB : Member := ⟨[], "control_b".toList, [' '], ⟨[' '], ['n', 'u', 'l', 'l'], []⟩⟩
  let angle : Member := ⟨[], "angle".toList, [], ⟨[], ['1', '.', '5'], []⟩⟩
  let kind : Member :=
    ⟨[], ['\\', 'u', '0', '0', '6', 'b', 'i', 'n', 'd'], [], ⟨[], ['"', 'z', '"'], []⟩⟩
  let controlA : Member := ⟨[], "control_a".toList, [], ⟨[], ['2'], []⟩⟩
  have hnote : IsValue note.item.value := by
    have hone : Spelling.Digits ['1'] := by decide
    have hnines : Spelling.Digits ['9', '9', '9'] := by decide
    have hlarge : IsValue ['1', 'e', '9', '9', '9'] :=
      .numeral (.intro false hone (by decide) .absent (.given (.inl rfl) (.inl rfl) hnines))
    have hempty : IsValue (listText [] []) := .list blank_nil (by decide) (by simp)
    have hitems : ∀ item ∈ [(⟨[], ['1', 'e', '9', '9', '9'], []⟩ : Item), ⟨[], ['[', ']'], []⟩],
        IsValue item.value := List.forall_mem_cons.2 ⟨hlarge, List.forall_mem_singleton.2 hempty⟩
    exact .list blank_nil (by decide) hitems
  have hangle : Entry.Shows (.angle node.angle) angle.item.value := by
    have hone : Spelling.Digits ['1'] := by decide
    have hfive : Spelling.Digits ['5'] := by decide
    exact .angle (.intro false hone (by decide) (.given hfive) .absent) (by decide +kernel)
  have hkey : Spells kind.key "kind" := by
    have hunit : Json.WritesUnit ['\\', 'u', '0', '0', '6', 'b'] 0x6b :=
      .hex (by decide : Json.HexDigit '0' 0) (by decide : Json.HexDigit '0' 0)
        (by decide : Json.HexDigit '6' 6) (by decide : Json.HexDigit 'b' 11)
    exact ⟨_, .cons hunit (.of_plain (by decide : Json.Plain ['i', 'n', 'd'])),
      .map_toNat ['k', 'i', 'n', 'd']⟩
  have hkind : Entry.Shows (.kind .z) kind.item.value :=
    .kind (.of_plain Kind.z.jsonName (by decide))
  have hlane : Entry.Shows (.controlA (some ⟨2⟩)) ['2'] := by
    have htext : laneText (some ⟨2⟩) = ['2'] := by decide
    exact htext ▸ .controlA _
  have hmembers : Describes [note, controlB, angle, kind, controlA]
      [.controlB none, .angle node.angle, .kind .z, .controlA (some ⟨2⟩)] :=
    .other (by decide) (.of_plain "note" (by decide)) (by decide) hnote
      (.entry (by decide) (.of_plain "control_b" (by decide)) (.controlB none)
      (.entry (by decide) (.of_plain "angle" (by decide)) hangle
      (.entry (by decide) hkey hkind
      (.entry (by decide) (.of_plain "control_a" (by decide)) hlane .nil))))
  have htold : node.ToldBy [.controlB none, .angle node.angle, .kind .z, .controlA (some ⟨2⟩)] :=
    ⟨by decide, by decide, by decide⟩
  have hobject : node.Written object.toList := by
    convert Written.object (by decide : Blank [' ']) blank_nil (by decide : Blank ['\n']) hmembers
      htold using 1
    decide +kernel
  have hitems : List.Forall₂ (fun item entry => Entry.Shows entry item.value)
      [kind.item, ⟨[' '], ['1', '.', '5'], []⟩, ⟨[], ['2'], [' ']⟩]
      [.kind .z, .angle node.angle, .controlA (some ⟨2⟩)] :=
    .cons hkind (.cons hangle (.cons hlane .nil))
  have hlist : node.Written list.toList := by
    convert Written.list blank_nil blank_nil blank_nil (by decide) hitems
      (rfl : node.entries = _ ++ [.controlB none, .swapPartner none]) (by decide) using 1
    decide +kernel
  have hagain : Faulty again.toList := by
    have hmember : Describes [kind] [.kind .z] := .entry (by decide) hkey hkind .nil
    convert @Faulty.repeated [] [] [] [kind] [] ⟨[], "kind".toList, [], ⟨[], [], []⟩⟩ _ _ blank_nil
      hmember List.mem_cons_self blank_nil (.of_plain "kind" (by decide)) using 1
    decide +kernel
  have hlacking : Faulty lacking.toList := by
    have hmember : Describes [angle] [.angle node.angle] :=
      .entry (by decide) (.of_plain "angle" (by decide)) hangle .nil
    convert @Faulty.lacking [] [] [] _ _ blank_nil blank_nil hmember (by simp) using 1
    decide +kernel
  obtain ⟨hread, hrefuse⟩ := readAll_layout
  refine ⟨⟨hobject, ?_⟩, ⟨hlist, ?_⟩, ⟨hagain, ?_⟩, hlacking, ?_⟩
  · simpa only [String.ofList_toList] using hread node _ hobject
  · simpa only [String.ofList_toList] using hread node _ hlist
  · simpa only [String.ofList_toList] using hrefuse _ hagain
  · simpa only [String.ofList_toList] using hrefuse _ hlacking

end GateGrid.Node

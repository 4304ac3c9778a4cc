import Mathlib.Data.List.Basic
import Mathlib.Data.Set.Basic

/-!
# Texts that show where they end

A text for people puts the texts of its parts one after the other, with *marks* between them: a
blank, a comma, a parenthesis, the end of a line. It can be taken apart again, and in one way only,
if every part shows where it ends. A word does so if a mark follows that is not in the word, and a
text in parentheses does so by itself.

* `Text.Delimited`: texts that end at a mark, and can be told from what follows them;
* `Text.delimited_free`, `Text.delimited_phrase`: words, and words with something in parentheses;
* `Text.Delimited.flatMap_inj`: a row of such texts, each behind its mark, is known by its text;
* `Text.intercalate_inj`: so is a row of words with commas between them.
-/

namespace GateGrid.Text

variable {mark : Char} {marks s t rest rest' : List Char}

/-! ### Words -/

/-- What follows a text starts with one of the marks, if anything follows at all. -/
def Stops (marks rest : List Char) : Prop := ∀ c ∈ rest.head?, c ∈ marks

theorem stops_nil (marks : List Char) : Stops marks [] := nofun

theorem stops_cons (h : mark ∈ marks) (rest : List Char) : Stops marks (mark :: rest) := by
  rintro _ ⟨⟩
  exact h

/-- The characters by which texts for people are divided. -/
def reserved : List Char := [' ', ',', '(', ')', ':', '\n']

theorem isDigit_of_mem_reserved {c : Char} (h : c ∈ reserved) : c.isDigit = false := by
  simp only [reserved, List.mem_cons, List.not_mem_nil, or_false] at h
  rcases h with rfl | rfl | rfl | rfl | rfl | rfl <;> rfl

/-- None of the marks occurs in a text. -/
def Free (marks text : List Char) : Prop := ∀ c ∈ text, c ∉ marks

instance (marks text : List Char) : Decidable (Free marks text) :=
  List.decidableBAll (· ∉ marks) text

theorem free_nil (marks : List Char) : Free marks [] := List.forall_mem_nil _

theorem Free.mono {others : List Char} (h : Free marks s) (hsub : others ⊆ marks) :
    Free others s :=
  fun c hc hmark => h c hc (hsub hmark)

theorem Free.append (hs : Free marks s) (ht : Free marks t) : Free marks (s ++ t) :=
  List.forall_mem_append.2 ⟨hs, ht⟩

/-- A word ends where the first mark stands. -/
theorem append_inj_of_free (hs : Free marks s) (ht : Free marks t) (hrest : Stops marks rest)
    (hrest' : Stops marks rest') (h : s ++ rest = t ++ rest') : s = t ∧ rest = rest' := by
  -- Where one of the words ends before the other, the other one holds the mark that ends it.
  have hends {c : Char} {t rest rest' : List Char} (ht : Free marks (c :: t))
      (hrest : Stops marks rest) (h : rest = c :: t ++ rest') : False :=
    ht c List.mem_cons_self (hrest c (by rw [h]; rfl))
  induction s generalizing t with
  | nil =>
    cases t with
    | nil => exact ⟨rfl, h⟩
    | cons c t => exact (hends ht hrest h).elim
  | cons c s ih =>
    cases t with
    | nil => exact (hends hs hrest' h.symm).elim
    | cons d t =>
      obtain ⟨rfl, htail⟩ := List.cons.inj h
      obtain ⟨rfl, heq⟩ := ih (List.forall_mem_cons.1 hs).2 (List.forall_mem_cons.1 ht).2 htail
      exact ⟨rfl, heq⟩

/-- A word with one of the marks behind it, and the rest. -/
theorem append_cons_inj_of_free (hmark : mark ∈ marks) (hs : Free marks s) (ht : Free marks t)
    (h : s ++ mark :: rest = t ++ mark :: rest') : s = t ∧ rest = rest' := by
  obtain ⟨hword, htail⟩ := append_inj_of_free hs ht (stops_cons hmark rest)
    (stops_cons hmark rest') h
  exact ⟨hword, (List.cons.inj htail).2⟩

/-! ### Parentheses -/

/-- A text in parentheses, or nothing. -/
def enclosed : Option (List Char) → List Char
  | none => []
  | some text => '(' :: (text ++ [')'])

/-- A closing parenthesis ends the text in parentheses, and without one there was none. -/
theorem enclosed_append_inj {inner inner' : Option (List Char)} (hinner : ∀ s ∈ inner, ')' ∉ s)
    (hinner' : ∀ s ∈ inner', ')' ∉ s) (hmarks : '(' ∉ marks) (hrest : Stops marks rest)
    (hrest' : Stops marks rest') (h : enclosed inner ++ rest = enclosed inner' ++ rest') :
    inner = inner' ∧ rest = rest' := by
  have hfree {s : List Char} (hs : ')' ∉ s) : Free [')'] s := fun c hc hmark =>
    hs (List.mem_singleton.1 hmark ▸ hc)
  rcases inner with _ | s <;> rcases inner' with _ | t <;>
    simp only [enclosed, List.nil_append, List.cons_append, List.append_assoc] at h
  · exact ⟨rfl, h⟩
  · have hmem : '(' ∈ marks := hrest '(' (by rw [h]; rfl)
    exact absurd hmem hmarks
  · have hmem : '(' ∈ marks := hrest' '(' (by rw [← h]; rfl)
    exact absurd hmem hmarks
  · obtain ⟨rfl, htail⟩ := append_cons_inj_of_free List.mem_cons_self (hfree (hinner s rfl))
      (hfree (hinner' t rfl)) (List.cons.inj h).2
    exact ⟨rfl, htail⟩

theorem Free.enclosed {inner : Option (List Char)} (hopen : Free marks ['(', ')'])
    (h : ∀ s ∈ inner, Free marks s) : Free marks (enclosed inner) := by
  rcases inner with _ | s
  · exact free_nil marks
  · rw [Free, List.forall_mem_cons, List.forall_mem_singleton] at hopen
    exact List.forall_mem_cons.2 ⟨hopen.1, (h s rfl).append (List.forall_mem_singleton.2 hopen.2)⟩

theorem stops_enclosed_append (inner : Option (List Char)) (hrest : Stops marks rest) :
    Stops ('(' :: marks) (enclosed inner ++ rest) := by
  rcases inner with _ | s
  · exact fun c hc => List.mem_cons_of_mem _ (hrest c hc)
  · exact stops_cons List.mem_cons_self _

/-- A word, what stands in parentheses behind it, and the rest. -/
theorem append_enclosed_append_inj {inner inner' : Option (List Char)}
    (hs : Free ('(' :: marks) s) (ht : Free ('(' :: marks) t) (hinner : ∀ s ∈ inner, ')' ∉ s)
    (hinner' : ∀ s ∈ inner', ')' ∉ s) (hmarks : '(' ∉ marks) (hrest : Stops marks rest)
    (hrest' : Stops marks rest')
    (h : s ++ (enclosed inner ++ rest) = t ++ (enclosed inner' ++ rest')) :
    s = t ∧ inner = inner' ∧ rest = rest' := by
  obtain ⟨hword, htail⟩ := append_inj_of_free hs ht (stops_enclosed_append inner hrest)
    (stops_enclosed_append inner' hrest') h
  exact ⟨hword, enclosed_append_inj hinner hinner' hmarks hrest hrest' htail⟩

/-! ### Rows of texts -/

/-- Texts that end at a mark: if one of them and what follows it make up the same text as another
    one and what follows that, the two are the same. -/
def Delimited (marks : List Char) (texts : Set (List Char)) : Prop :=
  ∀ s ∈ texts, ∀ t ∈ texts, ∀ rest rest', Stops marks rest → Stops marks rest' →
    s ++ rest = t ++ rest' → s = t ∧ rest = rest'

theorem delimited_free (marks : List Char) : Delimited marks {text | Free marks text} :=
  fun _ hs _ ht _ _ hrest hrest' => append_inj_of_free hs ht hrest hrest'

/-- A word, perhaps with something in parentheses behind it. -/
def IsPhrase (marks text : List Char) : Prop :=
  ∃ word inner, Free ('(' :: marks) word ∧ (∀ s ∈ inner, ')' ∉ s) ∧ text = word ++ enclosed inner

theorem delimited_phrase (hmarks : '(' ∉ marks) : Delimited marks {text | IsPhrase marks text} := by
  rintro _ ⟨s, inner, hs, hinner, rfl⟩ _ ⟨t, inner', ht, hinner', rfl⟩ rest rest' hrest hrest' h
  rw [List.append_assoc, List.append_assoc] at h
  obtain ⟨rfl, rfl, heq⟩ :=
    append_enclosed_append_inj hs ht hinner hinner' hmarks hrest hrest' h
  exact ⟨rfl, heq⟩

theorem stops_flatMap (mark : Char) (items : List (List Char)) :
    Stops [mark] (items.flatMap (mark :: ·)) := by
  rcases items with _ | ⟨s, items⟩
  · exact stops_nil [mark]
  · exact stops_cons List.mem_cons_self _

/-- A row of texts that end at a mark, with the mark in front of each, is known by its text. -/
theorem Delimited.flatMap_inj {texts : Set (List Char)} (h : Delimited [mark] texts)
    {items items' : List (List Char)} (hitems : ∀ s ∈ items, s ∈ texts)
    (hitems' : ∀ s ∈ items', s ∈ texts)
    (heq : items.flatMap (mark :: ·) = items'.flatMap (mark :: ·)) : items = items' := by
  induction items generalizing items' with
  | nil =>
    cases items' with
    | nil => rfl
    | cons t items' => exact absurd heq nofun
  | cons s items ih =>
    cases items' with
    | nil => exact absurd heq nofun
    | cons t items' =>
      rw [List.forall_mem_cons] at hitems hitems'
      obtain ⟨rfl, htail⟩ := h s hitems.1 t hitems'.1 _ _ (stops_flatMap mark items)
        (stops_flatMap mark items') (List.cons.inj heq).2
      rw [ih hitems.2 hitems'.2 htail]

/-- A first text, and the others behind a comma and a blank each. -/
theorem intercalate_cons_eq (s : List Char) (items : List (List Char)) :
    [',', ' '].intercalate (s :: items) = s ++ (items.map (' ' :: ·)).flatMap (',' :: ·) := by
  induction items generalizing s with
  | nil => simp
  | cons t items ih =>
    rw [List.intercalate_cons_of_ne_nil (List.cons_ne_nil t items), ih, List.map_cons,
      List.flatMap_cons, List.append_assoc]
    rfl

theorem Free.intercalate {items : List (List Char)} (hcomma : Free marks [',', ' '])
    (h : ∀ s ∈ items, Free marks s) : Free marks ([',', ' '].intercalate items) := by
  rcases items with _ | ⟨s, items⟩
  · exact free_nil marks
  rw [List.forall_mem_cons] at h
  rw [intercalate_cons_eq, List.flatMap_map]
  refine h.1.append fun c hc => ?_
  obtain ⟨t, ht, hc⟩ := List.mem_flatMap.1 hc
  exact hcomma.append (h.2 t ht) c hc

/-- A row of words with commas between them is known by its text. -/
theorem intercalate_inj {items items' : List (List Char)}
    (hitems : ∀ s ∈ items, s ≠ [] ∧ Free [','] s) (hitems' : ∀ s ∈ items', s ≠ [] ∧ Free [','] s)
    (h : [',', ' '].intercalate items = [',', ' '].intercalate items') : items = items' := by
  have hne (s : List Char) (hs : s ≠ []) (items : List (List Char)) :
      [',', ' '].intercalate (s :: items) ≠ [] := by
    rw [intercalate_cons_eq]
    exact List.append_ne_nil_of_left_ne_nil hs _
  have hblank {items : List (List Char)} (hitems : ∀ s ∈ items, s ≠ [] ∧ Free [','] s) :
      ∀ s ∈ items.map (' ' :: ·), Free [','] s := by
    intro _ hmem
    obtain ⟨s, hs, rfl⟩ := List.mem_map.1 hmem
    exact Free.append (s := [' ']) (by decide) (hitems s hs).2
  rcases items with _ | ⟨s, items⟩ <;> rcases items' with _ | ⟨t, items'⟩
  · rfl
  · exact absurd h.symm (hne t (hitems' t List.mem_cons_self).1 items')
  · exact absurd h (hne s (hitems s List.mem_cons_self).1 items)
  · rw [List.forall_mem_cons] at hitems hitems'
    rw [intercalate_cons_eq, intercalate_cons_eq] at h
    obtain ⟨rfl, htail⟩ := append_inj_of_free hitems.1.2 hitems'.1.2 (stops_flatMap ',' _)
      (stops_flatMap ',' _) h
    have hmap := (delimited_free [',']).flatMap_inj (hblank hitems.2) (hblank hitems'.2) htail
    rw [List.map_injective_iff.2 List.cons_injective hmap]

end GateGrid.Text

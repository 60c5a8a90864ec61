import Mathlib
import TemplateExpr.Json.Writer

/-!
# The shape of JSON texts

What the two layouts have in common: a bracket, rows with commas between them, and a closing
bracket, with blanks in places where they say nothing (`bracketed_eq`). And what is written of a
record: the entries that are left when bookkeeping and what JSON cannot say are dropped, by name
(`render_record`).
-/

namespace TemplateExpr.Json

open Text

/-! ## Rows -/

def Layout.gap : Layout → List Char
  | .compact => []
  | .pretty => ['\n']

def Layout.lead (layout : Layout) (level : Nat) : List Char :=
  match layout with
  | .compact => []
  | .pretty => indentation level

def Layout.space : Layout → List Char
  | .compact => []
  | .pretty => [' ']

def Layout.Blank (c : Char) : Prop := c = ' ' ∨ c = '\n'

theorem Layout.blank_gap (layout : Layout) : ∀ c ∈ layout.gap, Blank c := by
  cases layout with
  | compact => exact fun _ h => nomatch h
  | pretty => exact fun c h => .inr (List.mem_singleton.mp h)

theorem Layout.blank_lead (layout : Layout) (level : Nat) : ∀ c ∈ layout.lead level, Blank c := by
  cases layout with
  | compact => exact fun _ h => nomatch h
  | pretty => exact fun c h => .inl (List.eq_of_mem_replicate h)

theorem Layout.blank_space (layout : Layout) : ∀ c ∈ layout.space, Blank c := by
  cases layout with
  | compact => exact fun _ h => nomatch h
  | pretty => exact fun c h => .inl (List.mem_singleton.mp h)

/-- Parts with commas between them, and blanks around them. -/
def rows (gap lead : List Char) : List (List Char) → List Char
  | [] => []
  | [part] => lead ++ part
  | part :: next :: parts => lead ++ part ++ ',' :: gap ++ rows gap lead (next :: parts)

theorem intercalate_rows (gap lead : List Char) (parts : List (List Char)) :
    (',' :: gap).intercalate (parts.map (lead ++ ·)) = rows gap lead parts := by
  induction parts with
  | nil => rfl
  | cons part parts ih =>
    cases parts with
    | nil => simp [rows, List.intercalate]
    | cons next parts =>
      rw [rows, ← ih]
      simp [List.intercalate]

/-- **Both layouts are rows in brackets.** -/
theorem bracketed_eq (layout : Layout) (level : Nat) (opening closing : Char)
    {parts : List (List Char)} (h : parts ≠ []) :
    bracketed layout level opening closing parts =
      opening :: (layout.gap ++ (rows layout.gap (layout.lead (level + 1)) parts ++
        (layout.gap ++ layout.lead level ++ [closing]))) := by
  have hparts : parts.isEmpty = false := by simp [h]
  rw [← intercalate_rows]
  cases layout <;> simp [bracketed, hparts, Layout.gap, Layout.lead]

theorem member_eq (layout : Layout) (key : String) (text : List Char) :
    member layout (key, text) = quoted key ++ ':' :: (layout.space ++ text) := by
  cases layout <;> simp [member, Layout.space]

/-! ## Escapes -/

def writtenEscapes : List (Char × Char) :=
  [('"', '"'), ('\\', '\\'), ('n', '\n'), ('r', '\r'), ('t', '\t')]

/-- A character is written as it is, as a letter, or by its code. -/
theorem escapeChar_cases (c : Char) :
    (escapeChar c = [c] ∧ c ≠ '"' ∧ c ≠ '\\' ∧ isControl c = false) ∨
      (∃ letter, escapeChar c = ['\\', letter] ∧ (letter, c) ∈ writtenEscapes) ∨
      (escapeChar c = '\\' :: 'u' :: hexCode c ∧ isControl c = true) := by
  unfold escapeChar
  split
  · next h => exact .inr (.inl ⟨_, rfl, by rw [h]; decide⟩)
  split
  · next h => exact .inr (.inl ⟨_, rfl, by rw [h]; decide⟩)
  split
  · next h => exact .inr (.inl ⟨_, rfl, by rw [h]; decide⟩)
  split
  · next h => exact .inr (.inl ⟨_, rfl, by rw [h]; decide⟩)
  split
  · next h => exact .inr (.inl ⟨_, rfl, by rw [h]; decide⟩)
  split
  · next h => exact .inr (.inr ⟨rfl, h⟩)
  · next hquote hbackslash _ _ _ hcontrol =>
    exact .inl ⟨rfl, hquote, hbackslash, eq_false_of_ne_true hcontrol⟩

/-! ## What is written of a record -/

/-- Sorting looks at names only. -/
theorem sortByName_map {α β : Type} (f : α → β) (entries : List (String × α)) :
    sortByName (entries.map fun entry => (entry.1, f entry.2)) =
      (sortByName entries).map fun entry => (entry.1, f entry.2) := by
  rw [sortByName, sortByName, List.map_mergeSort]
  intros
  rfl

theorem sortByName_perm {α : Type} (entries : List (String × α)) :
    (sortByName entries).Perm entries :=
  List.mergeSort_perm entries _

def isWritten (entry : String × Value) : Bool := !(isInternal entry.1 || entry.2.isUnwritable)

/-- The entries of a record that are written, by name. -/
def written (entries : Entries Value) : Entries Value := sortByName (entries.filter isWritten)

theorem mem_written {entries : Entries Value} {entry : String × Value} :
    entry ∈ written entries ↔ entry ∈ entries ∧ isWritten entry = true := by
  rw [written, (sortByName_perm _).mem_iff, List.mem_filter]

theorem nodup_written {entries : Entries Value} (h : (entries.map Prod.fst).Nodup) :
    ((written entries).map Prod.fst).Nodup := by
  rw [written, ((sortByName_perm _).map Prod.fst).nodup_iff]
  exact h.sublist (List.filter_sublist.map Prod.fst)

theorem renderItems_eq (layout : Layout) (level : Nat) (items : List Value) :
    renderItems layout level items = items.map (render layout level) := by
  induction items with
  | nil => rfl
  | cons item items ih => rw [renderItems, List.map_cons, ih]

theorem renderEntries_eq (layout : Layout) (level : Nat) (entries : Entries Value) :
    renderEntries layout level entries =
      (entries.filter isWritten).map fun entry => (entry.1, render layout level entry.2) := by
  induction entries with
  | nil => rfl
  | cons entry entries ih =>
    obtain ⟨key, item⟩ := entry
    rw [renderEntries, ih]
    cases h : isInternal key || item.isUnwritable <;> simp [isWritten, h]

/-- **A record is written as its entries by name.** -/
theorem render_record (layout : Layout) (level : Nat) (entries : Entries Value) :
    render layout level (.record entries) =
      bracketed layout level '\x7b' '\x7d' ((written entries).map fun entry =>
        quoted entry.1 ++ ':' :: (layout.space ++ render layout (level + 1) entry.2)) := by
  rw [render, renderEntries_eq, sortByName_map, List.map_map, written]
  congr 2
  funext entry
  exact member_eq layout _ _

end TemplateExpr.Json

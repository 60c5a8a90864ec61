import Mathlib
import TemplateExpr.Value.Equality

/-!
# Equality of arrays and records

Arrays are equal item by item. For records the order of the entries does not matter: a record equals
another one if its entries, in whatever order, are those of the other with equal values
(`Value.strictEquals_record`).

Values that are alike item by item are compared through lists that are related item by item; the
laws of such lists are kept here too.
-/

namespace TemplateExpr

/-! ## Entries by name -/

namespace Entries

variable {α : Type} {entries others : Entries α}

theorem get?_of_mem (hnodup : (entries.map Prod.fst).Nodup) {key : String} {value : α}
    (h : (key, value) ∈ entries) : get? key entries = some value := by
  induction entries with
  | nil => cases h
  | cons entry entries ih =>
    obtain ⟨k, v⟩ := entry
    rw [List.map_cons, List.nodup_cons] at hnodup
    rw [get?_cons]
    rcases List.mem_cons.mp h with heq | hmem
    · obtain ⟨rfl, rfl⟩ := Prod.mk.inj heq
      rw [if_pos rfl]
    · rw [if_neg, ih hnodup.2 hmem]
      rintro rfl
      exact hnodup.1 (List.mem_map.mpr ⟨_, hmem, rfl⟩)

theorem mem_of_get? {key : String} {value : α} (h : get? key entries = some value) :
    (key, value) ∈ entries := by
  obtain ⟨before, after, rfl, -⟩ := List.lookup_eq_some_iff.mp h
  exact List.mem_append_right before (List.mem_cons_self)

theorem mem_iff_get? (hnodup : (entries.map Prod.fst).Nodup) {entry : String × α} :
    entry ∈ entries ↔ get? entry.1 entries = some entry.2 :=
  ⟨get?_of_mem hnodup, mem_of_get?⟩

theorem insert_of_get?_none {key : String} (value : α) (h : get? key entries = none) :
    insert key value entries = entries ++ [(key, value)] := by
  induction entries with
  | nil => rfl
  | cons entry entries ih =>
    obtain ⟨k, v⟩ := entry
    rw [get?_cons] at h
    split at h
    · cases h
    · next hne => rw [insert, if_neg (Ne.symm hne), ih h, List.cons_append]

theorem get?_append_singleton {key name : String} {value : α} (hne : name ≠ key) :
    get? name (entries ++ [(key, value)]) = get? name entries := by
  rw [get?, List.lookup_append, ← get?, ← get?, get?_cons, if_neg hne, get?_nil, Option.or_none]

end Entries

/-! ## Lists item by item -/

section

variable {α β γ : Type} {related : α → β → Prop} {items : List α} {others : List β}

theorem exists_forall₂ (h : ∀ item ∈ items, ∃ other, related item other) :
    ∃ others, List.Forall₂ related items others := by
  induction items with
  | nil => exact ⟨[], .nil⟩
  | cons item items ih =>
    obtain ⟨other, hother⟩ := h item List.mem_cons_self
    obtain ⟨others, hothers⟩ := ih fun next hnext => h next (List.mem_cons_of_mem item hnext)
    exact ⟨other :: others, .cons hother hothers⟩

theorem exists_left_of_forall₂ (h : List.Forall₂ related items others) {other : β}
    (hmem : other ∈ others) : ∃ item ∈ items, related item other := by
  induction h with
  | nil => cases hmem
  | cons hpair _ ih =>
    rcases List.mem_cons.mp hmem with rfl | hmem
    · exact ⟨_, List.mem_cons_self, hpair⟩
    · obtain ⟨item, hitem, hrelated⟩ := ih hmem
      exact ⟨item, List.mem_cons_of_mem _ hitem, hrelated⟩

theorem forall_of_forall₂ {property : β → Prop} (h : List.Forall₂ related items others)
    (himp : ∀ item other, related item other → property other) :
    ∀ other ∈ others, property other := by
  intro other hmem
  obtain ⟨item, -, hrelated⟩ := exists_left_of_forall₂ h hmem
  exact himp item other hrelated

theorem map_eq_of_forall₂ {f : α → γ} {g : β → γ} (h : List.Forall₂ related items others)
    (hagree : ∀ item ∈ items, ∀ other, related item other → f item = g other) :
    items.map f = others.map g := by
  induction h with
  | nil => rfl
  | cons hpair _ ih =>
    rw [List.forall_mem_cons] at hagree
    rw [List.map_cons, List.map_cons, hagree.1 _ hpair, ih hagree.2]

theorem all_eq_of_forall₂ {p : α → Bool} {q : β → Bool} (h : List.Forall₂ related items others)
    (hagree : ∀ item ∈ items, ∀ other, related item other → p item = q other) :
    items.all p = others.all q := by
  have hmap := congrArg (List.all · id) (map_eq_of_forall₂ h hagree)
  simpa only [List.all_map, Function.id_comp] using hmap

theorem any_eq_of_forall₂ {p : α → Bool} {q : β → Bool} (h : List.Forall₂ related items others)
    (hagree : ∀ item ∈ items, ∀ other, related item other → p item = q other) :
    items.any p = others.any q := by
  have hmap := congrArg (List.any · id) (map_eq_of_forall₂ h hagree)
  simpa only [List.any_map, Function.id_comp] using hmap

end

/-! ## Equal parts -/

namespace Value

theorem itemsEqual_iff {items others : List Value} :
    itemsEqual items others = true ↔
      List.Forall₂ (fun item other => item.strictEquals other = true) items others := by
  induction items generalizing others with
  | nil => cases others <;> simp [itemsEqual]
  | cons item items ih => cases others <;> simp [itemsEqual, ih]

theorem entriesFound_iff {entries others : Entries Value} :
    entriesFound entries others = true ↔
      ∀ entry ∈ entries, ∃ other, Entries.get? entry.1 others = some other ∧
        entry.2.strictEquals other = true := by
  induction entries with
  | nil => simp [entriesFound]
  | cons entry entries ih =>
    obtain ⟨key, value⟩ := entry
    rw [entriesFound, Bool.and_eq_true, ih, List.forall_mem_cons]
    cases Entries.get? key others <;> simp

def EntryEquals (entry other : String × Value) : Prop :=
  entry.1 = other.1 ∧ entry.2.strictEquals other.2 = true

/-- **Records with the same entries are equal**, in whatever order the entries stand. -/
theorem strictEquals_record {entries listed others : Entries Value}
    (hnodup : (others.map Prod.fst).Nodup) (hperm : listed.Perm others)
    (h : List.Forall₂ EntryEquals entries listed) :
    (Value.record entries).strictEquals (.record others) = true := by
  have hfound : ∀ {entries listed : Entries Value}, List.Forall₂ EntryEquals entries listed →
      (∀ entry ∈ listed, entry ∈ others) → entriesFound entries others = true := by
    intro entries listed h hlisted
    rw [entriesFound_iff]
    induction h with
    | nil => exact fun _ hmem => nomatch hmem
    | @cons entry other _ _ hentry _ ih =>
      rw [List.forall_mem_cons] at hlisted ⊢
      refine ⟨⟨other.2, ?_, hentry.2⟩, ih hlisted.2⟩
      rw [hentry.1]
      exact Entries.get?_of_mem hnodup hlisted.1
  rw [strictEquals, Bool.and_eq_true, beq_iff_eq, h.length_eq, hperm.length_eq]
  exact ⟨rfl, hfound h fun _ hmem => hperm.mem_iff.mp hmem⟩

end Value

end TemplateExpr

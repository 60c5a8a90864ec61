import Mathlib
import TemplateExpr.Command
import TemplateExpr.Proofs.Filter.Search
import TemplateExpr.Proofs.Value.Equality

/-!
# Criteria are independent of each other

A record as the pattern is a conjunction of criteria, whatever each of them is. So for an array of
records it does not matter whether criteria are applied at once or one after the other, nor in which
order (`Filter.select_criteria`). For other items it does: an array is kept if one of its items
meets all criteria at once.
-/

namespace TemplateExpr

namespace Entries

/-- That entries have each name of two others, and under it what these have there. -/
structure Union (first second both : Entries Value) : Prop where
  first_distinct : (first.map Prod.fst).Nodup
  second_distinct : (second.map Prod.fst).Nodup
  both_distinct : (both.map Prod.fst).Nodup
  disjoint : ∀ key, get? key first = none ∨ get? key second = none
  get? : ∀ key, get? key both = (get? key first).or (get? key second)

theorem Union.mem_iff {first second both : Entries Value} (h : Union first second both)
    {entry : String × Value} : entry ∈ both ↔ entry ∈ first ∨ entry ∈ second := by
  rw [mem_iff_get? h.first_distinct, mem_iff_get? h.second_distinct, mem_iff_get? h.both_distinct,
    h.get?]
  rcases h.disjoint entry.1 with hnone | hnone
  · rw [hnone, Option.none_or]
    simp
  · rw [hnone, Option.or_none]
    simp

theorem Union.all_eq {first second both : Entries Value} (h : Union first second both)
    (P : String × Value → Bool) : both.all P = (first.all P && second.all P) := by
  rw [Bool.eq_iff_iff, Bool.and_eq_true, List.all_eq_true, List.all_eq_true, List.all_eq_true]
  simp only [h.mem_iff, or_imp, forall_and]

end Entries

namespace Filter

open Value

variable {σ : Type} (host : Host σ)

/-- What a record pattern keeps of an array, where the comparator is not the host's. -/
theorem select_record {comparator : Value} (h : comparator.kind ≠ .function)
    (criteria : Entries Value) (items : List Value) :
    select host (.array items) (.record criteria) comparator =
      pure (.array (items.filter (Pattern.holds (leafTest comparator) (.record criteria)))) :=
  select_items host h (by simp [kind]) items

/-- **Criteria are independent of each other.** An array of records that is filtered by some
criteria and then by others, in either order, is the array filtered by all of them at once; and
filtering again by the same criteria changes nothing. -/
theorem select_criteria {comparator : Value} (hcomparator : comparator.kind ≠ .function)
    {items : List Value} (hrecords : ∀ item ∈ items, item.kind = .object) :
    (∀ first second both : Entries Value, Entries.Union first second both →
      ∃ kept : List Value,
        select host (.array items) (.record both) comparator = pure (.array kept) ∧
        (do
          let narrowed ← select host (.array items) (.record first) comparator
          select host narrowed (.record second) comparator) = pure (.array kept) ∧
        (do
          let narrowed ← select host (.array items) (.record second) comparator
          select host narrowed (.record first) comparator) = pure (.array kept)) ∧
    ∀ criteria : Entries Value, ∃ kept : List Value,
      select host (.array items) (.record criteria) comparator = pure (.array kept) ∧
      select host (.array kept) (.record criteria) comparator = pure (.array kept) := by
  simp only [select_record host hcomparator, pure_bind]
  constructor
  · intro first second both hunion
    have hconjunction : ∀ item ∈ items,
        Pattern.holds (leafTest comparator) (.record both) item =
          (Pattern.holds (leafTest comparator) (.record first) item &&
            Pattern.holds (leafTest comparator) (.record second) item) := by
      intro item hitem
      cases item with
      | record entries =>
        simp only [Pattern.holds_record]
        exact hunion.all_eq _
      | _ => cases hrecords _ hitem
    refine ⟨_, rfl, ?_, ?_⟩
    · rw [List.filter_filter, List.filter_congr hconjunction]
      simp only [Bool.and_comm]
    · rw [List.filter_filter, List.filter_congr hconjunction]
  · intro criteria
    refine ⟨_, rfl, ?_⟩
    rw [List.filter_filter]
    simp only [Bool.and_self]

/-- Any member, an absent criterion, a negated text and a nested record, of which only the third
item meets all. -/
theorem select_criteria_nested :
    let place := fun (name : String) (x : Int64) =>
      record [("name", text name), ("at", record [("x", integer x), ("y", null)])]
    let items := [place "Misko" 2, place "Igor" 12, place "Vojta" 21, place "Anna" 1]
    let first : Entries Value := [("$", text "O"), ("gone", undefined)]
    let second : Entries Value := [("name", text "!igor"), ("at", record [("x", integer 1)])]
    let both : Entries Value :=
      [("at", record [("x", integer 1)]), ("$", text "O"), ("name", text "!igor"),
        ("gone", undefined)]
    Entries.Union first second both ∧ (∀ item ∈ items, item.kind = .object) ∧
      select Host.none (array items) (record both) undefined = pure (array [place "Vojta" 21]) ∧
      (do
        let narrowed ← select Host.none (array items) (record first) undefined
        select Host.none narrowed (record second) undefined) = pure (array [place "Vojta" 21]) ∧
      (do
        let narrowed ← select Host.none (array items) (record second) undefined
        select Host.none narrowed (record first) undefined) = pure (array [place "Vojta" 21]) := by
  intro place items first second both
  have hunion : Entries.Union first second both := {
    first_distinct := by decide
    second_distinct := by decide
    both_distinct := by decide
    disjoint := fun key => by simp only [first, second, Entries.get?_cons, Entries.get?_nil]; grind
    get? := fun key => by
      simp only [first, second, both, Entries.get?_cons, Entries.get?_nil]; grind }
  have hrecords : ∀ item ∈ items, item.kind = .object := by simp [items, place, kind]
  have hkept : items.filter (Pattern.holds (leafTest undefined) (.record both)) =
      [place "Vojta" 21] := by cbv
  have hbuiltin : undefined.kind ≠ .function := by simp [kind]
  have hboth := select_record Host.none hbuiltin both items
  obtain ⟨kept, hall, hfirst, hsecond⟩ :=
    (select_criteria Host.none hbuiltin hrecords).1 first second both hunion
  rw [hkept, hall] at hboth
  exact ⟨hunion, hrecords, hall.trans hboth, hfirst.trans hboth, hsecond.trans hboth⟩

end Filter

end TemplateExpr

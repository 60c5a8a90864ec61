import Mathlib
import TemplateExpr.Command
import TemplateExpr.Proofs.Filter.Search
import TemplateExpr.Proofs.Value.Parts

/-!
# Plain patterns are looked for among the leaves

A pattern that is a text, a number, a boolean or `null` is compared with leaves only: the search
goes through arrays and members, and where it compares a record as a whole the answer is no. So an
item is kept exactly if one of its leaves resembles the pattern (`Filter.select_leaves`).
-/

namespace TemplateExpr

open Text

namespace Value

/-! ## Leaves -/

mutual
/-- The leaves of a value: what is no container, in arrays and in members at any depth. Members with
a dollar sign in front of their names are for bookkeeping and are left out. -/
def leaves : Value → List Value
  | .array items => leavesOfItems items
  | .record entries => leavesOfEntries entries
  | leaf => [leaf]

def leavesOfItems : List Value → List Value
  | [] => []
  | item :: items => item.leaves ++ leavesOfItems items

def leavesOfEntries : List (String × Value) → List Value
  | [] => []
  | (key, value) :: entries =>
    (if key.toList.head? = some '$' then [] else value.leaves) ++ leavesOfEntries entries
end

theorem mem_leaves_atom {value leaf : Value} (h : value.isContainer = false) :
    leaf ∈ value.leaves ↔ leaf = value := by
  cases value with
  | array | record => cases h
  | _ => exact List.mem_singleton

theorem mem_leaves_array {items : List Value} {leaf : Value} :
    leaf ∈ (Value.array items).leaves ↔ ∃ item ∈ items, leaf ∈ item.leaves := by
  rw [leaves]
  induction items with
  | nil => simp [leavesOfItems]
  | cons item items ih => simp [leavesOfItems, ih]

theorem mem_leaves_record {entries : Entries Value} {leaf : Value} :
    leaf ∈ (Value.record entries).leaves ↔
      ∃ entry ∈ entries, entry.1.toList.head? ≠ some '$' ∧ leaf ∈ entry.2.leaves := by
  rw [leaves]
  induction entries with
  | nil => simp [leavesOfEntries]
  | cons entry entries ih =>
    obtain ⟨key, value⟩ := entry
    by_cases hkey : key.toList.head? = some '$' <;> simp [leavesOfEntries, ih, hkey]

/-! ## Resemblance -/

/-- When a leaf resembles a pattern: `null` resembles `null`, and anything else that is there, but a
function, whatever has its text in its own, where case makes no difference. -/
def Resembles (pattern leaf : Value) : Prop :=
  leaf.kind ≠ .undefined ∧ leaf.kind ≠ .function ∧
    (leaf.kind = .null ∧ pattern.kind = .null ∨
      leaf.kind ≠ .null ∧ pattern.kind ≠ .null ∧
        lowercase pattern.display.toList <:+: lowercase leaf.display.toList)

instance (pattern leaf : Value) : Decidable (Resembles pattern leaf) :=
  inferInstanceAs (Decidable (_ ∧ _))

/-- What is looked for as it is: `null`, a boolean, a number, or a text without an exclamation mark
in front. -/
def IsPlain : Value → Prop
  | .null | .boolean _ | .integer _ | .float _ => True
  | .text s => s.toList.head? ≠ some '!'
  | _ => False

end Value

namespace Pattern

open Value

theorem similar_iff {pattern leaf : Value} (hpattern : pattern.isContainer = false)
    (hleaf : leaf.isContainer = false) (hfunction : leaf.kind ≠ .function) :
    similar leaf pattern = true ↔ pattern.Resembles leaf := by
  unfold Resembles
  cases leaf <;> cases pattern <;>
    first
    | exact absurd hpattern Bool.noConfusion
    | exact absurd hleaf Bool.noConfusion
    | exact absurd rfl hfunction
    | simp [similar, kind, strictEquals, isContainer, occursIn_iff]

theorem similar_record (entries : Entries Value) (pattern : Value) :
    similar (.record entries) pattern = false := by
  cases pattern <;> rfl

/-- **The search is a search among leaves.** -/
theorem found_leaves {pattern : Value} (hpattern : pattern.isContainer = false) (item : Value) :
    found similar pattern item true true = true ↔
      ∃ leaf ∈ item.leaves, pattern.Resembles leaf := by
  induction item using Value.byParts with
  | atom item hitem =>
    simp only [mem_leaves_atom hitem, exists_eq_left]
    by_cases hfunction : item.kind = .function
    · cases item <;> cases hfunction
      simp [found_function, Resembles, kind]
    · rw [found_leaf hitem hfunction, similar_iff hpattern hitem hfunction]
  | array items ih =>
    rw [found_array, List.any_eq_true]
    simp only [mem_leaves_array]
    constructor
    · rintro ⟨item, hitem, hfound⟩
      obtain ⟨leaf, hleaf, hresembles⟩ := (ih item hitem).mp hfound
      exact ⟨leaf, ⟨item, hitem, hleaf⟩, hresembles⟩
    · rintro ⟨leaf, ⟨item, hitem, hleaf⟩, hresembles⟩
      exact ⟨item, hitem, (ih item hitem).mpr ⟨leaf, hleaf, hresembles⟩⟩
  | record entries ih =>
    -- As a whole the record would be compared with the pattern, which fails.
    have hkind : pattern.kind ≠ .object := by
      cases pattern with
      | record => cases hpattern
      | _ => simp [kind]
    rw [found_record_among, alike_plain hkind, similar_record, Bool.and_false, Bool.or_false,
      List.any_eq_true]
    simp only [mem_leaves_record, Bool.and_eq_true, decide_eq_true_iff]
    constructor
    · rintro ⟨entry, hentry, hkey, hfound⟩
      obtain ⟨leaf, hleaf, hresembles⟩ := (ih entry hentry).mp hfound
      exact ⟨leaf, ⟨entry, hentry, hkey, hleaf⟩, hresembles⟩
    · rintro ⟨leaf, ⟨entry, hentry, hkey, hleaf⟩, hresembles⟩
      exact ⟨entry, hentry, hkey, (ih entry hentry).mpr ⟨leaf, hleaf, hresembles⟩⟩

theorem stripNegations_of_isPlain {s : String} (h : (Value.text s).IsPlain) :
    stripNegations s = (0, s) := by
  have hnone : s.toList.takeWhile (· == '!') = [] := by
    cases hs : s.toList with
    | nil => rfl
    | cons c rest =>
      have hc : c ≠ '!' := by
        rintro rfl
        exact h (by rw [hs]; rfl)
      simp [hc]
  simp [stripNegations, hnone]

/-- **A plain pattern keeps the items with a leaf that resembles it.** -/
theorem holds_leaves {pattern : Value} (hpattern : pattern.IsPlain) (item : Value) :
    holds similar pattern item = true ↔ ∃ leaf ∈ item.leaves, pattern.Resembles leaf := by
  cases pattern with
  | undefined | array | record | function => exact hpattern.elim
  | text s =>
    rw [holds_plain (by simp [kind]), matched_text, stripNegations_of_isPlain hpattern]
    simpa using found_leaves rfl item
  | _ =>
    rw [holds_plain (by simp [kind]), matched_plain (by simp [kind])]
    exact found_leaves rfl item

end Pattern

namespace Filter

open Value

variable {σ : Type} (host : Host σ)

theorem similar_of_ofValue {comparator : Value} (h : Comparator.ofValue comparator = .similar) :
    comparator.kind ≠ .function ∧ leafTest comparator = Pattern.similar := by
  cases comparator with
  | function => cases h
  | boolean b =>
    cases b with
    | true => cases h
    | false => exact ⟨by simp [kind], rfl⟩
  | _ => exact ⟨by simp [kind], rfl⟩

/-- **A plain pattern is looked for among the leaves.** With the usual comparator the items that are
kept are those with a leaf that resembles the pattern, in their order; and an exclamation mark in
front of any text keeps the others. -/
theorem select_leaves {comparator : Value} (h : Comparator.ofValue comparator = .similar) :
    (∀ (pattern : Value) (items : List Value), pattern.IsPlain →
      select host (.array items) pattern comparator =
        pure (.array (items.filter fun item => ∃ leaf ∈ item.leaves, pattern.Resembles leaf))) ∧
    ∀ text : String, ∃ keeps : Value → Bool, ∀ items : List Value,
      select host (.array items) (.text text) comparator = pure (.array (items.filter keeps)) ∧
      select host (.array items) (.text ("!" ++ text)) comparator =
        pure (.array (items.filter fun item => !keeps item)) := by
  obtain ⟨hkind, htest⟩ := similar_of_ofValue h
  constructor
  · intro pattern items hpattern
    have hfilter : items.filter (Pattern.holds Pattern.similar pattern) =
        items.filter fun item => ∃ leaf ∈ item.leaves, pattern.Resembles leaf :=
      List.filter_congr fun item _ =>
        Bool.eq_iff_iff.mpr ((Pattern.holds_leaves hpattern item).trans decide_eq_true_iff.symm)
    rw [← hfilter, ← htest]
    cases pattern with
    | undefined | array | record | function => exact hpattern.elim
    | _ => exact select_items host hkind (by simp [kind]) items
  · intro text
    refine ⟨Pattern.holds Pattern.similar (.text text), fun items => ⟨?_, ?_⟩⟩
    · rw [select_items host hkind (by simp [kind]) items, htest]
    · have hmarked : Pattern.holds Pattern.similar (.text ("!" ++ text)) =
          fun item => !Pattern.holds Pattern.similar (.text text) item := by
        funext item
        rw [Pattern.holds_plain (by simp [kind]), Pattern.holds_plain (by simp [kind]),
          Pattern.matched_marked]
      rw [select_items host hkind (by simp [kind]) items, htest, hmarked]

/-- A leaf in an array in a record, one under a name for bookkeeping, and an item without leaves. -/
theorem select_leaves_nested :
    let nested := record [("a", array [null, text "WXYZ"])]
    let items := [nested, record [("$b", text "xy")], text "xY", null, array []]
    select Host.none (array items) (text "Xy") undefined = pure (array [nested, text "xY"]) ∧
      ∃ keeps : Value → Bool,
        select Host.none (array items) (text "!Xy") undefined =
          pure (array (items.filter keeps)) ∧
        select Host.none (array items) (text "!!Xy") undefined =
          pure (array (items.filter fun item => !keeps item)) := by
  intro nested items
  have husual : Comparator.ofValue undefined = .similar := rfl
  obtain ⟨hplain, hmarked⟩ := select_leaves Host.none husual
  obtain ⟨keeps, hkeeps⟩ := hmarked "!Xy"
  refine ⟨?_, keeps, hkeeps items⟩
  rw [hplain (text "Xy") items (by simp [IsPlain])]
  rfl

end Filter

end TemplateExpr

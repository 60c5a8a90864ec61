import Mathlib
import TemplateExpr.Proofs.Number.Line
import TemplateExpr.Proofs.Value.Equality
import TemplateExpr.Proofs.Value.Parts
import TemplateExpr.Value.Operator

/-!
# Both equalities are symmetric

Strict equality finds the entries of one record in the other. Names being distinct and entries
equally many, all entries of the other are found as well, so it does not matter which record comes
first (`Value.strictEquals_swap`). Loose equality is symmetric with it, and holds wherever the
strict one does. It compares anew when it has replaced a boolean by its number, which happens at
most twice (`Value.equality_laws`).
-/

namespace TemplateExpr

open Number

namespace Value

/-! ## Strict equality -/

theorem names_perm {entries others : Entries Value} (hnodup : (entries.map Prod.fst).Nodup)
    (hlength : entries.length = others.length) (hfound : entriesFound entries others = true) :
    (entries.map Prod.fst).Perm (others.map Prod.fst) := by
  have hsubset : entries.map Prod.fst ⊆ others.map Prod.fst := by
    intro name hname
    obtain ⟨entry, hentry, rfl⟩ := List.mem_map.mp hname
    obtain ⟨other, hget, -⟩ := entriesFound_iff.mp hfound entry hentry
    exact List.mem_map.mpr ⟨_, Entries.mem_of_get? hget, rfl⟩
  refine (List.subperm_of_subset hnodup hsubset).perm_of_length_le ?_
  rw [List.length_map, List.length_map, hlength]

/-- **Strict equality may be swapped.** -/
theorem strictEquals_swap {left : Value} :
    ∀ {right : Value}, left.NamesDistinct → left.strictEquals right = true →
      right.strictEquals left = true := by
  induction left using Value.byParts with
  | atom left hatom =>
    intro right _ h
    cases left <;> cases hatom <;> cases right <;>
      first
      | exact h
      | cases h
      | simpa only [strictEquals, BEq.comm, beq_swap] using h
  | array items ih =>
    intro right hnames h
    cases right with
    | array others =>
      rw [strictEquals, itemsEqual_iff] at h ⊢
      rw [namesDistinct_array] at hnames
      have hboth := (List.forall₂_and_left items others).mpr ⟨fun item hitem => hitem, h⟩
      exact (hboth.imp fun item other hpair => ih item hpair.1 (hnames item hpair.1) hpair.2).flip
    | _ => cases h
  | record entries ih =>
    intro right hnames h
    cases right with
    | record others =>
      rw [strictEquals, Bool.and_eq_true, beq_iff_eq] at h ⊢
      obtain ⟨hlength, hfound⟩ := h
      obtain ⟨hnodup, hnames⟩ := namesDistinct_record.mp hnames
      have hperm := names_perm hnodup hlength hfound
      refine ⟨hlength.symm, entriesFound_iff.mpr fun other hother => ?_⟩
      obtain ⟨entry, hentry, hname⟩ :=
        List.mem_map.mp (hperm.mem_iff.mpr (List.mem_map_of_mem hother))
      obtain ⟨found, hget, hequal⟩ := entriesFound_iff.mp hfound entry hentry
      -- Names are distinct in the other record too, so what was found is this entry.
      rw [hname, Entries.get?_of_mem (hperm.nodup_iff.mp hnodup) hother] at hget
      obtain rfl := Option.some.inj hget
      refine ⟨entry.2, ?_, ih entry hentry (hnames entry hentry) hequal⟩
      rw [← hname]
      exact Entries.get?_of_mem hnodup hentry
    | _ => cases h

theorem strictEquals_comm {left right : Value} (hleft : left.NamesDistinct)
    (hright : right.NamesDistinct) : left.strictEquals right = right.strictEquals left :=
  Bool.eq_iff_iff.mpr ⟨strictEquals_swap hleft, strictEquals_swap hright⟩

theorem kind_eq_of_strictEquals {left right : Value} (h : left.strictEquals right = true) :
    left.kind = right.kind := by
  cases left <;> cases right <;> first | rfl | cases h

/-! ## Loose equality -/

def TextWithNumber (left right : Value) : Prop :=
  left.kind = .string ∧ right.kind = .number ∨ left.kind = .number ∧ right.kind = .string

/-- What is not absent or `null` is compared by number if it is a text and a number, and strictly
otherwise. -/
theorem looseEquals_cases {left right : Value} (hleft : left.isNullish = false)
    (hright : right.isNullish = false) :
    TextWithNumber left.booleanAsNumber right.booleanAsNumber ∧
        looseEquals left right =
          (left.booleanAsNumber.toNumber == right.booleanAsNumber.toNumber) ∨
      ¬TextWithNumber left.booleanAsNumber right.booleanAsNumber ∧
        looseEquals left right = left.booleanAsNumber.strictEquals right.booleanAsNumber := by
  rw [looseEquals, hleft, hright]
  simp only [Bool.or_self, Bool.false_eq_true, if_false]
  cases left.booleanAsNumber <;> cases right.booleanAsNumber <;> simp [TextWithNumber, kind]

theorem looseEquals_of_isNullish {left right : Value}
    (h : left.isNullish = true ∨ right.isNullish = true) :
    looseEquals left right = (left.isNullish && right.isNullish) := by
  rw [looseEquals, if_pos (Bool.or_eq_true _ _ ▸ h)]

theorem NamesDistinct.booleanAsNumber {value : Value} (h : value.NamesDistinct) :
    value.booleanAsNumber.NamesDistinct := by
  cases value with
  | boolean b => exact namesDistinct_of_atom rfl
  | _ => exact h

theorem looseEquals_comm {left right : Value} (hleft : left.NamesDistinct)
    (hright : right.NamesDistinct) : looseEquals left right = looseEquals right left := by
  by_cases hnullish : left.isNullish = true ∨ right.isNullish = true
  · rw [looseEquals_of_isNullish hnullish, looseEquals_of_isNullish hnullish.symm, Bool.and_comm]
  · rw [not_or, Bool.not_eq_true, Bool.not_eq_true] at hnullish
    have hswap : ∀ {l r : Value}, TextWithNumber l r → TextWithNumber r l := by
      rintro l r (⟨hl, hr⟩ | ⟨hl, hr⟩)
      · exact .inr ⟨hr, hl⟩
      · exact .inl ⟨hr, hl⟩
    rcases looseEquals_cases hnullish.1 hnullish.2 with ⟨htext, h⟩ | ⟨htext, h⟩ <;>
      rcases looseEquals_cases hnullish.2 hnullish.1 with ⟨htext', h'⟩ | ⟨htext', h'⟩
    · rw [h, h', beq_swap]
    · exact absurd (hswap htext) htext'
    · exact absurd (hswap htext') htext
    · rw [h, h', strictEquals_comm hleft.booleanAsNumber hright.booleanAsNumber]

/-- **What is strictly equal is loosely equal.** -/
theorem looseEquals_of_strictEquals {left right : Value} (h : left.strictEquals right = true) :
    looseEquals left right = true := by
  have hkind := kind_eq_of_strictEquals h
  by_cases hnullish : left.isNullish = true ∨ right.isNullish = true
  · rw [looseEquals_of_isNullish hnullish]
    cases left <;> cases right <;> simp_all [isNullish, kind]
  · rw [not_or, Bool.not_eq_true, Bool.not_eq_true] at hnullish
    have hstrict : left.booleanAsNumber.strictEquals right.booleanAsNumber = true := by
      cases left with
      | boolean b =>
        cases right with
        | boolean c =>
          obtain rfl := beq_iff_eq.mp h
          cases b <;> decide
        | _ => cases h
      | _ =>
        cases right with
        | boolean c => cases h
        | _ => exact h
    rcases looseEquals_cases hnullish.1 hnullish.2 with ⟨htext, -⟩ | ⟨-, heq⟩
    · have hkind' := kind_eq_of_strictEquals hstrict
      rcases htext with ⟨hl, hr⟩ | ⟨hl, hr⟩ <;> rw [hl, hr] at hkind' <;> cases hkind'
    · rw [heq, hstrict]

/-! ## The cases of loose equality -/

/-- Loose equality case by case, where the first that fits decides. A boolean is replaced by its
number and the pair compared anew. There is an answer if it is reached at less than the given
depth. -/
def looselyCompared : Nat → Value → Value → Option Bool
  | 0, _, _ => none
  | depth + 1, left, right =>
    if left.isNullish || right.isNullish then some (left.isNullish && right.isNullish)
    else
      match left, right with
      | .boolean _, _ => looselyCompared depth (.float left.toNumber) right
      | _, .boolean _ => looselyCompared depth left (.float right.toNumber)
      | .text _, .integer _ | .text _, .float _ | .integer _, .text _ | .float _, .text _ =>
        some (left.toNumber == right.toNumber)
      | _, _ => some (left.strictEquals right)

def booleans (left right : Value) : Nat :=
  [left, right].countP fun value => value.kind = .boolean

theorem booleans_left (b : Bool) (x : Float) (right : Value) :
    booleans (.boolean b) right = booleans (.float x) right + 1 := by
  simp [booleans, List.countP_cons, kind]

theorem booleans_right (left : Value) (b : Bool) (x : Float) :
    booleans left (.boolean b) = booleans left (.float x) + 1 := by
  simp [booleans, List.countP_cons, kind, Nat.add_comm]

/-- **The cases are loose equality.** Each comparison anew has a boolean less. -/
theorem looselyCompared_eq {depth : Nat} {left right : Value} (h : booleans left right < depth) :
    looselyCompared depth left right = some (looseEquals left right) := by
  induction depth generalizing left right with
  | zero => cases h
  | succ depth ih =>
    unfold looselyCompared
    by_cases hnullish : (left.isNullish || right.isNullish) = true
    · rw [if_pos hnullish, looseEquals, if_pos hnullish]
    · rw [if_neg hnullish]
      cases left with
      | boolean b =>
        rw [booleans_left b (toNumber (.boolean b))] at h
        exact ih (Nat.lt_of_succ_lt_succ h)
      | undefined | null => exact absurd rfl hnullish
      | _ =>
        cases right with
        | boolean b =>
          rw [booleans_right _ b (toNumber (.boolean b))] at h
          exact ih (Nat.lt_of_succ_lt_succ h)
        | undefined | null => exact absurd rfl hnullish
        | _ => rfl

/-! ## The laws -/

/-- **Laws of the two equalities.** Both are symmetric, the strict one implies the loose one, and
the loose one has its answer when two booleans were replaced, whichever the values are. -/
theorem equality_laws {left right : Value} (hleft : left.NamesDistinct)
    (hright : right.NamesDistinct) :
    applyBinary .equal left right = applyBinary .equal right left ∧
      applyBinary .strictEqual left right = applyBinary .strictEqual right left ∧
      (applyBinary .strictEqual left right = .boolean true →
        applyBinary .equal left right = .boolean true) ∧
      ∀ depth, 2 < depth →
        (looselyCompared depth left right).map .boolean = some (applyBinary .equal left right) := by
  refine ⟨?_, ?_, ?_, ?_⟩
  · exact congrArg boolean (looseEquals_comm hleft hright)
  · exact congrArg boolean (strictEquals_comm hleft hright)
  · intro h
    exact congrArg boolean (looseEquals_of_strictEquals (boolean.inj h))
  · intro depth hdepth
    have hbooleans : booleans left right ≤ 2 := List.countP_le_length
    rw [looselyCompared_eq (hbooleans.trans_lt hdepth)]
    rfl

/-- Two records in two orders, with records in two orders inside and an integer beside its float. -/
theorem equality_laws_nested :
    let left := record [("a", array [record [("x", integer 1), ("y", boolean true)]]), ("b", null)]
    let right := record [("b", null), ("a", array [record [("y", boolean true), ("x", float 1)]])]
    left.NamesDistinct ∧ right.NamesDistinct ∧
      applyBinary .strictEqual left right = .boolean true ∧
      applyBinary .strictEqual right left = .boolean true ∧
      applyBinary .equal left right = .boolean true ∧
      applyBinary .equal right left = .boolean true := by
  intro left right
  have hone : (integer 1).NamesDistinct ∧ (float 1).NamesDistinct :=
    ⟨namesDistinct_of_atom rfl, namesDistinct_of_atom rfl⟩
  have hrest : (boolean true).NamesDistinct ∧ null.NamesDistinct :=
    ⟨namesDistinct_of_atom rfl, namesDistinct_of_atom rfl⟩
  have hleft : left.NamesDistinct := by
    simp [left, namesDistinct_record, namesDistinct_array, hone, hrest]
  have hright : right.NamesDistinct := by
    simp [right, namesDistinct_record, namesDistinct_array, hone, hrest]
  obtain ⟨hloose, hstrict, himplies, -⟩ := equality_laws hleft hright
  have hsame : applyBinary .strictEqual left right = .boolean true :=
    congrArg boolean (by decide +kernel)
  exact ⟨hleft, hright, hsame, hstrict ▸ hsame, himplies hsame, hloose ▸ himplies hsame⟩

end Value

end TemplateExpr

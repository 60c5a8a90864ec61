import Mathlib
import TemplateExpr.Proofs.Number.Line
import TemplateExpr.Value.Operator

/-!
# Comparing numbers

Two integers are compared as they are, and an integer is compared with a float after it has been
rounded to one. Rounding keeps the order, so the comparisons are coherent unless a float stands
between two integers that are both rounded to it (`Merges`). Such a pair is the one exception to
both transitive laws, and it needs an integer beyond `2 ^ 53` (`comparison_coherent`).
-/

namespace TemplateExpr

open Number

namespace Value

/-- That a value is a number: an integer, or a float that is a number. -/
inductive Numeric : Value → Prop
  | integer (n : Int64) : Numeric (.integer n)
  | float {x : Float} (h : x.isNaN = false) : Numeric (.float x)

/-- That strict equality holds between two values. -/
def Same (left right : Value) : Prop := applyBinary .strictEqual left right = .boolean true

/-- That a value compares as no larger than another. -/
def AtMost (left right : Value) : Prop := applyBinary .lessEqual left right = .boolean true

/-- That a float stands between two integers, the first of them the larger, and both are rounded to
it. -/
def Merges (above middle below : Value) : Prop :=
  ∃ (m n : Int64) (x : Float), above = .integer m ∧ middle = .float x ∧ below = .integer n ∧ n < m ∧
    (ofWord m == x) = true ∧ (ofWord n == x) = true

/-! ## Integers -/

theorem same_iff {a b : Value} : Same a b ↔ a.strictEquals b = true := by
  simp [Same, applyBinary]

theorem atMost_iff {a b : Value} : AtMost a b ↔ compareBy .atMost a b = true := by
  simp [AtMost, applyBinary]

theorem same_integers {m n : Int64} : Same (.integer m) (.integer n) ↔ m = n := by
  rw [same_iff, strictEquals, beq_iff_eq]

theorem atMost_integers {m n : Int64} : AtMost (.integer m) (.integer n) ↔ m ≤ n := by
  have horder : order? (.integer m) (.integer n) = some (compareOfLessAndEq m n) := rfl
  simp only [atMost_iff, compareBy, horder, bne_iff_ne, compareOfLessAndEq, Int64.lt_iff_toInt_lt,
    Int64.le_iff_toInt_le, ← Int64.toInt_inj]
  rcases lt_trichotomy m.toInt n.toInt with hlt | heq | hgt
  · simp [hlt, hlt.le]
  · simp [heq]
  · simp [hgt, hgt.not_gt, hgt.ne']

/-! ## The place of a number -/

def rank (v : Value) : Int := place v.toNumber

theorem rank_integer_mono {m n : Int64} (h : m ≤ n) : rank (.integer m) ≤ rank (.integer n) :=
  place_ofInt_mono (Int64.le_iff_toInt_le.mp h)

theorem Numeric.isNaN_toNumber {v : Value} (h : v.Numeric) : v.toNumber.isNaN = false := by
  cases h with
  | integer n => exact isNaN_ofInt n.toInt
  | float h => exact h

theorem floatOrder?_eq {x y : Float} (hx : x.isNaN = false) (hy : y.isNaN = false) :
    floatOrder? x y = some (compare (place x) (place y)) := by
  simp only [floatOrder?, lt_iff_place hx hy, lt_iff_place hy hx, beq_iff_place hx hy]
  rcases lt_trichotomy (place x) (place y) with hlt | heq | hgt
  · rw [if_pos hlt, compare_lt_iff_lt.mpr hlt]
  · rw [if_neg heq.not_lt, if_neg heq.not_gt, if_pos heq, compare_eq_iff_eq.mpr heq]
  · rw [if_neg hgt.not_gt, if_pos hgt, compare_gt_iff_gt.mpr hgt]

section

variable {a b : Value} (ha : a.Numeric) (hb : b.Numeric)

include ha hb

/-- Numbers are compared as integers, or at their places if one of them is a float. -/
theorem compared_cases :
    (∃ m n, a = .integer m ∧ b = .integer n) ∨
      (Same a b ↔ rank a = rank b) ∧ (AtMost a b ↔ rank a ≤ rank b) := by
  have hx := ha.isNaN_toNumber
  have hy := hb.isNaN_toNumber
  have horder : order? a b = floatOrder? a.toNumber b.toNumber →
      (AtMost a b ↔ rank a ≤ rank b) := by
    intro h
    simp only [atMost_iff, compareBy, h, floatOrder?_eq hx hy, bne_iff_ne]
    exact compare_le_iff_le
  have hequal : a.strictEquals b = (a.toNumber == b.toNumber) → (Same a b ↔ rank a = rank b) := by
    intro h
    rw [same_iff, h]
    exact beq_iff_place hx hy
  cases ha with
  | integer m =>
    cases hb with
    | integer n => exact .inl ⟨m, n, rfl, rfl⟩
    | float _ => exact .inr ⟨hequal rfl, horder rfl⟩
  | float _ =>
    cases hb with
    | integer n =>
      refine .inr ⟨hequal ?_, horder rfl⟩
      rw [strictEquals, beq_swap]
      rfl
    | float _ => exact .inr ⟨hequal rfl, horder rfl⟩

theorem AtMost.rank_le (h : AtMost a b) : rank a ≤ rank b := by
  rcases compared_cases ha hb with ⟨m, n, rfl, rfl⟩ | ⟨-, hle⟩
  · exact rank_integer_mono (atMost_integers.mp h)
  · exact hle.mp h

/-- **Strictly equal is no larger and no smaller.** -/
theorem atMost_antisymm_iff : AtMost a b ∧ AtMost b a ↔ Same a b := by
  rcases compared_cases ha hb with ⟨m, n, rfl, rfl⟩ | ⟨hsame, hle⟩
  · rw [atMost_integers, atMost_integers, same_integers]
    exact Int64.le_antisymm_iff.symm
  · rcases compared_cases hb ha with ⟨m, n, rfl, rfl⟩ | ⟨-, hle'⟩
    · rw [atMost_integers, atMost_integers, same_integers]
      exact Int64.le_antisymm_iff.symm
    · rw [hsame, hle, hle']
      exact le_antisymm_iff.symm

end

/-! ## Transitivity -/

/-- Two integers that are rounded to one float are not both within `2 ^ 53`. -/
theorem Merges.beyond {a b c : Value} (h : Merges a b c) :
    ∃ n : Int64, (a = .integer n ∨ c = .integer n) ∧ 2 ^ 53 < n.toInt.natAbs := by
  obtain ⟨m, n, x, rfl, rfl, rfl, hlt, hm, hn⟩ := h
  have hx := (isNaN_of_beq hm).2
  have hplace : place (ofInt m.toInt) = place (ofInt n.toInt) :=
    ((beq_iff_place (isNaN_ofInt _) hx).mp hm).trans
      ((beq_iff_place (isNaN_ofInt _) hx).mp hn).symm
  by_cases hmlarge : 2 ^ 53 < m.toInt.natAbs
  · exact ⟨m, .inl rfl, hmlarge⟩
  by_cases hnlarge : 2 ^ 53 < n.toInt.natAbs
  · exact ⟨n, .inr rfl, hnlarge⟩
  have hsame := place_ofInt_injective (not_lt.mp hmlarge) (not_lt.mp hnlarge) hplace
  have hless := Int64.lt_iff_toInt_lt.mp hlt
  omega

section

variable {a b c : Value} (ha : a.Numeric) (hb : b.Numeric) (hc : c.Numeric)

include ha hb hc

theorem atMost_trans_iff (hab : AtMost a b) (hbc : AtMost b c) : AtMost a c ↔ ¬Merges a b c := by
  constructor
  · rintro hac ⟨m, n, x, rfl, rfl, rfl, hlt, -, -⟩
    exact Int64.not_le.mpr hlt (atMost_integers.mp hac)
  · intro hmerges
    have hrank := hab.rank_le ha hb
    have hrank' := hbc.rank_le hb hc
    rcases compared_cases ha hc with ⟨m, n, rfl, rfl⟩ | ⟨-, hle⟩
    · rw [atMost_integers]
      by_contra hnot
      have hlt : n < m := Int64.not_le.mp hnot
      cases hb with
      | integer k =>
        exact hnot (Int64.le_trans (atMost_integers.mp hab) (atMost_integers.mp hbc))
      | @float x hx =>
        -- Rounding keeps the order, so all three are at one place.
        have hback := rank_integer_mono (Int64.le_of_lt hlt)
        refine hmerges ⟨m, n, x, rfl, rfl, rfl, hlt, ?_, ?_⟩
        · exact (beq_iff_place ha.isNaN_toNumber hx).mpr (hrank.antisymm (hrank'.trans hback))
        · exact (beq_iff_place hc.isNaN_toNumber hx).mpr ((hback.trans hrank).antisymm hrank')
    · exact hle.mpr (hrank.trans hrank')

theorem same_trans_iff (hab : Same a b) (hbc : Same b c) :
    Same a c ↔ ¬(Merges a b c ∨ Merges c b a) := by
  have hba := (atMost_antisymm_iff ha hb).mpr hab
  have hcb := (atMost_antisymm_iff hb hc).mpr hbc
  rw [← atMost_antisymm_iff ha hc, atMost_trans_iff ha hb hc hba.1 hcb.1,
    atMost_trans_iff hc hb ha hcb.2 hba.2, not_or]

/-- **Equality and order of numbers are coherent, rounding apart.** Equality is reflexive and
symmetric, and it is being no larger and no smaller. Both are transitive exactly if the number
between is not a float that merges the two others, and these are never both within `2 ^ 53`. -/
theorem comparison_coherent :
    Same a a ∧ (Same a b ↔ Same b a) ∧ (AtMost a b ∧ AtMost b a ↔ Same a b) ∧
      (Same a b → Same b c → (Same a c ↔ ¬(Merges a b c ∨ Merges c b a))) ∧
      (AtMost a b → AtMost b c → (AtMost a c ↔ ¬Merges a b c)) ∧
      (Merges a b c →
        ∃ n : Int64, (a = .integer n ∨ c = .integer n) ∧ 2 ^ 53 < n.toInt.natAbs) := by
  refine ⟨?_, ?_, atMost_antisymm_iff ha hb, same_trans_iff ha hb hc, atMost_trans_iff ha hb hc,
    Merges.beyond⟩
  · rcases compared_cases ha ha with ⟨m, n, rfl, heq⟩ | ⟨hsame, -⟩
    · exact same_integers.mpr rfl
    · exact hsame.mpr rfl
  · rw [← atMost_antisymm_iff ha hb, ← atMost_antisymm_iff hb ha, and_comm]

end

/-- The greatest integer within the bound, the float of the bound and the bound itself. -/
theorem comparison_coherent_within :
    AtMost (.integer 9007199254740991) (.float 9007199254740992) ∧
      AtMost (.float 9007199254740992) (.integer 9007199254740992) ∧
      AtMost (.integer 9007199254740991) (.integer 9007199254740992) := by
  have hab : AtMost (.integer 9007199254740991) (.float 9007199254740992) :=
    atMost_iff.mpr (by decide +kernel)
  have hbc : AtMost (.float 9007199254740992) (.integer 9007199254740992) :=
    atMost_iff.mpr (by decide +kernel)
  have hnumber : Numeric (.float 9007199254740992) := .float (by decide +kernel)
  obtain ⟨-, -, -, -, htrans, hbeyond⟩ := comparison_coherent (.integer 9007199254740991) hnumber
    (.integer 9007199254740992)
  refine ⟨hab, hbc, (htrans hab hbc).mpr fun hmerges => ?_⟩
  obtain ⟨n, hn, hlarge⟩ := hbeyond hmerges
  rcases hn with hn | hn <;> obtain rfl := integer.inj hn <;> exact absurd hlarge (by decide)

/-- **Past the bound two integers that differ equal one float**: neither law is transitive. -/
theorem float_merges_integers :
    Same (.integer 9007199254740993) (.float 9007199254740992) ∧
      Same (.float 9007199254740992) (.integer 9007199254740992) ∧
      ¬Same (.integer 9007199254740993) (.integer 9007199254740992) ∧
      AtMost (.integer 9007199254740993) (.float 9007199254740992) ∧
      AtMost (.float 9007199254740992) (.integer 9007199254740992) ∧
      ¬AtMost (.integer 9007199254740993) (.integer 9007199254740992) := by
  simp only [same_iff, atMost_iff]
  decide +kernel

end Value

end TemplateExpr

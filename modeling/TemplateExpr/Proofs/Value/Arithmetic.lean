import Mathlib
import TemplateExpr.Proofs.Number.Plain
import TemplateExpr.Value.Operator

/-!
# Arithmetic on integers

What the five operations make of two integers, against the exact result in the rational numbers. An
exact result that is an integer of the language is the result, and otherwise the operation on floats
gives it (`Value.integer_arithmetic_exact`). One pair is the exception: the remainder of the least
integer by minus one is taken from floats although it is zero, since the quotient that goes with it
is out of range.
-/

namespace TemplateExpr

open Number

namespace Number

theorem toWord?_eq_some_iff {n : Int} {word : Int64} : toWord? n = some word ↔ word.toInt = n := by
  constructor
  · exact toWord?_eq_some
  · rintro rfl
    have hrange : minInt ≤ word.toInt ∧ word.toInt ≤ maxInt :=
      ⟨Int64.le_toInt word, Int64.toInt_le word⟩
    rw [toWord?, if_pos hrange, Int64.ofInt_toInt]

theorem exists_toWord?_iff {n : Int} :
    (∃ word, toWord? n = some word) ↔ minInt ≤ n ∧ n ≤ maxInt := by
  rw [toWord?]
  split <;> simp [*]

end Number

/-! ## Exact results -/

namespace Arithmetic

def operator : Arithmetic → BinaryOp
  | .add => .add
  | .subtract => .subtract
  | .multiply => .multiply
  | .divide => .divide
  | .modulo => .modulo

/-- The exact value of an operation on integers. Nothing is divided by zero; a remainder has the
sign of what is divided. -/
def value? (op : Arithmetic) (a b : Int) : Option ℚ :=
  match op with
  | .add => some (a + b)
  | .subtract => some (a - b)
  | .multiply => some (a * b)
  | .divide => if b = 0 then none else some (a / b)
  | .modulo => if b = 0 then none else some (a.tmod b)

/-- The remainder of the least integer by minus one. -/
def LeastByMinusOne (op : Arithmetic) (a b : Int) : Prop :=
  op = .modulo ∧ a = minInt ∧ b = -1

theorem value?_divide_eq_some_iff {a b n : Int} :
    value? .divide a b = some (n : ℚ) ↔ (b ≠ 0 ∧ a.tmod b = 0) ∧ a.tdiv b = n := by
  rw [value?]
  by_cases hb : b = 0
  · simp [hb]
  rw [if_neg hb, Option.some_inj, div_eq_iff (Int.cast_ne_zero.mpr hb)]
  norm_cast
  constructor
  · rintro rfl
    exact ⟨⟨hb, Int.mul_tmod_left n b⟩, Int.mul_tdiv_cancel n hb⟩
  · rintro ⟨⟨-, hrem⟩, rfl⟩
    exact (Int.tdiv_mul_cancel (Int.dvd_of_tmod_eq_zero hrem)).symm

/-- Only the quotient of the least integer by minus one is out of range. -/
theorem quotient_in_range_iff (a b : Int64) :
    (∃ word, toWord? (a.toInt.tdiv b.toInt) = some word) ↔ ¬(a.toInt = minInt ∧ b.toInt = -1) := by
  have hlow : minInt ≤ a.toInt := Int64.le_toInt a
  have hhigh : a.toInt ≤ maxInt := Int64.toInt_le a
  rw [exists_toWord?_iff]
  by_cases hone : b.toInt = 1
  · rw [hone, Int.tdiv_one]
    simp [hlow, hhigh]
  by_cases hminus : b.toInt = -1
  · rw [hminus, Int.tdiv_neg, Int.tdiv_one, and_iff_left rfl]
    simp only [minInt, maxInt] at hlow hhigh ⊢
    omega
  -- Every other divisor at least halves what is divided.
  have hhalf : (a.toInt.tdiv b.toInt).natAbs ≤ a.toInt.natAbs / 2 := by
    rw [Int.natAbs_tdiv]
    rcases Nat.eq_zero_or_pos b.toInt.natAbs with hzero | hpos
    · simp [Nat.div, hzero]
    · exact Nat.div_le_div_left (by omega) (by omega)
  simp only [hminus, and_false, not_false_eq_true, iff_true]
  simp only [minInt, maxInt] at hlow hhigh ⊢
  omega

theorem onIntegers?_eq_some_iff {op : Arithmetic} {a b n : Int64} :
    op.onIntegers? a.toInt b.toInt = some n ↔
      op.value? a.toInt b.toInt = some (n.toInt : ℚ) ∧ ¬op.LeastByMinusOne a.toInt b.toInt := by
  cases op with
  | add | subtract | multiply =>
    simp only [onIntegers?, value?, toWord?_eq_some_iff, LeastByMinusOne, Option.some_inj]
    norm_cast
    simp [eq_comm]
  | divide =>
    rw [value?_divide_eq_some_iff, onIntegers?]
    simpa [toWord?_eq_some_iff, LeastByMinusOne] using fun _ _ => eq_comm
  | modulo =>
    rw [onIntegers?, value?]
    by_cases hb : b.toInt = 0
    · simp [hb]
    rw [if_neg hb, if_neg hb, Option.some_inj, Option.bind_eq_some_iff, exists_and_right,
      quotient_in_range_iff, toWord?_eq_some_iff]
    norm_cast
    simp [LeastByMinusOne, eq_comm, and_comm]

end Arithmetic

/-! ## The operators -/

namespace Value

open Arithmetic

theorem integerOr_cases (word? : Option Int64) (x : Float) :
    (∀ n, (word?.map Value.integer).getD (.float x) = .integer n ↔ word? = some n) ∧
      ∀ y, (word?.map Value.integer).getD (.float x) = .float y ↔
        y = x ∧ ∀ n, word? ≠ some n := by
  cases word? with
  | none => simp [eq_comm]
  | some word => simp

theorem applyBinary_integers (op : Arithmetic) (a b : Int64) :
    applyBinary op.operator (.integer a) (.integer b) =
      ((op.onIntegers? a.toInt b.toInt).map .integer).getD
        (.float (op.onFloats (ofWord a) (ofWord b))) := by
  cases op <;> rfl

theorem applyUnary_integer (a : Int64) :
    applyUnary .minus (.integer a) =
      ((toWord? (-a.toInt)).map .integer).getD (.float (-ofWord a)) := rfl

/-- **Arithmetic keeps integers.** An operation on two integers gives an integer exactly if that is
the exact result, and otherwise the float of the operation on floats; so does the sign. The
exception is the remainder of the least integer by minus one, which is a float. -/
theorem integer_arithmetic_exact (op : Arithmetic) (a b : Int64) :
    (∀ n, applyBinary op.operator (.integer a) (.integer b) = .integer n ↔
      op.value? a.toInt b.toInt = some (n.toInt : ℚ) ∧ ¬op.LeastByMinusOne a.toInt b.toInt) ∧
    (∀ x, applyBinary op.operator (.integer a) (.integer b) = .float x ↔
      x = op.onFloats (ofWord a) (ofWord b) ∧ ∀ n : Int64,
        op.value? a.toInt b.toInt = some (n.toInt : ℚ) → op.LeastByMinusOne a.toInt b.toInt) ∧
    (∀ n, applyUnary .minus (.integer a) = .integer n ↔ n.toInt = -a.toInt) ∧
    ∀ x, applyUnary .minus (.integer a) = .float x ↔
      x = -ofWord a ∧ ∀ n : Int64, n.toInt ≠ -a.toInt := by
  obtain ⟨hinteger, hfloat⟩ := integerOr_cases (op.onIntegers? a.toInt b.toInt)
    (op.onFloats (ofWord a) (ofWord b))
  obtain ⟨hinteger', hfloat'⟩ := integerOr_cases (toWord? (-a.toInt)) (-ofWord a)
  rw [applyBinary_integers, applyUnary_integer]
  refine ⟨fun n => ?_, fun x => ?_, fun n => ?_, fun x => ?_⟩
  · rw [hinteger, onIntegers?_eq_some_iff]
  · simp only [hfloat, ne_eq, onIntegers?_eq_some_iff, not_and, not_not]
  · rw [hinteger', toWord?_eq_some_iff]
  · simp only [hfloat', ne_eq, toWord?_eq_some_iff]

/-- **The exception.** The remainder is exactly zero, which is an integer, and the result is the
negative zero of the floats. -/
theorem least_by_minus_one_is_float :
    value? .modulo (Int64.minValue).toInt (-1 : Int64).toInt = some ((0 : Int64).toInt : ℚ) ∧
      applyBinary .modulo (.integer Int64.minValue) (.integer (-1)) = .float (-0.0) := by
  constructor
  · decide +kernel
  · have hfloat : remainder (ofWord Int64.minValue) (ofWord (-1)) = -0.0 := by decide +kernel
    rw [← hfloat]
    rfl

end Value

end TemplateExpr

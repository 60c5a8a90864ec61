import Mathlib
import TemplateExpr.Number.Shortest
import TemplateExpr.Proofs.Number.Rounding

/-!
# The shortest decimal of a float reads back

The search for a short decimal tests each candidate by reading it, and gives up for the exact
expansion, which needs no test. So whatever the search comes upon reads as the float that it started
from (`shortestDigits_reads`). That it is the shortest plays no part in this.
-/

namespace TemplateExpr.Number

/-- That a decimal reads as the float of a mantissa and an exponent, with either sign. -/
def Digits.Reads (digits : Digits) (mantissa : Nat) (exponent : Int) : Prop :=
  ∀ negative, ofDecimal negative digits.mantissa digits.exponent =
    ofMagnitude negative (magnitude mantissa exponent)

variable {mantissa : Nat} {exponent : Int}

theorem magnitudeBits_le (num den : Nat) : magnitudeBits num den ≤ 2047 * 2 ^ 52 := by
  unfold magnitudeBits
  split
  · exact Nat.zero_le _
  · exact min_le_right _ _

theorem Digits.reads_of_toBits (h : Canonical mantissa exponent) {digits : Digits}
    (hbits : (ofDecimal false digits.mantissa digits.exponent).toBits =
      (ofScaled false mantissa exponent).toBits) : digits.Reads mantissa exponent := by
  intro negative
  rw [ofScaled_canonical h, ofDecimal_eq, ofRatio] at hbits
  have hsame := magnitude_of_toBits (magnitudeBits_le _ _) (magnitude_lt h).le hbits
  rw [ofDecimal_eq, ofRatio, hsame]

theorem Digits.reads_normal {digits : Digits} (h : digits.Reads mantissa exponent) (count : Nat) :
    (digits.normal count).Reads mantissa exponent := by
  intro negative
  rw [← h negative]
  unfold Digits.normal
  split
  · next htens =>
    apply ofDecimal_congr
    rw [htens, tenTo_cast, zpow_add₀ (by norm_num), zpow_natCast]
    ring
  · rfl

theorem exactDigits_reads (h : Canonical mantissa exponent) :
    (exactDigits mantissa exponent).Reads mantissa exponent := by
  intro negative
  apply ofDecimal_canonical h
  unfold exactDigits
  split
  · next hexponent =>
    obtain ⟨n, rfl⟩ := Int.eq_ofNat_of_zero_le hexponent
    rw [Int.toNat_natCast, zpow_zero, mul_one, Nat.cast_mul, twoTo_cast, zpow_natCast]
  · next hexponent =>
    obtain ⟨n, rfl⟩ : ∃ n : Nat, exponent = -(n : Int) := ⟨(-exponent).toNat, by omega⟩
    have hten : mantissa * tenTo n = mantissa * 5 ^ n * twoTo n := by
      rw [tenTo_eq, twoTo_eq, mul_assoc, ← mul_pow]
      rfl
    rw [neg_neg, Int.toNat_natCast, hten, Nat.mul_div_cancel _ (twoTo_pos n), Nat.cast_mul,
      zpow_neg, zpow_neg, zpow_natCast, zpow_natCast, show (10 : ℚ) = 5 * 2 by norm_num, mul_pow]
    push_cast
    field_simp

/-- **The shortest decimal of a float reads as the float.** -/
theorem shortestDigits_reads (h : Canonical mantissa exponent) :
    (shortestDigits mantissa exponent).Reads mantissa exponent := by
  unfold shortestDigits
  dsimp only
  generalize hfound : List.findSome? _ _ = found
  cases found with
  | none => exact exactDigits_reads h
  | some digits =>
    obtain ⟨count, -, hcount⟩ := List.exists_of_findSome?_eq_some hfound
    obtain ⟨candidate, hcandidate, rfl⟩ := Option.map_eq_some_iff.mp hcount
    have hreads := List.find?_some hcandidate
    exact Digits.reads_normal (Digits.reads_of_toBits h (beq_iff_eq.mp hreads)) count

theorem shortestDigits_pos (h : Canonical mantissa exponent) (hpos : 0 < mantissa) :
    0 < (shortestDigits mantissa exponent).mantissa := by
  apply Nat.pos_of_ne_zero
  intro hzero
  have hreads := shortestDigits_reads h false
  rw [hzero, ofDecimal, if_pos rfl] at hreads
  have hnone : 0 = magnitude mantissa exponent :=
    magnitude_of_toBits (Nat.zero_le _) (magnitude_lt h).le (congrArg Float.toBits hreads)
  unfold magnitude at hnone
  omega

end TemplateExpr.Number

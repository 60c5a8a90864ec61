import Mathlib
import TemplateExpr.Number.Integer
import TemplateExpr.Proofs.Number.Line

/-!
# Floats as counts

What is left of a float where a count is wanted: the number it stands for without its places behind
the point, brought to the nearer end of the 64-bit integers where it lies outside
(`counts_iff`). Infinities lie outside, and what is not a number counts as zero.
-/

namespace TemplateExpr.Number

/-- A rational number without its places behind the point. -/
def towardZero (q : ℚ) : Int := if q < 0 then ⌈q⌉ else ⌊q⌋

/-- A whole number, brought to the nearer end of the 64-bit integers. -/
def withinWord (n : Int) : Int := max minInt (min n maxInt)

def signed (negative : Bool) (mantissa : Nat) (exponent : Int) : ℚ :=
  if negative then -(mantissa * 2 ^ exponent) else mantissa * 2 ^ exponent

/-- That a float counts as a whole number. -/
inductive Counts : Float → Int → Prop
  | notANumber {x : Float} (h : x.isNaN = true) : Counts x 0
  | infinite (negative : Bool) : Counts (infinity negative) (if negative then minInt else maxInt)
  | finite {x : Float} {negative : Bool} {mantissa : Nat} {exponent : Int}
    (h : parts x = .finite negative mantissa exponent) :
    Counts x (withinWord (towardZero (signed negative mantissa exponent)))

theorem towardZero_neg {q : ℚ} (h : 0 ≤ q) : towardZero (-q) = -⌊q⌋ := by
  rcases h.eq_or_lt with rfl | hpos
  · simp [towardZero]
  · rw [towardZero, if_pos (neg_lt_zero.mpr hpos), Int.ceil_neg]

theorem towardZero_signed (negative : Bool) (mantissa : Nat) (exponent : Int) :
    towardZero (signed negative mantissa exponent) =
      if negative then -⌊(mantissa * 2 ^ exponent : ℚ)⌋ else ⌊(mantissa * 2 ^ exponent : ℚ)⌋ := by
  have hnonneg : (0 : ℚ) ≤ mantissa * 2 ^ exponent := by positivity
  cases negative
  · exact if_neg hnonneg.not_gt
  · exact towardZero_neg hnonneg

theorem floor_scaled (mantissa : Nat) (exponent : Int) :
    ⌊(mantissa * 2 ^ exponent : ℚ)⌋ =
      ((if 0 ≤ exponent then mantissa * twoTo exponent.toNat
        else mantissa / twoTo (-exponent).toNat : Nat) : Int) := by
  split
  · next hnonneg =>
    obtain ⟨k, rfl⟩ := Int.eq_ofNat_of_zero_le hnonneg
    rw [Int.toNat_natCast, zpow_natCast, twoTo_eq]
    exact_mod_cast Int.floor_natCast (R := ℚ) (mantissa * 2 ^ k)
  · next hneg =>
    obtain ⟨k, hk⟩ := Int.eq_ofNat_of_zero_le (show 0 ≤ -exponent by omega)
    obtain rfl : exponent = -(k : Int) := by omega
    rw [neg_neg, Int.toNat_natCast, zpow_neg, zpow_natCast, ← div_eq_mul_inv, twoTo_eq]
    have hfloor := Rat.floor_intCast_div_natCast (mantissa : Int) (2 ^ k)
    push_cast at hfloor ⊢
    exact hfloor

theorem eq_infinity_of_parts {x : Float} {negative : Bool} (h : parts x = .infinite negative) :
    x = infinity negative := by
  have hbits : x.toBits.toNat < 2 ^ 64 := x.toBits.toNat_lt
  refine (ofMagnitude_of_toNat ?_).symm
  unfold parts at h
  dsimp only at h
  split at h
  · next hlargest =>
    rw [twoTo_eq, twoTo_eq] at hlargest
    split at h
    · next hfraction =>
      rw [twoTo_eq] at hfraction
      obtain rfl := Parts.infinite.inj h
      simp only [beq_iff_eq, twoTo_eq]
      split <;> omega
    · cases h
  · split at h <;> cases h

theorem isNaN_of_parts {x : Float} (h : parts x = .notANumber) : x.isNaN = true := by
  by_contra hnumber
  obtain ⟨negative, size, hsize, rfl⟩ := exists_ofMagnitude (eq_false_of_ne_true hnumber)
  have hbits : (ofMagnitude negative size).toBits.toNat =
      (if negative then 2 ^ 63 else 0) + size := toNat_toBits_ofMagnitude hsize
  unfold parts at h
  dsimp only at h
  split at h
  · next hlargest =>
    rw [twoTo_eq, twoTo_eq, hbits] at hlargest
    split at h
    · cases h
    -- Beyond infinity there is no magnitude.
    · next hfraction =>
      rw [twoTo_eq, hbits] at hfraction
      cases negative
      · simp only [Bool.false_eq_true, if_false] at hlargest hfraction
        omega
      · simp only [if_true] at hlargest hfraction
        omega
  · split at h <;> cases h

theorem parts_of_isNaN {x : Float} (h : x.isNaN = true) : parts x = .notANumber := by
  cases hparts : parts x with
  | notANumber => rfl
  | infinite negative =>
    rw [eq_infinity_of_parts hparts, infinity, twoTo_eq, isNaN_ofMagnitude _ le_rfl] at h
    cases h
  | finite negative mantissa exponent =>
    obtain ⟨hcanonical, heq⟩ := ofMagnitude_of_parts hparts
    rw [← heq, isNaN_ofMagnitude _ (magnitude_lt hcanonical).le] at h
    cases h

theorem truncate_finite {x : Float} {negative : Bool} {mantissa : Nat} {exponent : Int}
    (h : parts x = .finite negative mantissa exponent) :
    truncate x = withinWord (towardZero (signed negative mantissa exponent)) := by
  rw [truncate, h, towardZero_signed, floor_scaled]
  rfl

/-- **What truncation gives is what a float counts as**, and it counts as nothing else. -/
theorem counts_iff {x : Float} {n : Int} : Counts x n ↔ truncate x = n := by
  constructor
  · intro h
    cases h with
    | notANumber hnan => rw [truncate, parts_of_isNaN hnan]
    | infinite negative => cases negative <;> decide
    | finite hparts => exact truncate_finite hparts
  · rintro rfl
    cases hparts : parts x with
    | notANumber =>
      have hzero : truncate x = 0 := by rw [truncate, hparts]
      rw [hzero]
      exact .notANumber (isNaN_of_parts hparts)
    | infinite negative =>
      have hend : truncate x = if negative then minInt else maxInt := by rw [truncate, hparts]
      rw [hend, eq_infinity_of_parts hparts]
      exact .infinite negative
    | finite negative mantissa exponent =>
      rw [truncate_finite hparts]
      exact .finite hparts

theorem Counts.within {x : Float} {n : Int} (h : Counts x n) : minInt ≤ n ∧ n ≤ maxInt := by
  cases h with
  | notANumber => decide
  | infinite negative => cases negative <;> decide
  | finite =>
    have hle : minInt ≤ maxInt := by decide
    unfold withinWord
    omega

end TemplateExpr.Number

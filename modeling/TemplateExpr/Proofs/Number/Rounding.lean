import Mathlib
import TemplateExpr.Proofs.Number.Bits

/-!
# Rounding to the nearest float

Rounding depends on the number that a fraction stands for and on nothing else
(`magnitudeBits_congr`), and a number that is a float is rounded to itself (`ofScaled_canonical`).
So two ways of writing a number read as the same float, and a float reads as what it was written
from.

Decimals with huge exponents are answered without computing the power. What is answered is what
rounding would have given (`ofDecimal_eq`).
-/

namespace TemplateExpr.Number

/-! ## The leading bit -/

theorem twoTo_cast (n : Nat) : ((twoTo n : Nat) : ℚ) = 2 ^ n := by
  rw [twoTo_eq]
  push_cast
  rfl

/-- Comparing a fraction with a power of two is comparing whole numbers. -/
theorem zpow_le_div_iff (num : Nat) {den : Nat} (hden : 0 < den) (k : Int) :
    (2 : ℚ) ^ k ≤ num / den ↔
      if 0 ≤ k then den * twoTo k.toNat ≤ num else den ≤ num * twoTo (-k).toNat := by
  have hpos : (0 : ℚ) < den := by exact_mod_cast hden
  rw [le_div_iff₀ hpos]
  split
  · next hk =>
    obtain ⟨n, rfl⟩ := Int.eq_ofNat_of_zero_le hk
    rw [Int.toNat_natCast, zpow_natCast, ← twoTo_cast, mul_comm]
    exact_mod_cast Iff.rfl
  · next hk =>
    obtain ⟨n, rfl⟩ : ∃ n : Nat, k = -(n : Int) := ⟨(-k).toNat, by omega⟩
    have htwo : (0 : ℚ) < 2 ^ n := by positivity
    rw [neg_neg, Int.toNat_natCast, zpow_neg, zpow_natCast, inv_mul_le_iff₀ htwo, ← twoTo_cast,
      mul_comm]
    exact_mod_cast Iff.rfl

theorem between_zpow {num den : Nat} (hnum : 0 < num) (hden : 0 < den) :
    (2 : ℚ) ^ ((num.log2 : Int) - den.log2 - 1) ≤ num / den ∧
      (num : ℚ) / den < 2 ^ ((num.log2 : Int) - den.log2 + 1) := by
  have hpos : (0 : ℚ) < den := by exact_mod_cast hden
  have hnumLow : (2 : ℚ) ^ num.log2 ≤ num := by
    exact_mod_cast Nat.log2_self_le (Nat.pos_iff_ne_zero.mp hnum)
  have hnumHigh : (num : ℚ) < 2 ^ (num.log2 + 1) := by exact_mod_cast Nat.lt_log2_self
  have hdenLow : (2 : ℚ) ^ den.log2 ≤ den := by
    exact_mod_cast Nat.log2_self_le (Nat.pos_iff_ne_zero.mp hden)
  have hdenHigh : (den : ℚ) < 2 ^ (den.log2 + 1) := by exact_mod_cast Nat.lt_log2_self
  constructor
  · have hsplit : (2 : ℚ) ^ ((num.log2 : Int) - den.log2 - 1) =
        2 ^ num.log2 / 2 ^ (den.log2 + 1) := by
      rw [sub_sub, zpow_sub₀ two_ne_zero, zpow_natCast]
      norm_cast
    rw [hsplit]
    gcongr
  · have hsplit : (2 : ℚ) ^ ((num.log2 : Int) - den.log2 + 1) =
        2 ^ (num.log2 + 1) / 2 ^ den.log2 := by
      rw [sub_add_eq_add_sub, zpow_sub₀ two_ne_zero, zpow_natCast]
      norm_cast
    rw [hsplit, div_lt_div_iff₀ hpos (by positivity)]
    exact mul_lt_mul hnumHigh hdenLow (by positivity) (by positivity)

theorem log_eq {r : ℚ} {k : Int} (hlow : (2 : ℚ) ^ k ≤ r) (hhigh : r < 2 ^ (k + 1)) :
    Int.log 2 r = k := by
  have hpos : 0 < r := lt_of_lt_of_le (by positivity) hlow
  apply le_antisymm
  · exact Int.lt_add_one_iff.mp ((Int.lt_zpow_iff_log_lt (by decide) hpos).mp hhigh)
  · exact (Int.zpow_le_iff_le_log (by decide) hpos).mp hlow

/-- **The leading bit of a fraction.** -/
theorem leadingBit_eq {num den : Nat} (hnum : 0 < num) (hden : 0 < den) :
    leadingBit num den = Int.log 2 ((num : ℚ) / den) := by
  obtain ⟨hlow, hhigh⟩ := between_zpow hnum hden
  have hreached := zpow_le_div_iff num hden ((num.log2 : Int) - den.log2)
  unfold leadingBit
  dsimp only
  by_cases h : (2 : ℚ) ^ ((num.log2 : Int) - den.log2) ≤ num / den
  · rw [if_pos (hreached.mp h), log_eq h hhigh]
  · rw [if_neg (mt hreached.mpr h), log_eq hlow]
    rw [sub_add_cancel]
    exact not_le.mp h

/-! ## Rounded quotients -/

/-- A rounded quotient depends on the fraction alone. -/
theorem divRound_mul {factor : Nat} (hfactor : 0 < factor) (num den : Nat) :
    divRound (num * factor) (den * factor) = divRound num den := by
  simp only [divRound, Nat.mul_div_mul_right num den hfactor, Nat.mul_mod_mul_right, ← mul_assoc,
    Nat.mul_lt_mul_right hfactor, Nat.mul_left_inj (Nat.pos_iff_ne_zero.mp hfactor)]

theorem divRound_congr {num den num' den' : Nat} (hden : 0 < den) (hden' : 0 < den')
    (h : num * den' = num' * den) : divRound num den = divRound num' den' := by
  rw [← divRound_mul hden', h, Nat.mul_comm den den', divRound_mul hden]

theorem divRoundScaled_congr {num den num' den' : Nat} (hden : 0 < den) (hden' : 0 < den')
    (h : num * den' = num' * den) (exponent : Int) :
    divRoundScaled num den exponent = divRoundScaled num' den' exponent := by
  have hpos := twoTo_pos
  unfold divRoundScaled
  split
  · apply divRound_congr (Nat.mul_pos hden (hpos _)) (Nat.mul_pos hden' (hpos _))
    rw [← mul_assoc, ← mul_assoc, h]
  · apply divRound_congr hden hden'
    rw [mul_right_comm, h, mul_right_comm]

theorem divRound_mul_self {den : Nat} (hden : 0 < den) (n : Nat) : divRound (n * den) den = n := by
  have hmod : n * den % den = 0 := Nat.mul_mod_left n den
  simp only [divRound, hmod, Nat.mul_div_cancel n hden]
  rw [if_neg]
  omega

theorem le_divRound {num den n : Nat} (hden : 0 < den) (h : n * den ≤ num) :
    n ≤ divRound num den := by
  have hwhole : n ≤ num / den := (Nat.le_div_iff_mul_le hden).mpr h
  unfold divRound
  dsimp only
  split <;> omega

theorem divRound_eq_zero {num den : Nat} (h : 2 * num < den) : divRound num den = 0 := by
  have hdiv : num / den = 0 := Nat.div_eq_of_lt (by omega)
  have hmod : num % den = num := Nat.mod_eq_of_lt (by omega)
  simp only [divRound, hdiv, hmod]
  rw [if_neg]
  omega

/-! ## Rounded magnitudes -/

/-- **Rounding depends on the number that a fraction stands for.** -/
theorem magnitudeBits_congr {num den num' den' : Nat} (hden : 0 < den) (hden' : 0 < den')
    (h : num * den' = num' * den) : magnitudeBits num den = magnitudeBits num' den' := by
  by_cases hnum : num = 0
  · have hnum' : num' = 0 := by
      rw [hnum, zero_mul, eq_comm, Nat.mul_eq_zero] at h
      omega
    rw [hnum, hnum', magnitudeBits, magnitudeBits, if_pos rfl, if_pos rfl]
  · have hnum' : num' ≠ 0 := by
      rintro rfl
      rw [zero_mul, Nat.mul_eq_zero] at h
      omega
    have hsame : (num : ℚ) / den = num' / den' := by
      rw [div_eq_div_iff (by positivity) (by positivity)]
      exact_mod_cast h
    have hleading : leadingBit num den = leadingBit num' den' := by
      rw [leadingBit_eq (Nat.pos_of_ne_zero hnum) hden,
        leadingBit_eq (Nat.pos_of_ne_zero hnum') hden', hsame]
    simp only [magnitudeBits, if_neg hnum, if_neg hnum', hleading,
      divRoundScaled_congr hden hden' h]

/-- What lies beyond the floats is rounded to infinity. -/
theorem magnitudeBits_of_large {num den : Nat} (hden : 0 < den)
    (h : (2 : ℚ) ^ (1024 : Int) ≤ num / den) : magnitudeBits num den = 2047 * 2 ^ 52 := by
  have hpos : (0 : ℚ) < num / den := lt_of_lt_of_le (by positivity) h
  have hnum : num ≠ 0 := by
    rintro rfl
    simp at hpos
  have hleading := leadingBit_eq (Nat.pos_of_ne_zero hnum) hden
  have hlarge : (1024 : Int) ≤ leadingBit num den :=
    hleading ▸ (Int.zpow_le_iff_le_log (by decide) hpos).mp h
  obtain ⟨k, hk⟩ : ∃ k : Nat, leadingBit num den = k + 52 :=
    ⟨(leadingBit num den - 52).toNat, by omega⟩
  have hmantissa : 2 ^ 52 ≤ divRoundScaled num den k := by
    have hlow : (2 : ℚ) ^ leadingBit num den ≤ num / den :=
      hleading ▸ Int.zpow_log_le_self (by decide) hpos
    rw [hk, zpow_le_div_iff num hden, if_pos (by omega)] at hlow
    rw [divRoundScaled, if_pos (by omega)]
    apply le_divRound (Nat.mul_pos hden (twoTo_pos _))
    calc 2 ^ 52 * (den * twoTo (k : Int).toNat) = den * twoTo ((k : Int) + 52).toNat := by
          rw [show ((k : Int) + 52).toNat = k + 52 by omega, Int.toNat_natCast, twoTo_eq, twoTo_eq,
            Nat.pow_add]
          ring
      _ ≤ num := hlow
  simp only [magnitudeBits, if_neg hnum, hk, add_sub_cancel_right, twoTo_eq]
  rw [max_eq_left (by omega)]
  omega

/-- What is less than half of the least float is rounded to zero. -/
theorem magnitudeBits_of_small {num den : Nat} (hden : 0 < den)
    (h : (num : ℚ) / den < 2 ^ (-1075 : Int)) : magnitudeBits num den = 0 := by
  by_cases hnum : num = 0
  · rw [magnitudeBits, if_pos hnum]
  · have hpos : (0 : ℚ) < num / den := by positivity
    have hleading : leadingBit num den < -1075 := by
      rw [leadingBit_eq (Nat.pos_of_ne_zero hnum) hden]
      exact (Int.lt_zpow_iff_log_lt (by decide) hpos).mp h
    have hsmall : 2 * (num * twoTo 1074) < den := by
      have hnot := mt (zpow_le_div_iff num hden (-1075)).mpr (not_le.mpr h)
      rw [if_neg (by decide), show (-(-1075 : Int)).toNat = 1074 + 1 from rfl, twoTo_succ] at hnot
      rw [mul_comm, mul_assoc]
      exact not_le.mp hnot
    simp only [magnitudeBits, if_neg hnum]
    rw [max_eq_right (by omega), divRoundScaled, if_neg (by decide)]
    rw [show (-(-1074 : Int)).toNat = 1074 from rfl, divRound_eq_zero hsmall]
    simp

theorem divRoundScaled_of_value {num den mantissa : Nat} {exponent : Int} (hden : 0 < den)
    (hvalue : (num : ℚ) / den = mantissa * 2 ^ exponent) :
    divRoundScaled num den exponent = mantissa := by
  have hpos : (den : ℚ) ≠ 0 := by positivity
  rw [div_eq_iff hpos] at hvalue
  unfold divRoundScaled
  split
  · next hexponent =>
    obtain ⟨n, rfl⟩ := Int.eq_ofNat_of_zero_le hexponent
    have hnum : num = mantissa * (den * twoTo n) := by
      rw [zpow_natCast, ← twoTo_cast] at hvalue
      rw [mul_left_comm, ← mul_assoc, mul_comm, ← mul_assoc]
      have : num = mantissa * twoTo n * den := by exact_mod_cast hvalue
      rw [this]
      ring
    rw [Int.toNat_natCast, hnum, divRound_mul_self (Nat.mul_pos hden (twoTo_pos n))]
  · next hexponent =>
    obtain ⟨n, rfl⟩ : ∃ n : Nat, exponent = -(n : Int) := ⟨(-exponent).toNat, by omega⟩
    have hnum : num * twoTo n = mantissa * den := by
      have hcast : (num : ℚ) * twoTo n = mantissa * den := by
        rw [hvalue, zpow_neg, zpow_natCast, twoTo_cast]
        field_simp
      exact_mod_cast hcast
    rw [neg_neg, Int.toNat_natCast, hnum, divRound_mul_self hden]

/-- **A float is rounded to itself.** -/
theorem magnitudeBits_canonical {mantissa : Nat} {exponent : Int}
    (h : Canonical mantissa exponent) {num den : Nat} (hden : 0 < den)
    (hvalue : (num : ℚ) / den = mantissa * 2 ^ exponent) :
    magnitudeBits num den = magnitude mantissa exponent := by
  have hrounded := divRoundScaled_of_value hden hvalue
  by_cases hmantissa : mantissa = 0
  · have hnum : num = 0 := by
      rw [hmantissa, Nat.cast_zero, zero_mul, div_eq_zero_iff] at hvalue
      have : (den : ℚ) ≠ 0 := by positivity
      exact_mod_cast hvalue.resolve_right this
    unfold Canonical at h
    rw [magnitudeBits, if_pos hnum, magnitude, hmantissa]
    omega
  · have hlow : 2 ^ mantissa.log2 ≤ mantissa := Nat.log2_self_le hmantissa
    have hhigh : mantissa < 2 ^ (mantissa.log2 + 1) := Nat.lt_log2_self
    have hpos : (0 : ℚ) < num / den := by
      rw [hvalue]
      positivity
    have hnum : num ≠ 0 := by
      rintro rfl
      simp at hpos
    have hleading : leadingBit num den = mantissa.log2 + exponent := by
      rw [leadingBit_eq (Nat.pos_of_ne_zero hnum) hden, hvalue]
      apply log_eq
      · rw [zpow_add₀ two_ne_zero, zpow_natCast]
        gcongr
        exact_mod_cast hlow
      · rw [add_right_comm, zpow_add₀ two_ne_zero]
        gcongr
        exact_mod_cast hhigh
    have hexponent : max (leadingBit num den - 52) (-1074) = exponent := by
      rw [hleading]
      rcases h with ⟨rfl, hsmall⟩ | ⟨hleast, -, hfrom, hbelow⟩
      · have : mantissa.log2 < 52 := (Nat.log2_lt hmantissa).mpr hsmall
        omega
      · have : mantissa.log2 = 52 := (Nat.log2_eq_iff hmantissa).mpr ⟨hfrom, hbelow⟩
        omega
    simp only [magnitudeBits, if_neg hnum, hexponent, hrounded, twoTo_eq]
    exact min_eq_left (magnitude_lt h).le

/-! ## Floats from mantissas and exponents -/

theorem ofScaled_canonical {mantissa : Nat} {exponent : Int} (h : Canonical mantissa exponent)
    (negative : Bool) :
    ofScaled negative mantissa exponent = ofMagnitude negative (magnitude mantissa exponent) := by
  unfold ofScaled ofRatio
  split
  · next hexponent =>
    obtain ⟨n, rfl⟩ := Int.eq_ofNat_of_zero_le hexponent
    rw [magnitudeBits_canonical h one_pos]
    rw [Int.toNat_natCast, Nat.cast_mul, twoTo_cast, zpow_natCast, Nat.cast_one, div_one]
  · next hexponent =>
    obtain ⟨n, rfl⟩ : ∃ n : Nat, exponent = -(n : Int) := ⟨(-exponent).toNat, by omega⟩
    rw [magnitudeBits_canonical h (twoTo_pos _)]
    rw [neg_neg, Int.toNat_natCast, twoTo_cast, zpow_neg, zpow_natCast, div_eq_mul_inv]

/-! ## Floats from decimals -/

theorem tenTo_cast (n : Nat) : ((tenTo n : Nat) : ℚ) = 10 ^ n := by
  rw [tenTo_eq]
  push_cast
  rfl

theorem two_pow_le_ten_pow {n : Nat} (h : 310 ≤ n) : (2 : ℚ) ^ 1024 ≤ 10 ^ n :=
  calc (2 : ℚ) ^ 1024 ≤ 2 ^ (205 * 5) := pow_le_pow_right₀ (by norm_num) (by norm_num)
    _ = (2 ^ 205) ^ 5 := pow_mul 2 205 5
    _ ≤ (10 ^ 62) ^ 5 := pow_le_pow_left₀ (by positivity) (by norm_num) 5
    _ = 10 ^ (62 * 5) := (pow_mul 10 62 5).symm
    _ ≤ 10 ^ n := pow_le_pow_right₀ (by norm_num) h

/-- **A decimal is rounded as the fraction that it is**, whatever its exponent. -/
theorem ofDecimal_eq (negative : Bool) (mantissa : Nat) (exponent : Int) :
    ofDecimal negative mantissa exponent =
      ofRatio negative (mantissa * tenTo exponent.toNat) (tenTo (-exponent).toNat) := by
  unfold ofDecimal
  split
  · next hzero => rw [hzero, Nat.zero_mul, ofRatio, magnitudeBits, if_pos rfl]
  next hmantissa =>
  split
  · next hlarge =>
    obtain ⟨n, rfl⟩ := Int.eq_ofNat_of_zero_le (by omega : 0 ≤ exponent)
    have hbeyond : (2 : ℚ) ^ (1024 : Int) ≤
        ((mantissa * tenTo n : Nat) : ℚ) / (tenTo (-(n : Int)).toNat : Nat) := by
      have hone : (1 : ℚ) ≤ mantissa := by exact_mod_cast Nat.pos_of_ne_zero hmantissa
      rw [show (-(n : Int)).toNat = 0 by omega, tenTo_zero, Nat.cast_one, div_one, Nat.cast_mul,
        tenTo_cast]
      calc (2 : ℚ) ^ (1024 : Int) = 2 ^ 1024 := zpow_ofNat 2 1024
        _ ≤ 10 ^ n := two_pow_le_ten_pow (by omega)
        _ ≤ mantissa * 10 ^ n := le_mul_of_one_le_left (by positivity) hone
    rw [Int.toNat_natCast, ofRatio, magnitudeBits_of_large (tenTo_pos _) hbeyond]
    rfl
  split
  · next hsmall =>
    obtain ⟨n, rfl⟩ : ∃ n : Nat, exponent = -(n : Int) := ⟨(-exponent).toNat, by omega⟩
    have hbelow : ((mantissa * tenTo (-(n : Int)).toNat : Nat) : ℚ) / (tenTo n : Nat) <
        2 ^ (-1075 : Int) := by
      have hhigh : (mantissa : ℚ) < 2 ^ (mantissa.log2 + 1) := by exact_mod_cast Nat.lt_log2_self
      rw [show (-(n : Int)).toNat = 0 by omega, tenTo_zero, Nat.mul_one, tenTo_cast]
      calc (mantissa : ℚ) / 10 ^ n < 2 ^ (mantissa.log2 + 1) / 10 ^ n := by gcongr
        _ ≤ 2 ^ (mantissa.log2 + 1) / 8 ^ n := by gcongr; norm_num
        _ = 2 ^ ((mantissa.log2 : Int) + 1 + 3 * -(n : Int)) := by
          rw [zpow_add₀ two_ne_zero, zpow_mul, zpow_neg, zpow_natCast, ← div_eq_mul_inv]
          norm_num
          norm_cast
        _ ≤ 2 ^ (-1075 : Int) := zpow_le_zpow_right₀ (by norm_num) hsmall
    rw [neg_neg, Int.toNat_natCast, ofRatio, magnitudeBits_of_small (tenTo_pos n) hbelow]
  split
  · next hexponent =>
    rw [show (-exponent).toNat = 0 by omega, tenTo_zero]
  · next hexponent =>
    rw [show exponent.toNat = 0 by omega, tenTo_zero, Nat.mul_one]

theorem ten_zpow (exponent : Int) :
    (10 : ℚ) ^ exponent = (tenTo exponent.toNat : ℚ) / tenTo (-exponent).toNat := by
  rw [tenTo_cast, tenTo_cast]
  rcases Int.eq_nat_or_neg exponent with ⟨n, rfl | rfl⟩
  · rw [Int.toNat_natCast, zpow_natCast, show (-(n : Int)).toNat = 0 by omega, pow_zero, div_one]
  · rw [neg_neg, Int.toNat_natCast, zpow_neg, zpow_natCast, show (-(n : Int)).toNat = 0 by omega,
      pow_zero, one_div]

theorem ofDecimal_canonical {mantissa digits : Nat} {exponent place : Int}
    (h : Canonical mantissa exponent)
    (hvalue : (digits : ℚ) * 10 ^ place = mantissa * 2 ^ exponent) (negative : Bool) :
    ofDecimal negative digits place = ofMagnitude negative (magnitude mantissa exponent) := by
  rw [ofDecimal_eq, ofRatio, magnitudeBits_canonical h (tenTo_pos _)]
  rw [← hvalue, ten_zpow, Nat.cast_mul, mul_div_assoc]

theorem ofDecimal_congr {mantissa mantissa' : Nat} {exponent exponent' : Int} (negative : Bool)
    (h : (mantissa : ℚ) * 10 ^ exponent = mantissa' * 10 ^ exponent') :
    ofDecimal negative mantissa exponent = ofDecimal negative mantissa' exponent' := by
  have hpos : ∀ n, (tenTo n : ℚ) ≠ 0 := fun n => by exact_mod_cast (tenTo_pos n).ne'
  rw [ofDecimal_eq, ofDecimal_eq, ofRatio, ofRatio, magnitudeBits_congr (tenTo_pos _) (tenTo_pos _)]
  rw [ten_zpow, ten_zpow, ← mul_div_assoc, ← mul_div_assoc, div_eq_div_iff (hpos _) (hpos _)] at h
  exact_mod_cast h

end TemplateExpr.Number

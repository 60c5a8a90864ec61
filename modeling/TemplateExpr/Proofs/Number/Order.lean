import Mathlib
import TemplateExpr.Proofs.Number.Shortest

/-!
# Rounding keeps the order

A larger number is never rounded to a smaller float (`magnitudeBits_mono`). Between two powers of
two the floats are evenly spaced and rounding goes by whole units; a power of two itself is a float,
and what lies below it is rounded to no more than it, what lies above to no less.

The floats without a sign are in the order of their bits (`lt_iff_toBits`, `le_iff_toBits`). So
comparing such a float with another is comparing decimals that are read as them.
-/

namespace TemplateExpr.Number

/-! ## Rounded quotients -/

theorem divRound_mono_left {num num' : Nat} (h : num ≤ num') (den : Nat) :
    divRound num den ≤ divRound num' den := by
  have hquotient : num / den ≤ num' / den := Nat.div_le_div_right h
  have hsum := Nat.div_add_mod num den
  have hsum' := Nat.div_add_mod num' den
  unfold divRound
  dsimp only
  rcases hquotient.eq_or_lt with heq | hlt
  -- With equal whole parts the remainders are in order, and so is what is rounded up.
  · rw [heq] at hsum ⊢
    split <;> split <;> omega
  · split <;> split <;> omega

theorem divRound_mono {num den num' den' : Nat} (hden : 0 < den) (hden' : 0 < den')
    (h : num * den' ≤ num' * den) : divRound num den ≤ divRound num' den' := by
  rw [← divRound_mul hden' num den, ← divRound_mul hden num' den', Nat.mul_comm den' den]
  exact divRound_mono_left h _

section

variable {num den num' den' : Nat} (hden : 0 < den) (hden' : 0 < den')

theorem mul_le_mul_of_div_le (hden : 0 < den) (hden' : 0 < den')
    (h : (num : ℚ) / den ≤ num' / den') : num * den' ≤ num' * den := by
  rw [div_le_div_iff₀ (by exact_mod_cast hden) (by exact_mod_cast hden')] at h
  exact_mod_cast h

include hden hden'

theorem divRoundScaled_mono (h : (num : ℚ) / den ≤ num' / den') (exponent : Int) :
    divRoundScaled num den exponent ≤ divRoundScaled num' den' exponent := by
  have hle := mul_le_mul_of_div_le hden hden' h
  unfold divRoundScaled
  split
  · apply divRound_mono (Nat.mul_pos hden (twoTo_pos _)) (Nat.mul_pos hden' (twoTo_pos _))
    rw [← mul_assoc, ← mul_assoc]
    exact Nat.mul_le_mul_right _ hle
  · apply divRound_mono hden hden'
    rw [mul_right_comm, mul_right_comm num']
    exact Nat.mul_le_mul_right _ hle

end

theorem two_zpow_fraction (n : Nat) (exponent : Int) :
    ((n * twoTo exponent.toNat : Nat) : ℚ) / (twoTo (-exponent).toNat : Nat) =
      n * 2 ^ exponent := by
  rw [Nat.cast_mul, twoTo_cast, twoTo_cast]
  rcases Int.eq_nat_or_neg exponent with ⟨k, rfl | rfl⟩
  · rw [Int.toNat_natCast, zpow_natCast, show (-(k : Int)).toNat = 0 by omega, pow_zero, div_one]
  · rw [neg_neg, Int.toNat_natCast, zpow_neg, zpow_natCast, show (-(k : Int)).toNat = 0 by omega,
      pow_zero, mul_one, div_eq_mul_inv]

section

variable {num den n : Nat} {exponent : Int} (hden : 0 < den)

include hden

theorem le_divRoundScaled (h : (n : ℚ) * 2 ^ exponent ≤ num / den) :
    n ≤ divRoundScaled num den exponent := by
  have hvalue := two_zpow_fraction n exponent
  have hself := divRoundScaled_of_value (twoTo_pos _) hvalue
  calc n
    _ = divRoundScaled (n * twoTo exponent.toNat) (twoTo (-exponent).toNat) exponent := hself.symm
    _ ≤ divRoundScaled num den exponent :=
      divRoundScaled_mono (twoTo_pos _) hden (hvalue.trans_le h) exponent

theorem divRoundScaled_le (h : (num : ℚ) / den ≤ n * 2 ^ exponent) :
    divRoundScaled num den exponent ≤ n := by
  have hvalue := two_zpow_fraction n exponent
  have hself := divRoundScaled_of_value (twoTo_pos _) hvalue
  calc divRoundScaled num den exponent
      ≤ divRoundScaled (n * twoTo exponent.toNat) (twoTo (-exponent).toNat) exponent :=
        divRoundScaled_mono hden (twoTo_pos _) (h.trans_eq hvalue.symm) exponent
    _ = n := hself

end

/-! ## Rounded magnitudes -/

/-- **Rounding keeps the order.** -/
theorem magnitudeBits_mono {num den num' den' : Nat} (hden : 0 < den) (hden' : 0 < den')
    (h : (num : ℚ) / den ≤ num' / den') : magnitudeBits num den ≤ magnitudeBits num' den' := by
  by_cases hnum : num = 0
  · rw [magnitudeBits, if_pos hnum]
    exact Nat.zero_le _
  have hpos : (0 : ℚ) < num / den := by positivity
  have hpos' : (0 : ℚ) < num' / den' := hpos.trans_le h
  have hnum' : num' ≠ 0 := by
    rintro rfl
    simp at hpos'
  have hleading := leadingBit_eq (Nat.pos_of_ne_zero hnum) hden
  have hleading' := leadingBit_eq (Nat.pos_of_ne_zero hnum') hden'
  have hbits : leadingBit num den ≤ leadingBit num' den' := by
    rw [hleading, hleading']
    exact Int.log_mono_right hpos h
  simp only [magnitudeBits, if_neg hnum, if_neg hnum', twoTo_eq]
  generalize hexponent : max (leadingBit num den - 52) (-1074) = exponent
  generalize hexponent' : max (leadingBit num' den' - 52) (-1074) = exponent'
  apply min_le_min_right
  rcases (show exponent ≤ exponent' by omega).eq_or_lt with rfl | hlt
  · exact Nat.add_le_add_left (divRoundScaled_mono hden hden' h exponent) _
  · -- A power of two lies between the two numbers, and it is a float.
    have hhigh : divRoundScaled num den exponent ≤ 2 ^ 53 := by
      apply divRoundScaled_le hden
      calc (num : ℚ) / den ≤ 2 ^ (leadingBit num den + 1) := by
            rw [hleading]
            exact (Int.lt_zpow_succ_log_self (by decide) _).le
        _ ≤ 2 ^ (53 + exponent) := zpow_le_zpow_right₀ (by norm_num) (by omega)
        _ = (2 ^ 53 : Nat) * 2 ^ exponent := by
            rw [zpow_add₀ two_ne_zero]
            norm_cast
    have hlow : 2 ^ 52 ≤ divRoundScaled num' den' exponent' := by
      apply le_divRoundScaled hden'
      calc ((2 ^ 52 : Nat) : ℚ) * 2 ^ exponent' = 2 ^ (52 + exponent') := by
            rw [zpow_add₀ two_ne_zero]
            norm_cast
        _ = 2 ^ leadingBit num' den' := by
            congr 1
            omega
        _ ≤ num' / den' := by
            rw [hleading']
            exact Int.zpow_log_le_self (by decide) hpos'
    have hsteps : (exponent + 1074).toNat + 1 ≤ (exponent' + 1074).toNat := by omega
    calc (exponent + 1074).toNat * 2 ^ 52 + divRoundScaled num den exponent
        ≤ (exponent + 1074).toNat * 2 ^ 52 + 2 ^ 53 := Nat.add_le_add_left hhigh _
      _ = ((exponent + 1074).toNat + 1) * 2 ^ 52 + 2 ^ 52 := by ring
      _ ≤ (exponent' + 1074).toNat * 2 ^ 52 + divRoundScaled num' den' exponent' :=
        Nat.add_le_add (Nat.mul_le_mul_right _ hsteps) hlow

theorem ofDecimal_mono {mantissa mantissa' : Nat} {exponent exponent' : Int}
    (h : (mantissa : ℚ) * 10 ^ exponent ≤ mantissa' * 10 ^ exponent') :
    (ofDecimal false mantissa exponent).toBits.toNat ≤
      (ofDecimal false mantissa' exponent').toBits.toNat := by
  rw [ofDecimal_eq, ofDecimal_eq, ofRatio, ofRatio,
    toNat_toBits_ofMagnitude (magnitudeBits_le _ _),
    toNat_toBits_ofMagnitude (magnitudeBits_le _ _)]
  apply Nat.add_le_add_left
  apply magnitudeBits_mono (tenTo_pos _) (tenTo_pos _)
  rw [Nat.cast_mul, Nat.cast_mul, mul_div_assoc, mul_div_assoc, ← ten_zpow, ← ten_zpow]
  exact h

/-! ## Floats without a sign -/

open Float.Model in
inductive Unpacks : Nat → UnpackedFloat → Prop
  | zero : Unpacks 0 (.zero .positive)
  | finite {mantissa : Nat} {exponent : Int} (hpos : 0 < mantissa)
      (h : Canonical mantissa exponent) :
      Unpacks (magnitude mantissa exponent) (.finite .positive mantissa exponent hpos)
  | infinity : Unpacks (2047 * 2 ^ 52) (.infinity .positive)

open Float.Model.UnpackedFloat in
theorem unpacks_ofMagnitude {size : Nat} (h : size ≤ 2047 * 2 ^ 52) :
    Unpacks size (ofMagnitude false size).toModel.unpack := by
  rw [unpack_ofMagnitude h]
  simp only [Float.Model.UnpackedFloat.unpack, signedBits, unpackMantissa_packComponents,
    unpackExponent_packComponents, unpackSign_packComponents]
  have hfraction : (BitVec.ofNat 52 size).toNat = size % 2 ^ 52 := BitVec.toNat_ofNat ..
  have hbiased : (BitVec.ofNat 11 (size / 2 ^ 52)).toNat = size / 2 ^ 52 := by
    rw [BitVec.toNat_ofNat]
    omega
  split
  case isTrue hlargest =>
    have hexponent : size / 2 ^ 52 = 2047 := hbiased.symm.trans (congrArg BitVec.toNat hlargest)
    obtain rfl : size = 2047 * 2 ^ 52 := by omega
    exact .infinity
  case isFalse hlargest =>
    have hsmaller : size / 2 ^ 52 ≠ 2047 := fun heq =>
      hlargest (BitVec.eq_of_toNat_eq (hbiased.trans heq))
    split
    case isTrue hleast =>
      have hexponent : size / 2 ^ 52 = 0 := hbiased.symm.trans (congrArg BitVec.toNat hleast)
      split
      case isTrue hnone =>
        have hzero : size % 2 ^ 52 = 0 := hfraction.symm.trans (congrArg BitVec.toNat hnone)
        obtain rfl : size = 0 := by omega
        exact .zero
      case isFalse hsome =>
        have hpos : 0 < (BitVec.ofNat 52 size).toNat :=
          Nat.pos_of_ne_zero fun hzero => hsome (BitVec.eq_of_toNat_eq hzero)
        have hcanonical : Canonical (BitVec.ofNat 52 size).toNat (-1074) :=
          .inl ⟨rfl, BitVec.isLt _⟩
        have hsize : magnitude (BitVec.ofNat 52 size).toNat (-1074) = size := by
          rw [magnitude, hfraction]
          omega
        have hunpacks := Unpacks.finite hpos hcanonical
        rw [hsize] at hunpacks
        convert hunpacks using 2
        · rfl
        · rw [hbiased, hexponent]
          rfl
    case isFalse hleast =>
      have hnormal : size / 2 ^ 52 ≠ 0 := fun heq =>
        hleast (BitVec.eq_of_toNat_eq (hbiased.trans heq))
      have hmantissa : (1#1 ++ BitVec.ofNat 52 size).toNat = 2 ^ 52 + size % 2 ^ 52 := by
        rw [BitVec.toNat_append, ← Nat.shiftLeft_add_eq_or_of_lt (BitVec.isLt _), hfraction]
        rfl
      have hpos : 0 < (1#1 ++ BitVec.ofNat 52 size).toNat := by omega
      have hcanonical : Canonical (1#1 ++ BitVec.ofNat 52 size).toNat
          ((size / 2 ^ 52 : Nat) - 1075) := by
        unfold Canonical
        omega
      have hsize : magnitude (1#1 ++ BitVec.ofNat 52 size).toNat ((size / 2 ^ 52 : Nat) - 1075) =
          size := by
        unfold magnitude
        omega
      have hunpacks := Unpacks.finite hpos hcanonical
      rw [hsize] at hunpacks
      convert hunpacks using 2
      · rfl
      · rw [hbiased]
        rfl

open Float.Model in
theorem compare_canonical {mantissa mantissa' : Nat} {exponent exponent' : Int}
    (h : Canonical mantissa exponent) (h' : Canonical mantissa' exponent') :
    (compare exponent exponent').then (compare mantissa mantissa') =
      compare (magnitude mantissa exponent) (magnitude mantissa' exponent') := by
  unfold Canonical at h h'
  unfold magnitude
  rcases lt_trichotomy exponent exponent' with hlt | rfl | hlt
  · have hsizes : (exponent + 1074).toNat * 2 ^ 52 + mantissa <
        (exponent' + 1074).toNat * 2 ^ 52 + mantissa' := by omega
    rw [compare_lt_iff_lt.mpr hlt, compare_lt_iff_lt.mpr hsizes]
    rfl
  · have hself : compare exponent exponent = .eq := Std.ReflOrd.compare_self
    rw [hself]
    simp [compare, compareOfLessAndEq, Ordering.then]
  · have hsizes : (exponent' + 1074).toNat * 2 ^ 52 + mantissa' <
        (exponent + 1074).toNat * 2 ^ 52 + mantissa := by omega
    rw [compare_gt_iff_gt.mpr hlt, compare_gt_iff_gt.mpr hsizes]
    rfl

open Float.Model in
/-- **Floats without a sign are in the order of their magnitudes.** -/
theorem compare_unpacks {size size' : Nat} {u u' : UnpackedFloat} (h : Unpacks size u)
    (h' : Unpacks size' u') : u.compare u' = some (compare size size') := by
  have hsize : ∀ {mantissa exponent}, 0 < mantissa → 0 < magnitude mantissa exponent :=
    fun hpos => Nat.add_pos_right _ hpos
  cases h with
  | zero =>
    cases h' with
    | zero => rfl
    | finite hpos' h' => rw [compare_lt_iff_lt.mpr (hsize hpos')]; rfl
    | infinity => rfl
  | finite hpos h =>
    cases h' with
    | zero => rw [compare_gt_iff_gt.mpr (hsize hpos)]; rfl
    | finite hpos' h' => exact congrArg some (compare_canonical h h')
    | infinity => rw [compare_lt_iff_lt.mpr (magnitude_lt h)]; rfl
  | infinity =>
    cases h' with
    | zero => rfl
    | finite hpos' h' => rw [compare_gt_iff_gt.mpr (magnitude_lt h')]; rfl
    | infinity => rfl

/-- That a float has no sign and is a number, possibly infinity. -/
def IsUnsigned (x : Float) : Prop := x.toBits.toNat ≤ 2047 * 2 ^ 52

theorem toNat_toBits_unsigned {size : Nat} (h : size ≤ 2047 * 2 ^ 52) :
    (ofMagnitude false size).toBits.toNat = size := by
  rw [toNat_toBits_ofMagnitude h, if_neg Bool.false_ne_true, Nat.zero_add]

section

variable {x y : Float} (hx : IsUnsigned x) (hy : IsUnsigned y)

include hx hy

theorem compare_unsigned :
    x.toModel.unpack.compare y.toModel.unpack = some (compare x.toBits.toNat y.toBits.toNat) := by
  have hunpacks : ∀ {x : Float}, IsUnsigned x → Unpacks x.toBits.toNat x.toModel.unpack := by
    intro x hx
    have hself : ofMagnitude false x.toBits.toNat = x := ofMagnitude_of_toNat (Nat.zero_add _).symm
    have hparts := unpacks_ofMagnitude hx
    rwa [hself] at hparts
  exact compare_unpacks (hunpacks hx) (hunpacks hy)

theorem lt_iff_toBits : x < y ↔ x.toBits.toNat < y.toBits.toNat := by
  have hlt : x < y ↔ (x.toModel.unpack.compare y.toModel.unpack == some .lt) = true :=
    decide_eq_true_iff
  rw [hlt, compare_unsigned hx hy, ← compare_lt_iff_lt, beq_iff_eq, Option.some.injEq]

theorem le_iff_toBits : x ≤ y ↔ x.toBits.toNat ≤ y.toBits.toNat := by
  have hle : x ≤ y ↔ (x.toModel.unpack.compare y.toModel.unpack).any (·.isLE) = true :=
    decide_eq_true_iff
  rw [hle, compare_unsigned hx hy, Option.any_some, Ordering.isLE_iff_ne_gt, ← compare_le_iff_le]

end

end TemplateExpr.Number

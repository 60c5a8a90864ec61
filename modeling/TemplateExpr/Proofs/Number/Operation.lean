import Mathlib
import TemplateExpr.Proofs.Number.Line

/-!
# Sums, products and quotients are rounded

Core adds, multiplies and divides floats by shifting mantissas, with two bits that remember what was
shifted out. What it does is rounding: the result is the float nearest to the exact result
(`Stands.add`, `Stands.mul`, `Stands.div`). This is shown for floats above zero.
-/

namespace TemplateExpr.Number

open Float.Model
open Float.Model.UnpackedFloat (Accuracy ExtendedMantissa accuracyOfFraction roundWithAccuracy
  shiftToExponent shiftToTargetExponent decreaseExponent)

theorem ofModel_pack_unpack (x : Float) :
    Float.ofModel (Float.Model.pack x.toModel.unpack) = x := by
  obtain ⟨⟨bits, hvalid⟩⟩ := x
  show Float.ofModel (Float.Model.pack (.unpack .binary64 bits.toBitVec)) = _
  simp only [Float.Model.pack, pack_unpack hvalid]

theorem add_zero_of_unpack {x zero : Float} (hx : ∀ sign, x.toModel.unpack ≠ .zero sign)
    (hzero : zero.toModel.unpack = .zero .positive) :
    x + zero = x ∧ zero + x = x ∧ x - zero = x := by
  have hself := ofModel_pack_unpack x
  have hsums : ∀ u : UnpackedFloat, (∀ sign, u ≠ .zero sign) →
      u.add .binary64 (.zero .positive) = u ∧ UnpackedFloat.add .binary64 (.zero .positive) u = u ∧
        u.sub .binary64 (.zero .positive) = u := by
    intro u hu
    cases u with
    | zero sign => exact absurd rfl (hu sign)
    | _ => exact ⟨rfl, rfl, rfl⟩
  obtain ⟨hadd, hadd', hsub⟩ := hsums x.toModel.unpack hx
  refine ⟨?_, ?_, ?_⟩
  · show Float.ofModel (.pack (.add .binary64 x.toModel.unpack zero.toModel.unpack)) = x
    rw [hzero, hadd, hself]
  · show Float.ofModel (.pack (.add .binary64 zero.toModel.unpack x.toModel.unpack)) = x
    rw [hzero, hadd', hself]
  · show Float.ofModel (.pack (.sub .binary64 x.toModel.unpack zero.toModel.unpack)) = x
    rw [hzero, hsub, hself]

/-! ## Shifted mantissas -/

structure ReadsOff (em : ExtendedMantissa) (num den : Nat) : Prop where
  mantissa : em.mantissa = num / den
  roundBit : em.roundBit = true ↔ den ≤ 2 * (num % den)
  stickyBit : em.stickyBit = true ↔ 2 * (num % den) ≠ 0 ∧ 2 * (num % den) ≠ den

theorem readsOff_start {m r d : Nat} (hr : r < d) :
    ReadsOff (.ofMantissaAndAccuracy m (accuracyOfFraction r d)) (m * d + r) d := by
  have hdiv : (m * d + r) / d = m := by
    rw [Nat.mul_comm, Nat.mul_add_div (by omega), Nat.div_eq_of_lt hr, add_zero]
  have hmod : (m * d + r) % d = r := by
    rw [Nat.mul_comm, Nat.mul_add_mod, Nat.mod_eq_of_lt hr]
  have hread : ∀ accuracy roundBit stickyBit,
      ExtendedMantissa.ofMantissaAndAccuracy m accuracy = ⟨m, roundBit, stickyBit⟩ →
      (roundBit = true ↔ d ≤ 2 * r) → (stickyBit = true ↔ 2 * r ≠ 0 ∧ 2 * r ≠ d) →
        ReadsOff (.ofMantissaAndAccuracy m accuracy) (m * d + r) d := by
    intro accuracy roundBit stickyBit hbits hround hsticky
    rw [hbits]
    exact ⟨hdiv.symm, by rw [hmod]; exact hround, by rw [hmod]; exact hsticky⟩
  unfold accuracyOfFraction
  split
  · exact hread _ false false rfl (by simp; omega) (by simp; omega)
  · rcases lt_trichotomy (2 * r) d with hlt | heq | hgt
    · rw [compare_lt_iff_lt.mpr hlt]
      exact hread _ false true rfl (by simp; omega) (by simp; omega)
    · rw [compare_eq_iff_eq.mpr heq]
      exact hread _ true false rfl (by simp; omega) (by simp; omega)
    · rw [compare_gt_iff_gt.mpr hgt]
      exact hread _ true true rfl (by simp; omega) (by simp; omega)

theorem ReadsOff.shiftRightOne {em : ExtendedMantissa} {num den : Nat} (hden : 0 < den)
    (h : ReadsOff em num den) : ReadsOff em.shiftRightOne num (den * 2) := by
  have hmod : num % (den * 2) = num % den + den * (num / den % 2) := Nat.mod_mul
  have hlt : num % den < den := Nat.mod_lt _ hden
  constructor
  · show em.mantissa / 2 = _
    rw [h.mantissa, Nat.div_div_eq_div_mul]
  · show (em.mantissa % 2 != 0) = true ↔ _
    rw [h.mantissa, hmod]
    rcases Nat.mod_two_eq_zero_or_one (num / den) with heven | hodd
    · simp [heven]
      omega
    · simp [hodd]
      omega
  · show (em.roundBit || em.stickyBit) = true ↔ _
    rw [Bool.or_eq_true, h.roundBit, h.stickyBit, hmod]
    rcases Nat.mod_two_eq_zero_or_one (num / den) with heven | hodd
    · rw [heven]
      omega
    · rw [hodd]
      omega

theorem ReadsOff.shiftRight {em : ExtendedMantissa} {num den : Nat} (hden : 0 < den)
    (h : ReadsOff em num den) (n : Nat) : ReadsOff (em >>> n) num (den * 2 ^ n) := by
  induction n with
  | zero =>
    rw [pow_zero, mul_one]
    exact h
  | succ n ih =>
    rw [pow_succ, ← mul_assoc]
    exact ih.shiftRightOne (by positivity)

/-- The two bits are enough to round. -/
theorem ReadsOff.roundedMantissa {em : ExtendedMantissa} {num den : Nat} (hden : 0 < den)
    (h : ReadsOff em num den) : em.roundedMantissa = divRound num den := by
  obtain ⟨hmantissa, hround, hsticky⟩ := h
  obtain ⟨mantissa, roundBit, stickyBit⟩ := em
  simp only at hmantissa hround hsticky
  subst hmantissa
  unfold divRound
  dsimp only
  cases roundBit with
  | false =>
    have hless : 2 * (num % den) < den := by simpa using hround
    have hdown : ¬(den < 2 * (num % den) ∨ 2 * (num % den) = den ∧ num / den % 2 = 1) := by omega
    rw [if_neg hdown]
    cases stickyBit <;> rfl
  | true =>
    have hmore : den ≤ 2 * (num % den) := by simpa using hround
    cases stickyBit with
    | false =>
      have htie : 2 * (num % den) = den := by
        have hexact : 2 * (num % den) ≠ 0 → 2 * (num % den) = den := by simpa using hsticky
        exact hexact (by omega)
      show num / den + num / den % 2 = _
      split <;> omega
    | true =>
      have hup : den < 2 * (num % den) := by
        have hrest : 2 * (num % den) ≠ 0 ∧ 2 * (num % den) ≠ den := by simpa using hsticky
        omega
      rw [if_pos (.inl hup)]
      rfl

/-! ## The nearest float -/

def nearest (q : ℚ) : Float := ofRatio false q.num.natAbs q.den

theorem num_div_den {q : ℚ} (h : 0 ≤ q) : (q.num.natAbs : ℚ) / q.den = q := by
  have hnum : ((q.num.natAbs : Int) : ℚ) = (q.num : ℚ) := by
    rw [Int.natAbs_of_nonneg (Rat.num_nonneg.mpr h)]
  rw [← Int.cast_natCast, hnum, Rat.num_div_den]

theorem div_add_mod_div (num : Nat) {den : Nat} (hden : 0 < den) :
    ((num / den : Nat) : ℚ) + (num % den : Nat) / den = num / den := by
  have hsplit : (num : ℚ) = den * (num / den : Nat) + (num % den : Nat) := by
    exact_mod_cast (Nat.div_add_mod num den).symm
  rw [hsplit]
  field_simp

theorem ofRatio_eq_nearest (num : Nat) {den : Nat} (hden : 0 < den) :
    ofRatio false num den = nearest (num / den) := by
  have hvalue := num_div_den (show (0 : ℚ) ≤ num / den by positivity)
  rw [nearest, ofRatio, ofRatio, magnitudeBits_congr hden (Rat.den_pos _)]
  rw [div_eq_div_iff (by positivity) (by positivity)] at hvalue
  exact_mod_cast hvalue.symm

theorem divRoundScaled_eq {num den num' den' : Nat} {exponent : Int} (hden : 0 < den)
    (hden' : 0 < den') (h : (num : ℚ) / den = num' / den' * 2 ^ exponent) :
    divRoundScaled num den exponent = divRound num' den' := by
  have hpos : (den : ℚ) ≠ 0 := by positivity
  have hpos' : (den' : ℚ) ≠ 0 := by positivity
  unfold divRoundScaled
  split
  · next hexponent =>
    obtain ⟨n, rfl⟩ := Int.eq_ofNat_of_zero_le hexponent
    apply divRound_congr (Nat.mul_pos hden (twoTo_pos _)) hden'
    rw [zpow_natCast, ← twoTo_cast] at h
    field_simp at h
    rw [Int.toNat_natCast]
    have hcast : (num : ℚ) * den' = num' * (den * twoTo n) := by
      rw [h]
      ring
    exact_mod_cast hcast
  · next hexponent =>
    obtain ⟨n, rfl⟩ : ∃ n : Nat, exponent = -(n : Int) := ⟨(-exponent).toNat, by omega⟩
    apply divRound_congr hden hden'
    rw [zpow_neg, zpow_natCast, ← twoTo_cast] at h
    have htwo : (twoTo n : ℚ) ≠ 0 := by exact_mod_cast (twoTo_pos n).ne'
    field_simp at h
    rw [neg_neg, Int.toNat_natCast]
    have hcast : (num : ℚ) * twoTo n * den' = num' * den := by
      rw [mul_right_comm, h]
      ring
    exact_mod_cast hcast

theorem unpack_canonical {m : Nat} {e : Int} (hpos : 0 < m) (h : Canonical m e) :
    (ofMagnitude false (magnitude m e)).toModel.unpack = .finite .positive m e hpos := by
  have hunpacks := unpacks_ofMagnitude (magnitude_lt h).le
  generalize hsize : magnitude m e = size at hunpacks ⊢
  generalize (ofMagnitude false size).toModel.unpack = u at hunpacks ⊢
  cases hunpacks with
  | zero =>
    unfold magnitude at hsize
    omega
  | infinity => exact absurd (magnitude_lt h) (by omega)
  | finite hpos' h' =>
    obtain ⟨rfl, rfl⟩ := canonical_unique h h' hsize
    rfl

/-- A mantissa and an exponent with enough bits are packed as they are, or are beyond the floats. -/
theorem pack_finite {m : Nat} {e : Int} (hpos : 0 < m)
    (h : e = -1074 ∧ m < 2 ^ 52 ∨ -1074 ≤ e ∧ 2 ^ 52 ≤ m ∧ m < 2 ^ 53) :
    Float.ofModel (.pack (.finite .positive m e hpos)) =
      ofMagnitude false (min (magnitude m e) (2047 * 2 ^ 52)) := by
  by_cases hroom : e ≤ 971
  · have hcanonical : Canonical m e := by
      unfold Canonical
      omega
    rw [min_eq_left (magnitude_lt hcanonical).le, ← unpack_canonical hpos hcanonical,
      ofModel_pack_unpack]
  · have hlarge : 2047 * 2 ^ 52 ≤ magnitude m e := by
      unfold magnitude
      omega
    rw [min_eq_right hlarge]
    have hbeyond : 2 ^ 11 ≤ (e + 1023 + 52).toNat + 1 := by omega
    have hpack : UnpackedFloat.pack .binary64 (.finite .positive m e hpos) =
        UnpackedFloat.pack .binary64 (.infinity .positive) := if_pos hbeyond
    have hmodel : Float.Model.pack (.finite .positive m e hpos) = .pack (.infinity .positive) := by
      simp only [Float.Model.pack, hpack]
    rw [hmodel]
    exact ofModel_pack_unpack (ofMagnitude false (2047 * 2 ^ 52))

/-! ## Rounding -/

theorem divRound_error (num : Nat) {den : Nat} (hden : 0 < den) :
    |(divRound num den : ℚ) - num / den| ≤ 1 / 2 := by
  have hpos : (0 : ℚ) < den := by exact_mod_cast hden
  have hless : ((num % den : Nat) : ℚ) / den < 1 :=
    (div_lt_one hpos).mpr (by exact_mod_cast Nat.mod_lt num hden)
  have hnonneg : (0 : ℚ) ≤ (num % den : Nat) / den := by positivity
  rw [← div_add_mod_div num hden]
  unfold divRound
  dsimp only
  split
  · next hup =>
    have hhalf : (1 : ℚ) / 2 ≤ (num % den : Nat) / den := by
      rw [div_le_div_iff₀ two_pos hpos]
      have hle : den ≤ (num % den) * 2 := by omega
      rw [one_mul]
      exact_mod_cast hle
    push_cast
    rw [abs_le]
    constructor <;> linarith
  · next hdown =>
    have hhalf : ((num % den : Nat) : ℚ) / den ≤ 1 / 2 := by
      rw [div_le_div_iff₀ hpos two_pos]
      have hle : num % den * 2 ≤ den := by omega
      rw [one_mul]
      exact_mod_cast hle
    rw [abs_le]
    constructor <;> linarith

/-- The exponent that leaves 53 bits of a mantissa, or the least there is. -/
def target (m : Nat) (e : Int) : Int := max (m.log2 + e - 52) (-1074)

theorem targetExponent_eq (m : Nat) (e : Int) :
    Format.binary64.targetExponent (totalExponent m e) = target m e := by
  show max ((m.log2 : Int) + 1 + e - 53) (-1074) = _
  unfold target
  congr 1
  omega

/-- A mantissa of at most 53 bits stays as it is, and one of 54 bits loses its last bit. -/
theorem shiftToTargetExponent_exact (M : Nat) {t : Int} (ht : -1074 ≤ t) :
    (M < 2 ^ 53 → shiftToTargetExponent .binary64 M t .exact = (⟨M, false, false⟩, t)) ∧
      (M = 2 ^ 53 → shiftToTargetExponent .binary64 M t .exact =
        (⟨2 ^ 52, false, false⟩, t + 1)) := by
  unfold shiftToTargetExponent shiftToExponent
  rw [targetExponent_eq]
  constructor
  · intro hM
    have hlog : M.log2 ≤ 52 := by
      rcases Nat.eq_zero_or_pos M with rfl | hpos
      · decide
      · exact Nat.lt_succ_iff.mp ((Nat.log2_lt hpos.ne').mpr hM)
    have hshift : (target M t - t).toNat = 0 := by
      unfold target
      omega
    simp only [hshift, Nat.cast_zero, add_zero]
    rfl
  · rintro rfl
    have hlog : (2 ^ 53).log2 = 53 := Nat.log2_two_pow
    have hshift : (target (2 ^ 53) t - t).toNat = 1 := by
      unfold target
      omega
    simp only [hshift, Nat.cast_one]
    rfl

/-- What is left after rounding, where the mantissa may have one bit too many. -/
def settled (shifted : ExtendedMantissa × Int) : UnpackedFloat :=
  if h : shifted.1.mantissa = 0 then .zero .positive
  else .finite .positive shifted.1.mantissa shifted.2 (Nat.pos_of_ne_zero h)

theorem pack_settled {M : Nat} {t : Int} (ht : -1074 ≤ t) (hhigh : M ≤ 2 ^ 53)
    (hlow : t ≠ -1074 → 2 ^ 52 ≤ M) :
    Float.ofModel (.pack (settled (shiftToTargetExponent .binary64 M t .exact))) =
      ofMagnitude false (min (magnitude M t) (2047 * 2 ^ 52)) := by
  obtain ⟨hless, hmore⟩ := shiftToTargetExponent_exact M ht
  rcases hhigh.lt_or_eq with hlt | rfl
  · rw [hless hlt]
    by_cases hzero : M = 0
    · -- Only below the least normal float a mantissa is rounded to zero.
      have hleast : t = -1074 := by
        by_contra hne
        have hbits := hlow hne
        omega
      rw [hzero, hleast]
      rfl
    · have hplaced : t = -1074 ∧ M < 2 ^ 52 ∨ -1074 ≤ t ∧ 2 ^ 52 ≤ M ∧ M < 2 ^ 53 := by omega
      rw [settled, dif_neg hzero]
      exact pack_finite (Nat.pos_of_ne_zero hzero) hplaced
  · rw [hmore rfl]
    have hcarry : magnitude (2 ^ 53) t = magnitude (2 ^ 52) (t + 1) := by
      unfold magnitude
      omega
    rw [hcarry]
    exact pack_finite (Nat.two_pow_pos 52) (.inr ⟨by omega, le_rfl, by norm_num⟩)

section

variable {m r d : Nat} {e : Int} (hm : 0 < m) (hr : r < d)

include hm hr

theorem mantissa_bounds :
    (2 : ℚ) ^ (m.log2 + e) ≤ (m + r / d) * 2 ^ e ∧
      ((m : ℚ) + r / d) * 2 ^ e < 2 ^ ((m.log2 : Int) + e + 1) := by
  have hlow : (2 : ℚ) ^ m.log2 ≤ m := by exact_mod_cast Nat.log2_self_le hm.ne'
  have hhigh : (m : ℚ) + 1 ≤ 2 ^ (m.log2 + 1) := by exact_mod_cast Nat.lt_log2_self
  have hd : (0 : ℚ) < d := by exact_mod_cast (Nat.zero_le r).trans_lt hr
  have hfraction : (r : ℚ) / d < 1 := (div_lt_one hd).mpr (by exact_mod_cast hr)
  constructor
  · rw [zpow_add₀ two_ne_zero, zpow_natCast]
    gcongr
    linarith [show (0 : ℚ) ≤ r / d by positivity]
  · rw [add_right_comm, zpow_add₀ two_ne_zero]
    gcongr
    have hpow : (2 : ℚ) ^ ((m.log2 : Int) + 1) = 2 ^ (m.log2 + 1) := by norm_cast
    rw [hpow]
    linarith

variable (he : e ≤ target m e)

/-- A mantissa with a fraction behind it, cut to the bits there are and rounded. -/
def roundedAt (m r d : Nat) (e : Int) : Nat :=
  divRound (m * d + r) (d * 2 ^ (target m e - e).toNat)

include he

theorem roundedAt_value {num den : Nat} (hden : 0 < den)
    (hvalue : (num : ℚ) / den = (m + r / d) * 2 ^ e) :
    divRoundScaled num den (target m e) = roundedAt m r d e := by
  have hdpos : 0 < d := (Nat.zero_le r).trans_lt hr
  apply divRoundScaled_eq hden (by positivity)
  obtain ⟨shift, hshift⟩ : ∃ shift : Nat, target m e = e + shift :=
    ⟨(target m e - e).toNat, by omega⟩
  rw [hvalue, hshift, add_sub_cancel_left, Int.toNat_natCast, zpow_add₀ two_ne_zero, zpow_natCast]
  push_cast
  field_simp

theorem nearest_eq_roundedAt :
    nearest ((m + r / d) * 2 ^ e) =
      ofMagnitude false (min (magnitude (roundedAt m r d e) (target m e)) (2047 * 2 ^ 52)) := by
  obtain ⟨hlow, hhigh⟩ := mantissa_bounds hm hr (e := e)
  generalize hq : ((m : ℚ) + r / d) * 2 ^ e = q at hlow hhigh ⊢
  have hpos : 0 < q := lt_of_lt_of_le (by positivity) hlow
  have hvalue := num_div_den hpos.le
  have hnum : q.num.natAbs ≠ 0 := Int.natAbs_ne_zero.mpr (Rat.num_ne_zero.mpr hpos.ne')
  have hleading : leadingBit q.num.natAbs q.den = m.log2 + e := by
    rw [leadingBit_eq (Nat.pos_of_ne_zero hnum) q.den_pos, hvalue, log_eq hlow hhigh]
  have htarget : max (leadingBit q.num.natAbs q.den - 52) (-1074) = target m e := by
    rw [hleading, target]
  have hrounded := roundedAt_value hm hr he q.den_pos (hvalue.trans hq.symm)
  rw [nearest, ofRatio]
  simp only [magnitudeBits, if_neg hnum, htarget, hrounded, magnitude, twoTo_eq]

/-- The rounded mantissa has 53 bits, or one more; below the least normal float it may have less. -/
theorem roundedAt_bounds :
    roundedAt m r d e ≤ 2 ^ 53 ∧ (-1022 ≤ m.log2 + e → 2 ^ 52 ≤ roundedAt m r d e) := by
  obtain ⟨hlow, hhigh⟩ := mantissa_bounds hm hr (e := e)
  generalize hq : ((m : ℚ) + r / d) * 2 ^ e = q at hlow hhigh
  have hpos : 0 < q := lt_of_lt_of_le (by positivity) hlow
  have hvalue := num_div_den hpos.le
  rw [← roundedAt_value hm hr he q.den_pos (hvalue.trans hq.symm)]
  constructor
  · apply divRoundScaled_le q.den_pos
    rw [hvalue]
    calc q ≤ 2 ^ ((m.log2 : Int) + e + 1) := hhigh.le
      _ ≤ 2 ^ (53 + target m e) := zpow_le_zpow_right₀ (by norm_num) (by unfold target; omega)
      _ = ((2 ^ 53 : Nat) : ℚ) * 2 ^ target m e := by
        rw [zpow_add₀ two_ne_zero]
        norm_cast
  · intro hnormal
    have htarget : 52 + target m e = m.log2 + e := by
      unfold target
      omega
    apply le_divRoundScaled q.den_pos
    rw [hvalue]
    calc ((2 ^ 52 : Nat) : ℚ) * 2 ^ target m e = 2 ^ (52 + target m e) := by
          rw [zpow_add₀ two_ne_zero]
          norm_cast
      _ = 2 ^ ((m.log2 : Int) + e) := by rw [htarget]
      _ ≤ q := hlow

omit hm in
/-- Rounding is off by no more than half a unit of the last place. -/
theorem roundedAt_error :
    |(roundedAt m r d e : ℚ) * 2 ^ target m e - (m + r / d) * 2 ^ e| ≤ 1 / 2 * 2 ^ target m e := by
  have hd : 0 < d := (Nat.zero_le r).trans_lt hr
  obtain ⟨shift, hshift⟩ : ∃ shift : Nat, target m e = e + shift :=
    ⟨(target m e - e).toNat, by omega⟩
  have herror := divRound_error (m * d + r) (Nat.mul_pos hd (Nat.two_pow_pos shift))
  have hvalue : ((m * d + r : Nat) : ℚ) / (d * 2 ^ shift : Nat) * 2 ^ target m e =
      (m + r / d) * 2 ^ e := by
    rw [hshift, zpow_add₀ two_ne_zero, zpow_natCast]
    push_cast
    field_simp
  have hunit : (0 : ℚ) < 2 ^ target m e := by positivity
  have hrounded : roundedAt m r d e = divRound (m * d + r) (d * 2 ^ shift) := by
    rw [roundedAt, hshift, add_sub_cancel_left, Int.toNat_natCast]
  rw [← hvalue, ← sub_mul, abs_mul, abs_of_pos hunit, hrounded]
  exact mul_le_mul_of_nonneg_right herror hunit.le

/-- **Core's rounding gives the nearest float.** -/
theorem roundWithAccuracy_nearest :
    Float.ofModel (.pack (roundWithAccuracy .binary64 .positive m e (accuracyOfFraction r d))) =
      nearest ((m + r / d) * 2 ^ e) := by
  obtain ⟨hhigh, hnormal⟩ := roundedAt_bounds hm hr he
  have hlow : target m e ≠ -1074 → 2 ^ 52 ≤ roundedAt m r d e := by
    intro habove
    apply hnormal
    unfold target at habove
    omega
  have hd : 0 < d := (Nat.zero_le r).trans_lt hr
  have htarget : -1074 ≤ target m e := le_max_right _ _
  obtain ⟨shift, hshift⟩ : ∃ shift : Nat, target m e = e + shift :=
    ⟨(target m e - e).toNat, by omega⟩
  have hfirst : shiftToTargetExponent .binary64 m e (accuracyOfFraction r d) =
      (ExtendedMantissa.ofMantissaAndAccuracy m (accuracyOfFraction r d) >>> (target m e - e).toNat,
        target m e) := by
    unfold shiftToTargetExponent shiftToExponent
    rw [targetExponent_eq]
    simp only [hshift, add_sub_cancel_left, Int.toNat_natCast]
  have hrounded : (ExtendedMantissa.ofMantissaAndAccuracy m (accuracyOfFraction r d) >>>
      (target m e - e).toNat).roundedMantissa = roundedAt m r d e :=
    ((readsOff_start hr).shiftRight hd _).roundedMantissa (by positivity)
  show Float.ofModel (.pack (settled (shiftToTargetExponent .binary64
    (shiftToTargetExponent .binary64 m e (accuracyOfFraction r d)).1.roundedMantissa
    (shiftToTargetExponent .binary64 m e (accuracyOfFraction r d)).2 .exact))) = _
  rw [nearest_eq_roundedAt hm hr he, hfirst]
  dsimp only
  rw [hrounded]
  exact pack_settled htarget hhigh hlow

end

/-! ## The operations -/

inductive Stands (x : Float) : ℚ → Prop
  | intro {m : Nat} {e : Int} (hpos : 0 < m) (hcanonical : Canonical m e)
      (hunpack : x.toModel.unpack = .finite .positive m e hpos) : Stands x (m * 2 ^ e)

theorem Stands.eq_ofMagnitude {x : Float} {q : ℚ} (h : Stands x q) :
    ∃ m e, 0 < m ∧ Canonical m e ∧ x = ofMagnitude false (magnitude m e) ∧ q = m * 2 ^ e := by
  cases h with
  | @intro m e hpos hcanonical hunpack =>
    have hx : x = ofMagnitude false (magnitude m e) := by
      rw [← ofModel_pack_unpack x, hunpack, ← unpack_canonical hpos hcanonical, ofModel_pack_unpack]
    exact ⟨m, e, hpos, hcanonical, hx, rfl⟩

theorem le_target {m : Nat} {e : Int} (h : e ≤ -1074 ∨ 2 ^ 52 ≤ m) : e ≤ target m e := by
  unfold target
  rcases h with hleast | hbits
  · omega
  · have hlog : 52 ≤ m.log2 := (Nat.le_log2 (by omega)).mpr hbits
    omega

theorem roundWithAccuracy_exact {m : Nat} {e : Int} (hm : 0 < m) (he : e ≤ target m e) :
    Float.ofModel (.pack (roundWithAccuracy .binary64 .positive m e .exact)) =
      nearest (m * 2 ^ e) := by
  have h := roundWithAccuracy_nearest hm one_pos he
  rw [Nat.cast_zero, zero_div, add_zero] at h
  exact h

/-- **A product is the float nearest to the exact product.** -/
theorem Stands.mul {x y : Float} {p q : ℚ} (hx : Stands x p) (hy : Stands y q) :
    x * y = nearest (p * q) := by
  cases hx with
  | @intro m e hpos hcanonical hunpack =>
  cases hy with
  | @intro m' e' hpos' hcanonical' hunpack' =>
    show Float.ofModel (.pack (.mul .binary64 x.toModel.unpack y.toModel.unpack)) = _
    rw [hunpack, hunpack']
    have hroom : e + e' ≤ target (m * m') (e + e') := by
      apply le_target
      unfold Canonical at hcanonical hcanonical'
      rcases hcanonical with ⟨rfl, -⟩ | ⟨-, -, hbits, -⟩
      · rcases hcanonical' with ⟨rfl, -⟩ | ⟨-, -, hbits', -⟩
        · exact .inl (by decide)
        · exact .inr (hbits'.trans (Nat.le_mul_of_pos_left _ hpos))
      · exact .inr (hbits.trans (Nat.le_mul_of_pos_right _ hpos'))
    refine (roundWithAccuracy_exact (Nat.mul_pos hpos hpos') hroom).trans ?_
    congr 1
    rw [Nat.cast_mul, zpow_add₀ two_ne_zero]
    ring

theorem round_nearest {m : Nat} {e : Int} (hm : 0 < m) :
    Float.ofModel (.pack (.round .binary64 .positive m e)) = nearest (m * 2 ^ e) := by
  have hround : UnpackedFloat.round .binary64 .positive m e =
      roundWithAccuracy .binary64 .positive (m <<< (e - target m e).toNat)
        (e - (e - target m e).toNat) .exact := by
    unfold UnpackedFloat.round decreaseExponent
    rw [targetExponent_eq]
  generalize hshift : (e - target m e).toNat = shift at hround
  have hpos : 0 < m <<< shift := by
    rw [Nat.shiftLeft_eq]
    positivity
  have hlog : (m <<< shift).log2 = m.log2 + shift := by
    rw [Nat.log2_eq_iff hpos.ne', Nat.shiftLeft_eq, add_right_comm, pow_add, pow_add]
    exact ⟨Nat.mul_le_mul_right _ (Nat.log2_self_le hm.ne'),
      Nat.mul_lt_mul_of_pos_right Nat.lt_log2_self (by positivity)⟩
  have hroom : e - shift ≤ target (m <<< shift) (e - shift) := by
    unfold target at hshift ⊢
    omega
  rw [hround, roundWithAccuracy_exact hpos hroom, Nat.shiftLeft_eq]
  congr 1
  rw [Nat.cast_mul, Nat.cast_pow, zpow_sub₀ two_ne_zero, zpow_natCast]
  field_simp
  norm_num

theorem decreaseExponent_value (m : Nat) {e smaller : Int} (h : smaller ≤ e) :
    ((decreaseExponent m e smaller).1 : ℚ) * 2 ^ smaller = m * 2 ^ e := by
  obtain ⟨shift, rfl⟩ : ∃ shift : Nat, e = smaller + shift := ⟨(e - smaller).toNat, by omega⟩
  unfold decreaseExponent
  simp only [add_sub_cancel_left, Int.toNat_natCast, Nat.shiftLeft_eq, Nat.cast_mul, Nat.cast_pow,
    zpow_add₀ (two_ne_zero (α := ℚ)), zpow_natCast]
  norm_num
  ring

/-- **A sum is the float nearest to the exact sum.** -/
theorem Stands.add {x y : Float} {p q : ℚ} (hx : Stands x p) (hy : Stands y q) :
    x + y = nearest (p + q) := by
  cases hx with
  | @intro m e hpos hcanonical hunpack =>
  cases hy with
  | @intro m' e' hpos' hcanonical' hunpack' =>
    show Float.ofModel (.pack (.add .binary64 x.toModel.unpack y.toModel.unpack)) = _
    rw [hunpack, hunpack']
    have hvalue := decreaseExponent_value m (min_le_left e e')
    have hvalue' := decreaseExponent_value m' (min_le_right e e')
    show Float.ofModel (.pack (.normalize .binary64
      ((decreaseExponent m e (min e e')).1 + (decreaseExponent m' e' (min e e')).1 : Int)
      (min e e') .positive)) = _
    generalize (decreaseExponent m e (min e e')).1 = n at hvalue ⊢
    generalize (decreaseExponent m' e' (min e e')).1 = n' at hvalue' ⊢
    have hsum : 0 < n + n' := by
      have hleft : (0 : ℚ) < n * 2 ^ min e e' := by
        rw [hvalue]
        positivity
      have hn : (0 : ℚ) < n := pos_of_mul_pos_left hleft (by positivity)
      exact Nat.add_pos_left (by exact_mod_cast hn) _
    have hnormalize : UnpackedFloat.normalize .binary64 ((n : Int) + n') (min e e') .positive =
        .round .binary64 .positive (n + n') (min e e') := by
      have hgreater : compare ((n : Int) + n') 0 = .gt := compare_gt_iff_gt.mpr (by omega)
      rw [UnpackedFloat.normalize, hgreater]
      rfl
    rw [hnormalize, round_nearest hsum, Nat.cast_add, add_mul, hvalue, hvalue']

theorem div_bounds {m m' : Nat} (hm : 0 < m) (hm' : 0 < m') (e e' : Int) :
    (2 : ℚ) ^ ((m.log2 : Int) + e - (m'.log2 + e') - 1) < m * 2 ^ e / (m' * 2 ^ e') := by
  obtain ⟨hlow, -⟩ := mantissa_bounds hm one_pos (r := 0) (e := e)
  obtain ⟨-, hhigh⟩ := mantissa_bounds hm' one_pos (r := 0) (e := e')
  rw [Nat.cast_zero, zero_div, add_zero] at hlow hhigh
  rw [lt_div_iff₀ (by positivity)]
  calc (2 : ℚ) ^ ((m.log2 : Int) + e - (m'.log2 + e') - 1) * (m' * 2 ^ e')
      < 2 ^ ((m.log2 : Int) + e - (m'.log2 + e') - 1) * 2 ^ ((m'.log2 : Int) + e' + 1) := by
        gcongr
    _ = 2 ^ ((m.log2 : Int) + e) := by
        rw [← zpow_add₀ two_ne_zero]
        congr 1
        ring
    _ ≤ m * 2 ^ e := hlow

/-- **A quotient is the float nearest to the exact quotient**, where that is no less than the least
float. -/
theorem Stands.div {x y : Float} {p q : ℚ} (hx : Stands x p) (hy : Stands y q)
    (hleast : (2 : ℚ) ^ (-1074 : Int) ≤ p / q) : x / y = nearest (p / q) := by
  cases hx with
  | @intro m e hpos hcanonical hunpack =>
  cases hy with
  | @intro m' e' hpos' hcanonical' hunpack' =>
    show Float.ofModel (.pack (.div .binary64 x.toModel.unpack y.toModel.unpack)) = _
    rw [hunpack, hunpack']
    have hlow := div_bounds hpos hpos' e e'
    -- The exponent at which the mantissas are divided.
    obtain ⟨t, ht⟩ : ∃ t, min (e - e') (Format.binary64.targetExponent
      (totalExponent m e - totalExponent m' e')) = t := ⟨_, rfl⟩
    have htarget : t = min (e - e') (max ((m.log2 : Int) + e - (m'.log2 + e') - 53) (-1074)) := by
      rw [← ht]
      congr 1
      show max ((m.log2 : Int) + 1 + e - (m'.log2 + 1 + e') - 53) (-1074) = _
      congr 1
      omega
    obtain ⟨shift, hshift⟩ : ∃ shift : Nat, e - e' = t + shift := ⟨(e - e' - t).toNat, by omega⟩
    have hdiv : UnpackedFloat.div .binary64 (.finite .positive m e hpos)
        (.finite .positive m' e' hpos') =
          roundWithAccuracy .binary64 .positive (m <<< shift / m') t
            (accuracyOfFraction (m <<< shift % m') m') := by
      have hamount : (e - e' - t).toNat = shift := by omega
      simp only [UnpackedFloat.div, UnpackedFloat.divCore, ht, hamount]
      rfl
    have hquotient : (m : ℚ) * 2 ^ e / (m' * 2 ^ e') = (m <<< shift : Nat) / m' * 2 ^ t := by
      have hexponent : e = t + shift + e' := by omega
      rw [hexponent, zpow_add₀ two_ne_zero, zpow_add₀ two_ne_zero, zpow_natCast, Nat.shiftLeft_eq]
      push_cast
      field_simp
    generalize m <<< shift = n at hdiv hquotient
    have hvalue : (((n / m' : Nat) : ℚ) + (n % m' : Nat) / m') * 2 ^ t =
        m * 2 ^ e / (m' * 2 ^ e') := by
      rw [div_add_mod_div n hpos', hquotient]
    have hwhole : ∀ k : Nat, (k : ℚ) * 2 ^ t ≤ m * 2 ^ e / (m' * 2 ^ e') → k ≤ n / m' := by
      intro k hk
      rw [hquotient] at hk
      have hle : (k : ℚ) ≤ n / m' := le_of_mul_le_mul_right hk (by positivity)
      rw [le_div_iff₀ (by positivity)] at hle
      exact (Nat.le_div_iff_mul_le hpos').mpr (by exact_mod_cast hle)
    have hbits : t ≤ -1074 ∨ 2 ^ 52 ≤ n / m' := by
      by_cases hsmall : t ≤ -1074
      · exact .inl hsmall
      · refine .inr (hwhole (2 ^ 52) (le_trans ?_ hlow.le))
        rw [Nat.cast_pow, Nat.cast_ofNat, ← zpow_natCast, ← zpow_add₀ two_ne_zero]
        exact zpow_le_zpow_right₀ (by norm_num) (by push_cast; omega)
    have hpositive : 0 < n / m' := by
      rcases hbits with hsmall | hbits
      · refine hwhole 1 (le_trans ?_ hleast)
        rw [Nat.cast_one, one_mul]
        exact zpow_le_zpow_right₀ (by norm_num) hsmall
      · omega
    rw [hdiv, roundWithAccuracy_nearest hpositive (Nat.mod_lt _ hpos') (le_target hbits), hvalue]

end TemplateExpr.Number

import Mathlib
import TemplateExpr.Proofs.Number.DecimalBack
import TemplateExpr.Proofs.Number.DecimalTrip

/-!
# Floats of few digits

Between a float and its decimal digits are lost twice: where a factor of five has no room the last
bit goes, and then the digits behind the precision of a float are dropped, one at a time. A float
that stands for a decimal of at most fifteen digits is so close to it that the digits of the decimal
are what is left (`Decimal.ofFloat?_of_digits`), unless the dropping stops one digit early. That
happens where the digits, as many as there are, come to between `4 * 10 ^ 15` and `2 ^ 52`.
-/

namespace TemplateExpr.Number

/-- That the digits of a number, with any number of zeros behind them, come to no more than
`4 * 10 ^ 15` or to `2 ^ 52` and more. -/
def ClearOfLimit (digits : Nat) : Prop :=
  ∀ zeros, digits * 10 ^ zeros ≤ 4 * 10 ^ 15 ∨ 2 ^ 52 ≤ digits * 10 ^ zeros

/-- That a float is the one nearest to a decimal of at most fifteen digits and 22 places. -/
def HasFewDigits (x : Float) : Prop :=
  ∃ negative digits scale, x = ofRatio negative digits (tenTo scale) ∧
    digits ≤ 10 ^ 15 ∧ scale ≤ 22 ∧ ClearOfLimit digits

namespace Decimal

/-! ## Trading loses little -/

def lastBit : ℚ := 5 / 2 ^ 96

theorem tradeHalves_ge (steps mantissa : Nat) (exponent : Int) :
    (mantissa : ℚ) * 5 ^ steps * 10 ^ exponent * (1 - lastBit) ^ steps ≤
      (tradeHalves steps mantissa exponent).1 * 10 ^ (tradeHalves steps mantissa exponent).2 := by
  have hkept : 0 ≤ 1 - lastBit ∧ 1 - lastBit ≤ 1 := by
    unfold lastBit
    norm_num
  induction steps generalizing mantissa exponent with
  | zero => simp [tradeHalves]
  | succ steps ih =>
    rw [tradeHalves]
    split
    · refine le_trans ?_ (ih (mantissa * 5) exponent)
      calc (mantissa : ℚ) * 5 ^ (steps + 1) * 10 ^ exponent * (1 - lastBit) ^ (steps + 1)
          ≤ mantissa * 5 ^ (steps + 1) * 10 ^ exponent * (1 - lastBit) ^ steps := by
            apply mul_le_mul_of_nonneg_left _ (by positivity)
            exact pow_le_pow_of_le_one hkept.1 hkept.2 (Nat.le_succ steps)
        _ = (mantissa * 5 : Nat) * 5 ^ steps * 10 ^ exponent * (1 - lastBit) ^ steps := by
            push_cast
            ring
    · next hroom =>
      refine le_trans ?_ (ih (mantissa / 2) (exponent + 1))
      -- A bit is lost only from a large mantissa.
      have hhalf : (mantissa : ℚ) / 2 * (1 - lastBit) ≤ (mantissa / 2 : Nat) := by
        have hnonneg : (0 : ℚ) ≤ mantissa := Nat.cast_nonneg _
        rcases Nat.mod_two_eq_zero_or_one mantissa with heven | hodd
        · rw [Nat.cast_div (Nat.dvd_of_mod_eq_zero heven) two_ne_zero, Nat.cast_ofNat]
          exact mul_le_of_le_one_right (by linarith) hkept.2
        · have hlarge : 2 ^ 96 ≤ mantissa * 5 := by
            by_contra hless
            exact hroom ⟨hodd, not_le.mp hless⟩
          have hlarge : (2 : ℚ) ^ 96 ≤ mantissa * 5 := by exact_mod_cast hlarge
          have hwhole : (mantissa : ℚ) = 2 * (mantissa / 2 : Nat) + 1 := by
            exact_mod_cast (by omega : mantissa = 2 * (mantissa / 2) + 1)
          have hlost : 1 ≤ mantissa * lastBit := by
            rw [lastBit, mul_div_assoc', le_div_iff₀ (by positivity), one_mul]
            exact hlarge
          linarith
      calc (mantissa : ℚ) * 5 ^ (steps + 1) * 10 ^ exponent * (1 - lastBit) ^ (steps + 1)
          = mantissa / 2 * (1 - lastBit) * 5 ^ steps * 10 ^ (exponent + 1) *
              (1 - lastBit) ^ steps := by
            rw [zpow_add_one₀ (by norm_num)]
            ring
        _ ≤ (mantissa / 2 : Nat) * 5 ^ steps * 10 ^ (exponent + 1) * (1 - lastBit) ^ steps := by
            have hpow : 0 ≤ (1 - lastBit) ^ steps := pow_nonneg hkept.1 _
            gcongr

/-- What is left after trading is the float, but for less than one part in `2 ^ 83`. -/
theorem tradeHalves_error {k mantissa places : Nat} (hk : k ≤ 1074)
    (hplaces : (tradeHalves k mantissa (-k)).2 = -(places : Int)) :
    |((tradeHalves k mantissa (-k)).1 : ℚ) / 10 ^ places - mantissa * 2 ^ (-(k : Int))| ≤
      mantissa * 2 ^ (-(k : Int)) * (1 / 2 ^ 83) := by
  have hvalue : (mantissa : ℚ) * 5 ^ k * 10 ^ (-(k : Int)) = mantissa * 2 ^ (-(k : Int)) := by
    rw [zpow_neg, zpow_neg, zpow_natCast, zpow_natCast, show (10 : ℚ) = 5 * 2 by norm_num, mul_pow]
    field_simp
  have hback : ∀ M : ℚ, M * 10 ^ (-(places : Int)) = M / 10 ^ places := by
    intro M
    rw [zpow_neg, zpow_natCast, div_eq_mul_inv]
  have hbelow := tradeHalves_ge k mantissa (-k)
  have habove := tradeHalves_le k mantissa (-k)
  rw [hvalue, hplaces, hback] at hbelow habove
  have hpos : (0 : ℚ) ≤ mantissa * 2 ^ (-(k : Int)) := by positivity
  have hkept : (1 : ℚ) - 1 / 2 ^ 83 ≤ (1 - lastBit) ^ k := by
    have hsteps : (k : ℚ) ≤ 1074 := by exact_mod_cast hk
    have hbernoulli : 1 + k * -lastBit ≤ (1 + -lastBit) ^ k := by
      apply one_add_mul_le_pow
      unfold lastBit
      norm_num
    rw [← sub_eq_add_neg] at hbernoulli
    refine le_trans ?_ hbernoulli
    unfold lastBit
    linarith
  have hless := mul_le_mul_of_nonneg_left hkept hpos
  generalize (mantissa : ℚ) * 2 ^ (-(k : Int)) = v at *
  rw [abs_le]
  constructor <;> linarith

/-! ## Dropping digits -/

/-- Digits dropped one at a time leave a number that is at most four ninths too small and less than
five ninths too large. -/
theorem dropDigit_iterate (i m : Nat) :
    9 * m + 4 ≤ (9 * dropDigit^[i] m + 4) * 10 ^ i ∧
      9 * dropDigit^[i] m * 10 ^ i + 5 ≤ 9 * m + 5 * 10 ^ i := by
  induction i generalizing m with
  | zero =>
    rw [Function.iterate_zero_apply]
    omega
  | succ i ih =>
    rw [Function.iterate_succ_apply, pow_succ]
    obtain ⟨hlow, hhigh⟩ := ih (dropDigit m)
    have hstep : m ≤ 10 * dropDigit m + 4 ∧ 10 * dropDigit m ≤ m + 5 := by
      unfold dropDigit
      split <;> omega
    rw [← mul_assoc, ← mul_assoc]
    omega

/-- What is no more than four ninths away from a whole number comes to it. -/
theorem dropDigit_iterate_eq {i m n : Nat} (h : |(m : ℚ) / 10 ^ i - n| ≤ 4 / 9) :
    dropDigit^[i] m = n := by
  have hten : (0 : ℚ) < 10 ^ i := by positivity
  obtain ⟨hbelow, habove⟩ := abs_le.mp h
  have hlow : 9 * n * 10 ^ i ≤ 9 * m + 4 * 10 ^ i := by
    have hle : n - 4 / 9 ≤ (m : ℚ) / 10 ^ i := by linarith
    rw [le_div_iff₀ hten] at hle
    have hle : (9 : ℚ) * n * 10 ^ i ≤ 9 * m + 4 * 10 ^ i := by linarith
    exact_mod_cast hle
  have hhigh : 9 * m ≤ (9 * n + 4) * 10 ^ i := by
    have hle : (m : ℚ) / 10 ^ i ≤ n + 4 / 9 := by linarith
    rw [div_le_iff₀ hten] at hle
    have hle : (9 : ℚ) * m ≤ (9 * n + 4) * 10 ^ i := by linarith
    exact_mod_cast hle
  obtain ⟨hmore, hless⟩ := dropDigit_iterate i m
  generalize dropDigit^[i] m = d at hmore hless
  apply Nat.le_antisymm
  · have hlt : 9 * d * 10 ^ i < (9 * n + 9) * 10 ^ i := by
      rw [add_mul] at hhigh ⊢
      omega
    have hlt := Nat.lt_of_mul_lt_mul_right hlt
    omega
  · have hlt : 9 * n * 10 ^ i < (9 * d + 8) * 10 ^ i := by
      rw [add_mul] at hmore ⊢
      omega
    have hlt := Nat.lt_of_mul_lt_mul_right hlt
    omega

theorem le_dropDigit_iterate {i m n : Nat} (h : (n : ℚ) + 4 / 9 ≤ m / 10 ^ i) :
    n ≤ dropDigit^[i] m := by
  have hlow : (9 * n + 4) * 10 ^ i ≤ 9 * m := by
    rw [le_div_iff₀ (by positivity)] at h
    have hle : ((9 : ℚ) * n + 4) * 10 ^ i ≤ 9 * m := by linarith
    exact_mod_cast hle
  have hlt : (9 * n + 4) * 10 ^ i < (9 * dropDigit^[i] m + 4) * 10 ^ i := by
    have hmore := (dropDigit_iterate i m).1
    omega
  have hlt := Nat.lt_of_mul_lt_mul_right hlt
  omega

theorem limitScale_eq {excess m : Nat} (h : ∀ i < excess, 10 ≤ dropDigit^[i] m) :
    limitScale excess m = (dropDigit^[excess] m, maxScale) := by
  induction excess generalizing m with
  | zero => rfl
  | succ excess ih =>
    have hfirst : 10 ≤ m := h 0 (Nat.succ_pos _)
    rw [limitScale, if_neg (by omega), Function.iterate_succ_apply]
    apply ih
    intro i hi
    exact h (i + 1) (Nat.succ_lt_succ hi)

theorem dropZeros_digits {digits scale : Nat} (h : scale = 0 ∨ digits % 10 ≠ 0) (zeros : Nat) :
    dropZeros (scale + zeros) (digits * 10 ^ zeros) = (digits, scale) := by
  induction zeros with
  | zero =>
    rw [add_zero, pow_zero, mul_one]
    rcases h with rfl | hlast
    · rfl
    · cases scale with
      | zero => rfl
      | succ scale => rw [dropZeros, if_neg hlast]
  | succ zeros ih =>
    have hzero : digits * 10 ^ (zeros + 1) % 10 = 0 :=
      Nat.mod_eq_zero_of_dvd ((dvd_pow_self 10 (Nat.succ_ne_zero zeros)).mul_left digits)
    have hrest : digits * 10 ^ (zeros + 1) / 10 = digits * 10 ^ zeros := by
      rw [pow_succ, ← mul_assoc, Nat.mul_div_cancel _ (by decide)]
    rw [← add_assoc, dropZeros, if_pos hzero, hrest, ih]

/-! ## Digits that survive -/

section

variable {m places digits scale : Nat}
  (hnear : |(m : ℚ) / 10 ^ places - digits / 10 ^ scale| ≤
    digits / 10 ^ scale * (1 / (9 * 10 ^ 15)))

include hnear

/-- A mantissa that has lost some digits is close to the digits with zeros behind them. -/
theorem near_zeros {zeros i : Nat} (h : scale + zeros + i = places) :
    |(m : ℚ) / 10 ^ i - (digits * 10 ^ zeros : Nat)| ≤
      (digits * 10 ^ zeros : Nat) * (1 / (9 * 10 ^ 15)) := by
  have hten : (0 : ℚ) < 10 ^ (scale + zeros) := by positivity
  have hscaled := mul_le_mul_of_nonneg_right hnear hten.le
  have hm : (m : ℚ) / 10 ^ places * 10 ^ (scale + zeros) = m / 10 ^ i := by
    rw [← h, pow_add _ (scale + zeros)]
    field_simp
  have hdigits :
      (digits : ℚ) / 10 ^ scale * 10 ^ (scale + zeros) = (digits * 10 ^ zeros : Nat) := by
    rw [pow_add]
    push_cast
    field_simp
  rw [← abs_of_pos hten, ← abs_mul, abs_of_pos hten, sub_mul, hm, mul_right_comm, hdigits]
    at hscaled
  exact hscaled

theorem dropDigit_near {zeros i : Nat} (h : scale + zeros + i = places)
    (hdigits : digits * 10 ^ zeros ≤ 4 * 10 ^ 15) :
    dropDigit^[i] m = digits * 10 ^ zeros := by
  apply dropDigit_iterate_eq
  refine (near_zeros hnear h).trans ?_
  have hle : ((digits * 10 ^ zeros : Nat) : ℚ) ≤ 4 * 10 ^ 15 := by exact_mod_cast hdigits
  linarith

/-- Digits are dropped until nothing but the digits and some zeros is left. -/
theorem limitPrecision_near (hdigits : digits ≤ 10 ^ 15) (hclear : ClearOfLimit digits)
    {zeros i : Nat} (h : scale + zeros + i = places) :
    ∃ zeros', limitPrecision (scale + zeros) (dropDigit^[i] m) =
      (digits * 10 ^ zeros', scale + zeros') := by
  have hstop : ∀ zeros, digits * 10 ^ zeros ≤ 4 * 10 ^ 15 →
      limitPrecision (scale + zeros) (digits * 10 ^ zeros) =
        (digits * 10 ^ zeros, scale + zeros) := by
    intro zeros hle
    have hbelow : ¬twoTo 52 ≤ digits * 10 ^ zeros := by
      rw [twoTo_eq]
      omega
    cases scale + zeros with
    | zero => rfl
    | succ rest => rw [limitPrecision, if_neg hbelow]
  induction zeros generalizing i with
  | zero =>
    have hle : digits * 10 ^ 0 ≤ 4 * 10 ^ 15 := by omega
    rw [dropDigit_near hnear h hle]
    exact ⟨0, hstop 0 hle⟩
  | succ zeros ih =>
    rcases hclear (zeros + 1) with hle | hge
    · rw [dropDigit_near hnear h hle]
      exact ⟨zeros + 1, hstop _ hle⟩
    · have hmore : twoTo 52 ≤ dropDigit^[i] m := by
        rw [twoTo_eq]
        apply le_dropDigit_iterate
        -- A multiple of ten is not just at the limit.
        have hten : 2 ^ 52 + 4 ≤ digits * 10 ^ (zeros + 1) := by
          obtain ⟨n, hn⟩ : 10 ∣ digits * 10 ^ (zeros + 1) :=
            (dvd_pow_self 10 (Nat.succ_ne_zero zeros)).mul_left digits
          omega
        have hten : (2 : ℚ) ^ 52 + 4 ≤ (digits * 10 ^ (zeros + 1) : Nat) := by exact_mod_cast hten
        have hbelow := (abs_le.mp (near_zeros hnear h)).1
        rw [Nat.cast_pow, Nat.cast_ofNat]
        linarith
      rw [← add_assoc, limitPrecision, if_pos hmore, ← Function.iterate_succ_apply' dropDigit i m]
      exact ih (by omega)

/-- Digits that are not zeros at the end need their places. -/
theorem le_places_of_near (hdigits : digits ≤ 10 ^ 15) (hlast : scale = 0 ∨ digits % 10 ≠ 0) :
    scale ≤ places := by
  by_contra hnot
  obtain ⟨missing, rfl⟩ := Nat.exists_eq_add_of_lt (not_le.mp hnot)
  have hten : (0 : ℚ) < 10 ^ (places + missing + 1) := by positivity
  have hscaled := mul_le_mul_of_nonneg_right hnear hten.le
  have hm :
      (m : ℚ) / 10 ^ places * 10 ^ (places + missing + 1) = (m * 10 ^ (missing + 1) : Nat) := by
    rw [add_assoc, pow_add]
    push_cast
    field_simp
  rw [← abs_of_pos hten, ← abs_mul, abs_of_pos hten, sub_mul, hm, mul_right_comm,
    div_mul_cancel₀ _ hten.ne'] at hscaled
  have hle : (digits : ℚ) ≤ 10 ^ 15 := by exact_mod_cast hdigits
  obtain ⟨hbelow, habove⟩ := abs_le.mp hscaled
  have hless : ((m * 10 ^ (missing + 1) : Nat) : ℚ) < (digits + 1 : Nat) := by
    push_cast at *
    linarith
  have hmore : (digits : ℚ) < (m * 10 ^ (missing + 1) + 1 : Nat) := by
    push_cast at *
    linarith
  have hless : m * 10 ^ (missing + 1) < digits + 1 := by exact_mod_cast hless
  have hmore : digits < m * 10 ^ (missing + 1) + 1 := by exact_mod_cast hmore
  rw [pow_succ, ← mul_assoc] at hless hmore
  omega

theorem limited_near (hpos : 0 < digits) (hdigits : digits ≤ 10 ^ 15) (hscale : scale ≤ 22)
    (hlast : scale = 0 ∨ digits % 10 ≠ 0) (hclear : ClearOfLimit digits) :
    limited m places = (digits, scale) := by
  have hplaces := le_places_of_near hnear hdigits hlast
  have hfinish : ∀ {zeros i : Nat}, scale + zeros + i = places →
      dropZeros (limitPrecision (scale + zeros) (dropDigit^[i] m)).2
        (limitPrecision (scale + zeros) (dropDigit^[i] m)).1 = (digits, scale) := by
    intro zeros i h
    obtain ⟨zeros', hlimit⟩ := limitPrecision_near hnear hdigits hclear h
    rw [hlimit]
    exact dropZeros_digits hlast zeros'
  by_cases hexcess : maxScale < places
  · have hmax : maxScale = scale + (maxScale - scale) := by
      unfold maxScale
      omega
    have hscaled : limitScale (places - maxScale) m =
        (dropDigit^[places - maxScale] m, maxScale) := by
      apply limitScale_eq
      intro i hi
      apply le_dropDigit_iterate
      have hplace : scale + (places - scale - i) + i = places := by omega
      have hbelow := (abs_le.mp (near_zeros hnear hplace)).1
      have hlarge : 1 * 10 ^ 7 ≤ digits * 10 ^ (places - scale - i) :=
        Nat.mul_le_mul hpos (Nat.pow_le_pow_right (by decide) (by unfold maxScale at hi; omega))
      have hlarge : (10 : ℚ) ^ 7 ≤ (digits * 10 ^ (places - scale - i) : Nat) := by
        rw [one_mul] at hlarge
        exact_mod_cast hlarge
      rw [Nat.cast_ofNat]
      linarith
    have hplace : scale + (maxScale - scale) + (places - maxScale) = places := by omega
    have hlimit := hfinish hplace
    rw [← hmax] at hlimit
    rw [limited, if_pos hexcess, hscaled]
    exact hlimit
  · have hplace : scale + (places - scale) + 0 = places := by omega
    have hlimit := hfinish hplace
    rw [Nat.add_sub_cancel' hplaces] at hlimit
    rw [limited, if_neg hexcess]
    exact hlimit

end

/-! ## From few digits to the float and back -/

theorem parts_ofRatio (negative : Bool) {num den : Nat} (hden : 0 < den) {v : ℚ}
    (h : Stands (nearest (num / den)) v) :
    ∃ mantissa exponent, parts (ofRatio negative num den) = .finite negative mantissa exponent ∧
      0 < mantissa ∧ v = mantissa * 2 ^ exponent := by
  rw [← ofRatio_eq_nearest num hden] at h
  obtain ⟨m, e, hpos, hcanonical, hsame, hv⟩ := h.eq_ofMagnitude
  have hbits : magnitudeBits num den = magnitude m e :=
    magnitude_of_toBits (magnitudeBits_le num den) (magnitude_lt hcanonical).le
      (congrArg Float.toBits hsame)
  refine ⟨m, e, ?_, hpos, hv⟩
  rw [ofRatio, hbits]
  exact parts_ofMagnitude negative hcanonical

/-- A float that is below `2 ^ 52` has bits behind the point. -/
theorem exponent_neg {mantissa : Nat} {exponent : Int} (h : Canonical mantissa exponent)
    (hsmall : (mantissa : ℚ) * 2 ^ exponent < 2 ^ 52) : exponent < 0 := by
  by_contra hnot
  obtain ⟨k, rfl⟩ := Int.eq_ofNat_of_zero_le (not_lt.mp hnot)
  have hbits : 2 ^ 52 ≤ mantissa := by
    unfold Canonical at h
    omega
  rw [zpow_natCast] at hsmall
  have hsmall : mantissa * 2 ^ k < 2 ^ 52 := by exact_mod_cast hsmall
  have hlarge : mantissa ≤ mantissa * 2 ^ k := Nat.le_mul_of_pos_right _ (Nat.two_pow_pos k)
  omega

/-- **The digits of a float of few digits are its decimal.** -/
theorem ofFloat?_of_digits {negative : Bool} {digits scale : Nat} (hdigits : digits ≤ 10 ^ 15)
    (hscale : scale ≤ 22) (hlast : scale = 0 ∨ digits % 10 ≠ 0) (hclear : ClearOfLimit digits) :
    ofFloat? (ofRatio negative digits (tenTo scale)) = some ⟨negative, digits, scale⟩ := by
  rcases Nat.eq_zero_or_pos digits with rfl | hpos
  · obtain rfl : scale = 0 := hlast.resolve_right (fun h => h rfl)
    have hzero : ofRatio negative 0 (tenTo 0) = ofMagnitude negative (magnitude 0 (-1074)) := by
      rw [ofRatio, magnitudeBits, if_pos rfl]
      rfl
    have hcanonical : Canonical 0 (-1074) := .inl ⟨rfl, by decide⟩
    rw [hzero]
    exact ofFloat?_zero (parts_ofMagnitude negative hcanonical) rfl
  have hone : (1 : ℚ) ≤ digits := by exact_mod_cast hpos
  have hfew : (digits : ℚ) ≤ 10 ^ 15 := by exact_mod_cast hdigits
  have hten : (1 : ℚ) ≤ 10 ^ scale := one_le_pow₀ (by norm_num)
  have hhigh : (digits : ℚ) / 10 ^ scale ≤ 10 ^ 15 :=
    (div_le_self (by positivity) hten).trans hfew
  have hlow : (1 : ℚ) / 10 ^ 22 ≤ digits / 10 ^ scale := by
    gcongr
    norm_num
  obtain ⟨v, hv, herror⟩ := nearest_of_size hlow (hhigh.trans (by norm_num))
  rw [← tenTo_cast] at hv
  obtain ⟨mantissa, exponent, hparts, hmantissa, rfl⟩ :=
    parts_ofRatio negative (tenTo_pos scale) hv
  obtain ⟨hcanonical, -⟩ := ofMagnitude_of_parts hparts
  have hexponent : exponent < 0 := by
    apply exponent_neg hcanonical
    have habove := (abs_le.mp herror).2
    linarith
  obtain ⟨k, rfl⟩ : ∃ k : Nat, exponent = -(k : Int) := ⟨(-exponent).toNat, by omega⟩
  have hk : k ≤ 1074 := by
    unfold Canonical at hcanonical
    omega
  have hplaces := tradeHalves_exponent k mantissa (-k)
  obtain ⟨places, hback⟩ : ∃ places : Nat, (tradeHalves k mantissa (-k)).2 = -(places : Int) :=
    ⟨(-(tradeHalves k mantissa (-k)).2).toNat, by omega⟩
  -- Rounded to a float and traded for tens, the digits are still close.
  have hnear := error_trans (by norm_num) herror (tradeHalves_error hk hback)
  have hnear : |((tradeHalves k mantissa (-k)).1 : ℚ) / 10 ^ places - digits / 10 ^ scale| ≤
      digits / 10 ^ scale * (1 / (9 * 10 ^ 15)) := by
    refine hnear.trans ?_
    gcongr
    norm_num
  rw [ofFloat?_eq hparts hmantissa, if_pos hexponent, neg_neg, Int.toNat_natCast, ofTens?,
    if_neg (by omega), hback, neg_neg, Int.toNat_natCast,
    limited_near hnear hpos hdigits hscale hlast hclear]

/-- **A float of few digits comes back from its decimal.** -/
theorem toFloat_of_digits {negative : Bool} {digits scale : Nat} (hdigits : digits ≤ 10 ^ 15)
    (hscale : scale ≤ 22) (hlast : scale = 0 ∨ digits % 10 ≠ 0) :
    toFloat ⟨negative, digits, scale⟩ = ofRatio negative digits (tenTo scale) := by
  rcases Nat.eq_zero_or_pos scale with rfl | hpos
  · exact toFloat_of_scale rfl
  · exact toFloat_nearest hdigits hpos hscale (hlast.resolve_left hpos.ne')

end Decimal

theorem clearOfLimit_of_leading {digits n : Nat} (hlow : 5 * 10 ^ n ≤ digits * 10)
    (hhigh : digits ≤ 4 * 10 ^ n) : ClearOfLimit digits := by
  intro zeros
  by_cases hfew : n + zeros ≤ 15
  · left
    calc digits * 10 ^ zeros ≤ 4 * 10 ^ n * 10 ^ zeros := Nat.mul_le_mul_right _ hhigh
      _ = 4 * 10 ^ (n + zeros) := by rw [mul_assoc, pow_add]
      _ ≤ 4 * 10 ^ 15 := Nat.mul_le_mul_left _ (Nat.pow_le_pow_right (by decide) hfew)
  · right
    have hmany : 5 * 10 ^ 16 ≤ digits * 10 ^ zeros * 10 :=
      calc 5 * 10 ^ 16 ≤ 5 * 10 ^ (n + zeros) :=
            Nat.mul_le_mul_left _ (Nat.pow_le_pow_right (by decide) (by omega))
        _ = 5 * 10 ^ n * 10 ^ zeros := by rw [mul_assoc, pow_add]
        _ ≤ digits * 10 * 10 ^ zeros := Nat.mul_le_mul_right _ hlow
        _ = digits * 10 ^ zeros * 10 := mul_right_comm _ _ _
    omega

theorem HasFewDigits.reduced {x : Float} (h : HasFewDigits x) :
    ∃ negative digits scale, x = ofRatio negative digits (tenTo scale) ∧ digits ≤ 10 ^ 15 ∧
      scale ≤ 22 ∧ ClearOfLimit digits ∧ (scale = 0 ∨ digits % 10 ≠ 0) := by
  obtain ⟨negative, digits, scale, rfl, hdigits, hscale, hclear⟩ := h
  induction scale generalizing digits with
  | zero => exact ⟨negative, digits, 0, rfl, hdigits, hscale, hclear, .inl rfl⟩
  | succ scale ih =>
    by_cases hlast : digits % 10 = 0
    · obtain ⟨n, rfl⟩ := Nat.dvd_of_mod_eq_zero hlast
      have hsame : ofRatio negative (10 * n) (tenTo (scale + 1)) =
          ofRatio negative n (tenTo scale) := by
        rw [ofRatio, ofRatio, magnitudeBits_congr (tenTo_pos _) (tenTo_pos _)]
        rw [tenTo_succ]
        ring
      have hclear' : ClearOfLimit n := by
        intro zeros
        cases zeros with
        | zero => exact .inl (by omega)
        | succ zeros =>
          have hzeros : n * 10 ^ (zeros + 1) = 10 * n * 10 ^ zeros := by ring
          rw [hzeros]
          exact hclear zeros
      rw [hsame]
      exact ih n (by omega) (by omega) hclear'
    · exact ⟨negative, digits, scale + 1, rfl, hdigits, hscale, hclear, .inr hlast⟩

/-- **A float of few digits is what its decimal is read back as.** -/
theorem HasFewDigits.decimal {x : Float} (h : HasFewDigits x) :
    ∃ d, Decimal.ofFloat? x = some d ∧ d.toFloat = x := by
  obtain ⟨negative, digits, scale, rfl, hdigits, hscale, hclear, hlast⟩ := h.reduced
  exact ⟨⟨negative, digits, scale⟩, Decimal.ofFloat?_of_digits hdigits hscale hlast hclear,
    Decimal.toFloat_of_digits hdigits hscale hlast⟩

end TemplateExpr.Number

import Mathlib
import TemplateExpr.Number.Decimal
import TemplateExpr.Proofs.Number.Line

/-!
# From a float to its decimal

The decimal of a float has no zeros behind the last place (`Decimal.scale_eq_zero_of_whole`), so a
whole decimal has no places at all. A whole float either has no decimal or one that is exactly the
float, of whatever size it is (`Decimal.ofFloat?_whole`): trading twos for tens leaves nothing over.
A float that is less than `9 / 10 ^ 29` keeps none of its digits, and its decimal is zero
(`Decimal.ofFloat?_tiny`).
-/

namespace TemplateExpr.Number

def IsWhole (x : Float) : Prop :=
  ∃ negative mantissa exponent, parts x = .finite negative mantissa exponent ∧
    twoTo (-exponent).toNat ∣ mantissa

/-- That a float is not zero, but has no digit among the first 28 places. -/
def IsTiny (x : Float) : Prop :=
  ∃ negative mantissa exponent, parts x = .finite negative mantissa exponent ∧
    0 < mantissa ∧ (mantissa : ℚ) * 2 ^ exponent ≤ 9 / 10 ^ 29

namespace Decimal

/-! ## Zeros at the end -/

theorem dropZeros_whole (scale mantissa : Nat)
    (h : (dropZeros scale mantissa).1 % tenTo (dropZeros scale mantissa).2 = 0) :
    (dropZeros scale mantissa).2 = 0 := by
  induction scale generalizing mantissa with
  | zero => rfl
  | succ scale ih =>
    rw [dropZeros] at h ⊢
    split at h
    · next hzero =>
      rw [if_pos hzero]
      exact ih _ h
    · next hdigit =>
      -- A last digit that is not zero is left over by the power of ten.
      exfalso
      have hten : 10 ∣ tenTo (scale + 1) := Dvd.intro_left (tenTo scale) rfl
      exact hdigit (Nat.mod_eq_zero_of_dvd (hten.trans (Nat.dvd_of_mod_eq_zero h)))

theorem dropZeros_of_zero (scale : Nat) : dropZeros scale 0 = (0, 0) := by
  induction scale with
  | zero => rfl
  | succ scale ih => rw [dropZeros, if_pos (Nat.zero_mod 10), Nat.zero_div, ih]

/-! ## Whole floats -/

theorem tradeHalves_of_dvd {steps mantissa : Nat} (h : twoTo steps ∣ mantissa) (exponent : Int) :
    tradeHalves steps mantissa exponent = (mantissa / twoTo steps, exponent + steps) := by
  induction steps generalizing mantissa exponent with
  | zero => simp [tradeHalves, twoTo_zero]
  | succ steps ih =>
    obtain ⟨n, rfl⟩ := h
    have hhalf : twoTo (steps + 1) * n / 2 = twoTo steps * n := by
      rw [twoTo_succ, mul_right_comm, Nat.mul_div_cancel _ two_pos]
    have heven : ¬(twoTo (steps + 1) * n % 2 = 1 ∧ twoTo (steps + 1) * n * 5 < bound) := by
      rw [twoTo_succ, mul_right_comm, Nat.mul_mod_left]
      exact fun hodd => absurd hodd.1 (by decide)
    rw [tradeHalves, if_neg heven, hhalf, ih (Dvd.intro n rfl),
      Nat.mul_div_cancel_left _ (twoTo_pos steps), Nat.mul_div_cancel_left _ (twoTo_pos _)]
    push_cast
    rw [add_assoc, add_comm (1 : Int)]

/-- As long as every five is traded for a doubling there is one for every ten. -/
theorem tradeFifths_some {steps mantissa : Nat} {traded : Nat × Int}
    (h : tradeFifths steps mantissa steps = some traded) :
    traded = (mantissa * twoTo steps, 0) := by
  induction steps generalizing mantissa with
  | zero =>
    obtain rfl := Option.some.inj h
    simp [twoTo_zero]
  | succ steps ih =>
    have hone : ((steps + 1 : Nat) : Int) - 1 = steps := by omega
    rw [tradeFifths] at h
    split at h
    · rw [hone] at h
      rw [ih h, twoTo_succ, mul_assoc, mul_comm 2]
    · rw [if_pos (by omega)] at h
      cases h

/-! ## The way to a decimal -/

def limited (mantissa places : Nat) : Nat × Nat :=
  let (m, scale) :=
    if maxScale < places then limitScale (places - maxScale) mantissa else (mantissa, places)
  let (m, scale) := limitPrecision scale m
  dropZeros scale m

def ofTens? (negative : Bool) (traded : Nat × Int) : Option Decimal :=
  if 0 < traded.2 then (absorbTens traded.2.toNat traded.1).map (⟨negative, ·, 0⟩)
  else some ⟨negative, (limited traded.1 (-traded.2).toNat).1,
    (limited traded.1 (-traded.2).toNat).2⟩

section

variable {x : Float} {negative : Bool} {mantissa : Nat} {exponent : Int}
  (hparts : parts x = .finite negative mantissa exponent)

include hparts

theorem ofFloat?_zero (hzero : mantissa = 0) : ofFloat? x = some ⟨negative, 0, 0⟩ := by
  unfold ofFloat?
  rw [hparts, hzero]
  rfl

/-- Twos are traded for tens, in one direction or the other. -/
theorem ofFloat?_eq (hpos : 0 < mantissa) :
    ofFloat? x =
      if exponent < 0 then ofTens? negative (tradeHalves (-exponent).toNat mantissa exponent)
      else (tradeFifths exponent.toNat mantissa exponent).bind (ofTens? negative) := by
  obtain ⟨m, rfl⟩ := Nat.exists_eq_add_of_lt hpos
  unfold ofFloat?
  rw [hparts]
  simp only [Nat.zero_add]
  have hlast : ∀ traded : Nat × Int, (if 0 < traded.2 then
        (absorbTens traded.2.toNat traded.1).bind fun m => some ⟨negative, m, 0⟩
      else some ⟨negative, (limited traded.1 (-traded.2).toNat).1,
        (limited traded.1 (-traded.2).toNat).2⟩) = ofTens? negative traded := by
    intro traded
    rw [ofTens?, Option.map_eq_bind]
    rfl
  split
  · exact hlast _
  · exact congrArg _ (funext hlast)

end

/-- **The decimal of a whole float is the float**, and has no places. -/
theorem ofFloat?_whole {x : Float} {negative : Bool} {mantissa : Nat} {exponent : Int}
    (hparts : parts x = .finite negative mantissa exponent)
    (hwhole : twoTo (-exponent).toNat ∣ mantissa) {d : Decimal} (h : ofFloat? x = some d) :
    d.negative = negative ∧ d.scale = 0 ∧ (d.mantissa : ℚ) = mantissa * 2 ^ exponent := by
  have hlimited : ∀ m, limited m 0 = (m, 0) := fun _ => rfl
  rcases Nat.eq_zero_or_pos mantissa with hzero | hpos
  · rw [ofFloat?_zero hparts hzero] at h
    obtain rfl := Option.some.inj h
    simp [hzero]
  rw [ofFloat?_eq hparts hpos] at h
  split at h
  · next hexponent =>
    obtain ⟨k, rfl⟩ : ∃ k : Nat, exponent = -(k : Int) := ⟨(-exponent).toNat, by omega⟩
    rw [neg_neg, Int.toNat_natCast] at hwhole h
    rw [tradeHalves_of_dvd hwhole, ofTens?, neg_add_cancel, if_neg (lt_irrefl 0), neg_zero,
      Int.toNat_zero, hlimited] at h
    obtain rfl := Option.some.inj h
    refine ⟨rfl, rfl, ?_⟩
    have htwo : (twoTo k : ℚ) ≠ 0 := by exact_mod_cast (twoTo_pos k).ne'
    rw [Nat.cast_div hwhole htwo, twoTo_cast, zpow_neg, zpow_natCast, div_eq_mul_inv]
  · next hexponent =>
    obtain ⟨k, rfl⟩ := Int.eq_ofNat_of_zero_le (not_lt.mp hexponent)
    obtain ⟨traded, htraded, hd⟩ := Option.bind_eq_some_iff.mp h
    obtain rfl := tradeFifths_some htraded
    rw [ofTens?, if_neg (lt_irrefl 0), neg_zero, Int.toNat_zero, hlimited] at hd
    obtain rfl := Option.some.inj hd
    refine ⟨rfl, rfl, ?_⟩
    rw [Int.toNat_natCast, Nat.cast_mul, twoTo_cast, zpow_natCast]

/-! ## Tiny floats -/

theorem tradeHalves_le (steps mantissa : Nat) (exponent : Int) :
    ((tradeHalves steps mantissa exponent).1 : ℚ) * 10 ^ (tradeHalves steps mantissa exponent).2 ≤
      mantissa * 5 ^ steps * 10 ^ exponent := by
  induction steps generalizing mantissa exponent with
  | zero => simp [tradeHalves]
  | succ steps ih =>
    rw [tradeHalves]
    split
    · refine (ih (mantissa * 5) exponent).trans_eq ?_
      push_cast
      ring
    · refine (ih (mantissa / 2) (exponent + 1)).trans ?_
      have hhalf : ((mantissa / 2 : Nat) : ℚ) ≤ mantissa / 2 := Nat.cast_div_le
      calc ((mantissa / 2 : Nat) : ℚ) * 5 ^ steps * 10 ^ (exponent + 1)
          ≤ mantissa / 2 * 5 ^ steps * 10 ^ (exponent + 1) := by gcongr
        _ = mantissa * 5 ^ (steps + 1) * 10 ^ exponent := by
          rw [zpow_add_one₀ (by norm_num), pow_succ]
          ring

theorem tradeHalves_exponent (steps mantissa : Nat) (exponent : Int) :
    (tradeHalves steps mantissa exponent).2 ≤ exponent + steps := by
  induction steps generalizing mantissa exponent with
  | zero => simp [tradeHalves]
  | succ steps ih =>
    rw [tradeHalves]
    split
    · have hstep := ih (mantissa * 5) exponent
      omega
    · have hstep := ih (mantissa / 2) (exponent + 1)
      omega

theorem limitScale_of_le {excess mantissa : Nat} (h : mantissa ≤ 9 * 10 ^ excess) :
    limitScale (excess + 1) mantissa = (0, 0) := by
  induction excess generalizing mantissa with
  | zero =>
    rw [limitScale, if_pos]
    omega
  | succ excess ih =>
    rw [limitScale]
    split
    · rfl
    · apply ih
      rw [pow_succ] at h
      unfold dropDigit
      split <;> omega

theorem limited_of_tiny {mantissa places : Nat} (h : (mantissa : ℚ) / 10 ^ places ≤ 9 / 10 ^ 29) :
    limited mantissa places = (0, 0) := by
  have hmantissa : (mantissa : ℚ) ≤ 9 / 10 ^ 29 * 10 ^ places := (div_le_iff₀ (by positivity)).mp h
  by_cases hplaces : maxScale < places
  · obtain ⟨excess, rfl⟩ := Nat.exists_eq_add_of_lt hplaces
    have hle : mantissa ≤ 9 * 10 ^ excess := by
      have hten : (9 / 10 ^ 29 * 10 ^ (maxScale + excess + 1) : ℚ) = 9 * 10 ^ excess := by
        rw [maxScale, add_right_comm, pow_add]
        norm_num
        ring
      rw [hten] at hmantissa
      exact_mod_cast hmantissa
    have hexcess : maxScale + excess + 1 - maxScale = excess + 1 := by omega
    rw [limited, if_pos hplaces, hexcess, limitScale_of_le hle]
    rfl
  · have hzero : mantissa = 0 := by
      have hsmall : (mantissa : ℚ) < 1 :=
        calc (mantissa : ℚ) ≤ 9 / 10 ^ 29 * 10 ^ places := hmantissa
          _ ≤ 9 / 10 ^ 29 * 10 ^ 28 := by
            gcongr
            · norm_num
            · exact not_lt.mp hplaces
          _ < 1 := by norm_num
      exact Nat.lt_one_iff.mp (by exact_mod_cast hsmall)
    have hprecision : ∀ scale, (limitPrecision scale 0) = (0, scale) := by
      intro scale
      cases scale with
      | zero => rfl
      | succ scale => rw [limitPrecision, if_neg (by decide)]
    rw [limited, if_neg hplaces, hzero]
    simp only [hprecision, dropZeros_of_zero]

/-- **A tiny float has the decimal zero.** -/
theorem ofFloat?_tiny {x : Float} {negative : Bool} {mantissa : Nat} {exponent : Int}
    (hparts : parts x = .finite negative mantissa exponent) (hpos : 0 < mantissa)
    (htiny : (mantissa : ℚ) * 2 ^ exponent ≤ 9 / 10 ^ 29) :
    ofFloat? x = some ⟨negative, 0, 0⟩ := by
  have hexponent : exponent < 0 := by
    by_contra hnot
    obtain ⟨k, rfl⟩ := Int.eq_ofNat_of_zero_le (not_lt.mp hnot)
    have hone : (1 : ℚ) ≤ mantissa * 2 ^ (k : Int) := by
      rw [zpow_natCast]
      exact_mod_cast Nat.mul_pos hpos (Nat.two_pow_pos k)
    exact absurd (hone.trans htiny) (by norm_num)
  obtain ⟨k, rfl⟩ : ∃ k : Nat, exponent = -(k : Int) := ⟨(-exponent).toNat, by omega⟩
  have hle := tradeHalves_le k mantissa (-k)
  have hplaces := tradeHalves_exponent k mantissa (-k)
  rw [ofFloat?_eq hparts hpos, if_pos hexponent, neg_neg, Int.toNat_natCast]
  generalize tradeHalves k mantissa (-k) = traded at hle hplaces ⊢
  obtain ⟨places, hback⟩ : ∃ places : Nat, traded.2 = -(places : Int) :=
    ⟨(-traded.2).toNat, by omega⟩
  have hsmall : (traded.1 : ℚ) / 10 ^ places ≤ 9 / 10 ^ 29 := by
    calc (traded.1 : ℚ) / 10 ^ places = traded.1 * 10 ^ traded.2 := by
          rw [hback, zpow_neg, zpow_natCast, div_eq_mul_inv]
      _ ≤ mantissa * 5 ^ k * 10 ^ (-(k : Int)) := hle
      _ = mantissa * 2 ^ (-(k : Int)) := by
          rw [zpow_neg, zpow_neg, zpow_natCast, zpow_natCast, show (10 : ℚ) = 5 * 2 by norm_num,
            mul_pow]
          field_simp
      _ ≤ 9 / 10 ^ 29 := htiny
  rw [ofTens?, if_neg (by omega), hback, neg_neg, Int.toNat_natCast, limited_of_tiny hsmall]

/-! ## Whole decimals -/

theorem scale_eq_zero_of_whole {x : Float} {d : Decimal} (h : ofFloat? x = some d)
    (hwhole : d.mantissa % tenTo d.scale = 0) : d.scale = 0 := by
  have hlast : ∀ {negative : Bool} {traded : Nat × Int}, ofTens? negative traded = some d →
      d.scale = 0 := by
    intro negative traded htens
    rw [ofTens?] at htens
    split at htens
    · obtain ⟨m, -, rfl⟩ := Option.map_eq_some_iff.mp htens
      rfl
    · obtain rfl := Option.some.inj htens
      exact dropZeros_whole _ _ hwhole
  cases hparts : parts x with
  | finite negative mantissa exponent =>
    rcases Nat.eq_zero_or_pos mantissa with hzero | hpos
    · rw [ofFloat?_zero hparts hzero] at h
      obtain rfl := Option.some.inj h
      rfl
    · rw [ofFloat?_eq hparts hpos] at h
      split at h
      · exact hlast h
      · obtain ⟨traded, -, hd⟩ := Option.bind_eq_some_iff.mp h
        exact hlast hd
  | notANumber =>
    unfold ofFloat? at h
    rw [hparts] at h
    cases h
  | infinite negative =>
    unfold ofFloat? at h
    rw [hparts] at h
    cases h

theorem toFloat_of_scale {d : Decimal} (h : d.scale = 0) :
    d.toFloat = ofRatio d.negative d.mantissa 1 := by
  rw [toFloat, if_pos h]

end Decimal

end TemplateExpr.Number

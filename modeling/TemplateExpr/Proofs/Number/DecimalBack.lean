import Mathlib
import TemplateExpr.Number.Decimal
import TemplateExpr.Proofs.Number.Operation

/-!
# From a decimal to its float

A decimal becomes a float in five roundings, one after the other. They go the way around by the
whole number that the digits are: what three of them make of the decimal is less than half a unit of
the last digit away from it, so the fourth hits the digits exactly, and the last one divides two
exact floats. So up to fifteen digits, with at most 22 places, the outcome is the float nearest to
the decimal (`Decimal.toFloat_nearest`).
-/

namespace TemplateExpr.Number

/-! ## What is a float, and what is close to one -/

theorem stands_canonical {m : Nat} {e : Int} (hpos : 0 < m) (h : Canonical m e) {q : ℚ}
    (hq : q = m * 2 ^ e) : Stands (nearest q) q := by
  subst hq
  have hvalue := num_div_den (show (0 : ℚ) ≤ m * 2 ^ e by positivity)
  refine .intro hpos h ?_
  rw [nearest, ofRatio, magnitudeBits_canonical h (Rat.den_pos _) hvalue, unpack_canonical hpos h]

/-- A mantissa that fits, in any place between, is a float. -/
theorem stands_scaled {k : Nat} (hpos : 0 < k) (hk : k < 2 ^ 53) {j : Int} (hlow : -1022 ≤ j)
    (hhigh : j ≤ 900) : Stands (nearest (k * 2 ^ j)) (k * 2 ^ j) := by
  have hbelow : 2 ^ k.log2 ≤ k := Nat.log2_self_le hpos.ne'
  have habove : k < 2 ^ (k.log2 + 1) := Nat.lt_log2_self
  have hlog : k.log2 ≤ 52 := Nat.lt_succ_iff.mp ((Nat.log2_lt hpos.ne').mpr hk)
  obtain ⟨n, hn⟩ : ∃ n, k.log2 + n = 52 := ⟨52 - k.log2, by omega⟩
  have hcanonical : Canonical (k * 2 ^ n) (j - n) := by
    refine .inr ⟨by omega, by omega, ?_, ?_⟩
    · calc 2 ^ 52 = 2 ^ k.log2 * 2 ^ n := by rw [← pow_add, hn]
        _ ≤ k * 2 ^ n := Nat.mul_le_mul_right _ hbelow
    · calc k * 2 ^ n < 2 ^ (k.log2 + 1) * 2 ^ n :=
            Nat.mul_lt_mul_of_pos_right habove (by positivity)
        _ = 2 ^ 53 := by rw [← pow_add, add_right_comm, hn]
  apply stands_canonical (by positivity) hcanonical
  rw [zpow_sub₀ two_ne_zero, zpow_natCast]
  push_cast
  field_simp

theorem stands_carried {M : Nat} {E : Int} (hlow : -1074 ≤ E) (hhigh : E ≤ 970) (hbits : 2 ^ 52 ≤ M)
    (hcarry : M ≤ 2 ^ 53) : Stands (ofMagnitude false (magnitude M E)) (M * 2 ^ E) := by
  rcases hcarry.lt_or_eq with hlt | rfl
  · have hcanonical : Canonical M E := .inr ⟨hlow, by omega, hbits, hlt⟩
    have hpos : 0 < M := by omega
    exact .intro hpos hcanonical (unpack_canonical hpos hcanonical)
  · have hcanonical : Canonical (2 ^ 52) (E + 1) :=
      .inr ⟨by omega, by omega, le_rfl, by norm_num⟩
    have hmagnitude : magnitude (2 ^ 53) E = magnitude (2 ^ 52) (E + 1) := by
      unfold magnitude
      omega
    have hvalue : ((2 ^ 53 : Nat) : ℚ) * 2 ^ E = (2 ^ 52 : Nat) * 2 ^ (E + 1) := by
      rw [zpow_add_one₀ two_ne_zero]
      push_cast
      ring
    rw [hmagnitude, hvalue]
    exact .intro (Nat.two_pow_pos 52) hcanonical (unpack_canonical (Nat.two_pow_pos 52) hcanonical)

/-- A number in units of the least float, as a mantissa with a fraction behind it. -/
theorem exists_units {q : ℚ} (hlow : 2 ^ (-1022 : Int) ≤ q) :
    ∃ m r d : Nat, r < d ∧ 2 ^ 52 ≤ m ∧ ((m : ℚ) + r / d) * 2 ^ (-1074 : Int) = q := by
  obtain ⟨w, rfl⟩ : ∃ w, q = w * 2 ^ (-1074 : Int) := ⟨q / 2 ^ (-1074 : Int), by field_simp⟩
  have hscale : (2 : ℚ) ^ (-1022 : Int) = 2 ^ 52 * 2 ^ (-1074 : Int) := by
    rw [← zpow_natCast, ← zpow_add₀ two_ne_zero]
    rfl
  have hw : (2 : ℚ) ^ 52 ≤ w := by
    rw [hscale] at hlow
    exact le_of_mul_le_mul_right hlow (by positivity)
  have hvalue := div_add_mod_div w.num.natAbs w.den_pos
  rw [num_div_den (le_trans (by positivity) hw)] at hvalue
  have hless := Nat.mod_lt w.num.natAbs w.den_pos
  refine ⟨_, _, w.den, hless, ?_, congrArg (· * (2 : ℚ) ^ (-1074 : Int)) hvalue⟩
  have hfraction : ((w.num.natAbs % w.den : Nat) : ℚ) / w.den < 1 := by
    rw [div_lt_one (by exact_mod_cast w.den_pos)]
    exact_mod_cast hless
  have hlt : (2 : ℚ) ^ 52 < (w.num.natAbs / w.den + 1 : Nat) := by
    push_cast
    linarith
  exact Nat.lt_succ_iff.mp (by exact_mod_cast hlt)

/-- **Rounding changes a number by no more than one part in `2 ^ 53`.** -/
theorem nearest_stands {q : ℚ} (hlow : 2 ^ (-1022 : Int) ≤ q) (hhigh : q < 2 ^ (1000 : Int)) :
    ∃ v, Stands (nearest q) v ∧ |v - q| ≤ q / 2 ^ 53 := by
  obtain ⟨m, r, d, hless, hbits, hvalue⟩ := exists_units hlow
  have hm : 0 < m := by omega
  have hplace : (-1074 : Int) ≤ target m (-1074) := le_target (.inl le_rfl)
  have hbelow := (mantissa_bounds hm hless (e := -1074)).1
  obtain ⟨hcarry, hnormal⟩ := roundedAt_bounds hm hless hplace
  have herror := roundedAt_error hless hplace
  have hnearest := nearest_eq_roundedAt hm hless hplace
  rw [hvalue] at hbelow herror hnearest
  have hlogLow : 52 ≤ m.log2 := (Nat.le_log2 hm.ne').mpr hbits
  have hlogHigh : (m.log2 : Int) + -1074 < 1000 :=
    (zpow_lt_zpow_iff_right₀ (by norm_num)).mp (hbelow.trans_lt hhigh)
  have htarget : target m (-1074) = m.log2 + -1074 - 52 := by
    unfold target
    omega
  have hrounded := hnormal (by omega)
  generalize roundedAt m r d (-1074) = M at hcarry hrounded herror hnearest
  have hroom : magnitude M (target m (-1074)) ≤ 2047 * 2 ^ 52 := by
    unfold magnitude
    omega
  rw [min_eq_left hroom] at hnearest
  refine ⟨M * 2 ^ target m (-1074), ?_, herror.trans ?_⟩
  · rw [hnearest]
    exact stands_carried hplace (by omega) hrounded hcarry
  · rw [htarget, zpow_sub₀ two_ne_zero]
    have hunit : (2 : ℚ) ^ (52 : Int) = 2 ^ 52 := rfl
    rw [hunit]
    linarith

/-! ## Zeros -/

theorem Stands.ne_zero {x : Float} {q : ℚ} (h : Stands x q) : (x == 0) = false := by
  cases h with
  | intro hpos hcanonical hunpack =>
    show (x.toModel.unpack.compare (0 : Float).toModel.unpack == some .eq) = false
    rw [hunpack]
    rfl

theorem Stands.zero_add {x : Float} {q : ℚ} (h : Stands x q) : ofRatio false 0 1 + x = x := by
  cases h with
  | intro hpos hcanonical hunpack =>
    have hnonzero : ∀ sign, x.toModel.unpack ≠ .zero sign := by
      rw [hunpack]
      nofun
    exact (add_zero_of_unpack hnonzero rfl).2.1

/-! ## Rounding to a whole number -/

theorem Stands.parts {x : Float} {q : ℚ} (h : Stands x q) :
    ∃ m e, parts x = .finite false m e ∧ q = m * 2 ^ e := by
  obtain ⟨m, e, -, hcanonical, rfl, hq⟩ := h.eq_ofMagnitude
  exact ⟨m, e, parts_ofMagnitude false hcanonical, hq⟩

theorem stands_natCast {n : Nat} (hpos : 0 < n) (hn : n < 2 ^ 53) :
    Stands (ofRatio false n 1) n := by
  have h := stands_scaled hpos hn (j := 0) (by decide) (by decide)
  rw [zpow_zero, mul_one] at h
  rw [ofRatio_eq_nearest n one_pos, Nat.cast_one, div_one]
  exact h

/-- **What is less than a half away from a whole number is rounded to it.** -/
theorem stands_roundHalfAway {x : Float} {q : ℚ} (hx : Stands x q) {n : Nat} (hpos : 0 < n)
    (hn : n < 2 ^ 53) (hnear : |q - n| < 1 / 2) : Stands (roundHalfAway x) n := by
  obtain ⟨m, e, hparts, rfl⟩ := hx.parts
  obtain ⟨hbelow, habove⟩ := abs_lt.mp hnear
  unfold roundHalfAway
  rw [hparts]
  dsimp only
  split
  · next he =>
    obtain ⟨k, rfl⟩ := Int.eq_ofNat_of_zero_le he
    have hwhole : m * 2 ^ k = n := by
      rw [zpow_natCast] at hbelow habove
      have hless : ((m * 2 ^ k : Nat) : ℚ) < (n + 1 : Nat) := by
        push_cast
        linarith
      have hmore : (n : ℚ) < (m * 2 ^ k + 1 : Nat) := by
        push_cast
        linarith
      have hless : m * 2 ^ k < n + 1 := by exact_mod_cast hless
      have hmore : n < m * 2 ^ k + 1 := by exact_mod_cast hmore
      omega
    have hvalue : (m : ℚ) * 2 ^ (k : Int) = n := by
      rw [zpow_natCast, ← hwhole]
      push_cast
      ring
    rw [hvalue] at hx
    exact hx
  · next he =>
    obtain ⟨k, rfl⟩ : ∃ k : Nat, e = -((k + 1 : Nat) : Int) := ⟨(-e - 1).toNat, by omega⟩
    rw [show (-(-((k + 1 : Nat) : Int)) - 1).toNat = k by omega, neg_neg, Int.toNat_natCast,
      twoTo_eq, twoTo_eq]
    have hwhole : (m + 2 ^ k) / 2 ^ (k + 1) = n := by
      rw [zpow_neg, zpow_natCast, ← div_eq_mul_inv] at hbelow habove
      have hunit : (0 : ℚ) < 2 ^ (k + 1) := by positivity
      have hlow : ((n * 2 ^ (k + 1) : Nat) : ℚ) < (m + 2 ^ k : Nat) := by
        have hle : (n : ℚ) - 1 / 2 < m / 2 ^ (k + 1) := by linarith
        rw [lt_div_iff₀ hunit] at hle
        push_cast
        rw [pow_succ] at hle ⊢
        linarith
      have hhigh : ((m + 2 ^ k : Nat) : ℚ) < ((n + 1) * 2 ^ (k + 1) : Nat) := by
        have hle : (m : ℚ) / 2 ^ (k + 1) < n + 1 / 2 := by linarith
        rw [div_lt_iff₀ hunit] at hle
        push_cast
        rw [pow_succ] at hle ⊢
        linarith
      exact Nat.div_eq_of_lt_le (by exact_mod_cast hlow.le) (by exact_mod_cast hhigh)
    rw [hwhole]
    exact stands_natCast hpos hn

/-! ## Decimals read back -/

namespace Decimal

theorem powerFrom_ten : ∀ scale : Fin 23,
    powerFrom 1 10 scale = ofRatio false (tenTo scale) 1 := by decide +kernel

theorem stands_tenTo {scale : Nat} (h : scale ≤ 22) :
    Stands (ofRatio false (tenTo scale) 1) (10 ^ scale) := by
  have hfive : 5 ^ scale < 2 ^ 53 := (Nat.pow_le_pow_right (by decide) h).trans_lt (by norm_num)
  have hstands := stands_scaled (Nat.pow_pos (by decide)) hfive (j := scale) (by omega) (by omega)
  have hvalue : ((5 ^ scale : Nat) : ℚ) * 2 ^ (scale : Int) = 10 ^ scale := by
    rw [zpow_natCast, Nat.cast_pow, ← mul_pow]
    norm_num
  rw [hvalue] at hstands
  rw [ofRatio_eq_nearest _ one_pos, tenTo_cast, Nat.cast_one, div_one]
  exact hstands

theorem error_trans {a b c α β : ℚ} (hβ : 0 ≤ β) (hab : |b - a| ≤ a * α) (hbc : |c - b| ≤ b * β) :
    |c - a| ≤ a * (α + β + α * β) := by
  have hb : b ≤ a + a * α := by linarith [(abs_le.mp hab).2]
  calc |c - a| = |c - b + (b - a)| := by ring_nf
    _ ≤ |c - b| + |b - a| := abs_add_le _ _
    _ ≤ (a + a * α) * β + a * α := by
        gcongr
        exact hbc.trans (by gcongr)
    _ = a * (α + β + α * β) := by ring

theorem two_zpow_le {e : Int} (h : e ≤ -74) : (2 : ℚ) ^ e ≤ 1 / 10 ^ 22 :=
  (zpow_le_zpow_right₀ (by norm_num) h).trans (by norm_num)

theorem nearest_of_size {q : ℚ} (hlow : 1 / 10 ^ 22 ≤ q) (hhigh : q ≤ 10 ^ 40) :
    ∃ v, Stands (nearest q) v ∧ |v - q| ≤ q * (1 / 2 ^ 53) := by
  have hlarge : (10 : ℚ) ^ 40 < 2 ^ (1000 : Int) :=
    lt_of_lt_of_le (b := 2 ^ (200 : Int)) (by norm_num)
      (zpow_le_zpow_right₀ (by norm_num) (by decide))
  obtain ⟨v, hv, herror⟩ := nearest_stands ((two_zpow_le (by decide)).trans hlow)
    (hhigh.trans_lt hlarge)
  rw [← mul_one_div] at herror
  exact ⟨v, hv, herror⟩

/-- Whole numbers are divided by powers of ten with one rounding. -/
theorem div_tenTo {x : Float} {n scale : Nat} (hpos : 0 < n) (hx : Stands x n) (h : scale ≤ 22) :
    x / ofRatio false (tenTo scale) 1 = nearest (n / 10 ^ scale) ∧
      (1 : ℚ) / 10 ^ 22 ≤ n / 10 ^ scale := by
  have hone : (1 : ℚ) ≤ n := by exact_mod_cast hpos
  have hlow : (1 : ℚ) / 10 ^ 22 ≤ n / 10 ^ scale := by
    gcongr
    norm_num
  exact ⟨hx.div (stands_tenTo h) ((two_zpow_le (by decide)).trans hlow), hlow⟩

/-- Whole part and fraction are put together with two roundings. -/
theorem whole_add_fraction {whole rest scale : Nat} (hwhole : whole ≤ 10 ^ 15) (hpos : 0 < rest)
    (hrest : rest < tenTo scale) (hrest' : rest ≤ 10 ^ 15) (hscale : scale ≤ 22) :
    (ofRatio false rest 1 / ofRatio false (tenTo scale) 1 == 0) = false ∧
      ∃ v, Stands (ofRatio false whole 1 + ofRatio false rest 1 / ofRatio false (tenTo scale) 1) v ∧
        |v - (whole + rest / 10 ^ scale)| ≤
          (whole + rest / 10 ^ scale) * (1 / 2 ^ 53 + 1 / 2 ^ 53 + 1 / 2 ^ 53 * (1 / 2 ^ 53)) := by
  obtain ⟨hdiv, hlow⟩ := div_tenTo hpos (stands_natCast hpos (hrest'.trans_lt (by norm_num))) hscale
  have hless : (rest : ℚ) / 10 ^ scale < 1 := by
    rw [div_lt_one (by positivity), ← tenTo_cast]
    exact_mod_cast hrest
  rw [hdiv]
  generalize (rest : ℚ) / 10 ^ scale = r at hlow hless ⊢
  obtain ⟨f, hf, herror⟩ := nearest_of_size hlow (hless.le.trans (by norm_num))
  refine ⟨hf.ne_zero, ?_⟩
  have hwidened : |whole + f - (whole + r)| ≤ (whole + r) * (1 / 2 ^ 53) := by
    rw [add_sub_add_left_eq_sub]
    refine herror.trans ?_
    gcongr
    exact le_add_of_nonneg_left (Nat.cast_nonneg _)
  rcases Nat.eq_zero_or_pos whole with hzero | hwholePos
  · rw [hzero, hf.zero_add]
    rw [hzero] at hwidened
    refine ⟨f, hf, ?_⟩
    rw [Nat.cast_zero, zero_add, zero_add] at hwidened
    rw [Nat.cast_zero, zero_add]
    refine hwidened.trans ?_
    have hr : 0 ≤ r := le_trans (by norm_num) hlow
    gcongr
    norm_num
  · have hsum := (stands_natCast hwholePos (hwhole.trans_lt (by norm_num))).add hf
    obtain ⟨hbelow, habove⟩ := abs_le.mp herror
    have hwholeLow : (1 : ℚ) ≤ whole := by exact_mod_cast hwholePos
    have hwholeHigh : (whole : ℚ) ≤ 10 ^ 15 := by exact_mod_cast hwhole
    rw [hsum]
    obtain ⟨v, hv, herror'⟩ := nearest_of_size (q := whole + f) (by linarith) (by linarith)
    exact ⟨v, hv, error_trans (by norm_num) hwidened herror'⟩

/-- **A decimal of fifteen digits is read back as the float nearest to it.** -/
theorem toFloat_nearest {negative : Bool} {digits scale : Nat} (hdigits : digits ≤ 10 ^ 15)
    (hpos : 0 < scale) (hscale : scale ≤ 22) (hlast : digits % 10 ≠ 0) :
    toFloat ⟨negative, digits, scale⟩ = ofRatio negative digits (tenTo scale) := by
  obtain ⟨whole, hwhole⟩ : ∃ whole, digits / tenTo scale = whole := ⟨_, rfl⟩
  obtain ⟨rest, hrest⟩ : ∃ rest, digits % tenTo scale = rest := ⟨_, rfl⟩
  have hsplit : (whole : ℚ) + rest / 10 ^ scale = digits / 10 ^ scale := by
    rw [← hwhole, ← hrest, ← tenTo_cast]
    exact div_add_mod_div digits (tenTo_pos scale)
  have hrestPos : 0 < rest := by
    rw [← hrest]
    apply Nat.pos_of_ne_zero
    intro hzero
    have hdvd : 10 ∣ tenTo scale := by
      obtain ⟨n, rfl⟩ := Nat.exists_eq_succ_of_ne_zero hpos.ne'
      exact Dvd.intro_left (tenTo n) rfl
    exact hlast (Nat.mod_eq_zero_of_dvd (hdvd.trans (Nat.dvd_of_mod_eq_zero hzero)))
  have hdigitsPos : 0 < digits := by omega
  have hwholeLe : whole ≤ 10 ^ 15 := hwhole ▸ (Nat.div_le_self _ _).trans hdigits
  have hrestLe : rest ≤ 10 ^ 15 := hrest ▸ (Nat.mod_le _ _).trans hdigits
  have hrestLt : rest < tenTo scale := hrest ▸ Nat.mod_lt _ (tenTo_pos scale)
  obtain ⟨hfraction, v, hv, hsum⟩ :=
    whole_add_fraction hwholeLe hrestPos hrestLt hrestLe hscale
  rw [hsplit] at hsum
  -- Multiplied by the power of ten, the sum is close to the digits.
  have hcloser : |v * 10 ^ scale - digits| ≤
      digits * (1 / 2 ^ 53 + 1 / 2 ^ 53 + 1 / 2 ^ 53 * (1 / 2 ^ 53)) := by
    have hten : (0 : ℚ) < 10 ^ scale := by positivity
    have hscaled := mul_le_mul_of_nonneg_right hsum hten.le
    rw [← abs_of_pos hten, ← abs_mul, abs_of_pos hten, sub_mul, mul_right_comm,
      div_mul_cancel₀ _ hten.ne'] at hscaled
    exact hscaled
  have hdigitsLow : (1 : ℚ) ≤ digits := by exact_mod_cast hdigitsPos
  have hdigitsHigh : (digits : ℚ) ≤ 10 ^ 15 := by exact_mod_cast hdigits
  obtain ⟨hbelow, habove⟩ := abs_le.mp hcloser
  obtain ⟨w, hw, hproduct⟩ := nearest_of_size (q := v * 10 ^ scale) (by linarith) (by linarith)
  have hnear : |w - digits| < 1 / 2 := by
    refine (error_trans (by norm_num) hcloser hproduct).trans_lt ?_
    linarith
  have hrounded := stands_roundHalfAway hw hdigitsPos (hdigits.trans_lt (by norm_num)) hnear
  have hsize := (div_tenTo hdigitsPos hrounded hscale).1
  have hpower : powerFrom 1 10 scale = ofRatio false (tenTo scale) 1 :=
    powerFrom_ten ⟨scale, by omega⟩
  have hnearest : nearest (digits / 10 ^ scale) = ofRatio false digits (tenTo scale) := by
    rw [ofRatio_eq_nearest _ (tenTo_pos scale), tenTo_cast]
  rw [← hv.mul (stands_tenTo hscale)] at hsize
  rw [toFloat, if_neg hpos.ne']
  simp only [hwhole, hrest, hfraction, hpower, hsize, hnearest]
  cases negative with
  | false => rfl
  | true => exact neg_ofMagnitude (magnitudeBits_le _ _)

end Decimal

end TemplateExpr.Number

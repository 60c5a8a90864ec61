import Mathlib
import TemplateExpr.Proofs.Number.FewDigits
import TemplateExpr.Proofs.Value.Arithmetic
import TemplateExpr.Proofs.Value.Comparison

/-!
# Absent operands

A sum or a difference with an absent operand is the other operand plus an integer zero. An integer
stays as it is. A float goes through its decimal, and comes back as it was exactly if the decimal is
read back as the float. Whole floats are kept, and so are floats of at most fifteen digits unless
these begin with a four; tiny floats become zero (`Value.absent_operand`).
-/

namespace TemplateExpr

open Number

namespace Number

/-! ## Adding a float zero -/

/-- What has no decimal is not zero. -/
theorem unpack_of_ofFloat?_none {x : Float} (h : Decimal.ofFloat? x = none)
    (sign : Float.Model.UnpackedFloat.Sign) : x.toModel.unpack ≠ .zero sign := by
  intro hzero
  have hx := ofModel_pack_unpack x
  rw [hzero] at hx
  rw [← hx] at h
  cases sign <;> revert h <;> decide

/-- Where there is no decimal a float zero is added or taken away, which changes nothing. -/
theorem add_zero_of_no_decimal {x : Float} (h : Decimal.ofFloat? x = none) :
    x + ofWord 0 = x ∧ ofWord 0 + x = x ∧ x - ofWord 0 = x :=
  add_zero_of_unpack (unpack_of_ofFloat?_none h) rfl

theorem ofInt_beq {negative : Bool} {n : Nat} {x : Float} (hx : x.isNaN = false) :
    (ofInt (if negative then -(n : Int) else n) == x) = (ofRatio negative n 1 == x) := by
  have hplace : place (ofInt (if negative then -(n : Int) else n)) =
      place (ofRatio negative n 1) := by
    rw [place_ofInt, ofRatio, place_ofMagnitude _ (magnitudeBits_le _ _)]
    cases negative
    · simp
    · rcases Nat.eq_zero_or_pos n with rfl | hpos
      · rfl
      · simp [hpos]
  have hratio : (ofRatio negative n 1).isNaN = false := isNaN_ofMagnitude _ (magnitudeBits_le _ _)
  rw [Bool.eq_iff_iff, beq_iff_place (isNaN_ofInt _) hx, beq_iff_place hratio hx, hplace]

end Number

namespace Value

/-- That a number is kept by the way through decimals: it is an integer, or a float that has no
decimal or one that is read back as the float. -/
def KeptInDecimals (x : Value) : Prop :=
  ∀ f d, x = .float f → Decimal.ofFloat? f = some d → (d.toFloat == f) = true

/-- What becomes of a number beside an absent operand. -/
def besideAbsent : Value → Value
  | .float x => ((Decimal.ofFloat? x).map ofDecimal).getD (.float x)
  | value => value

/-! ## Sums with an absent operand -/

theorem ofDecimal_of_mantissa {d : Decimal} (h : d.mantissa = 0) : ofDecimal d = .integer 0 := by
  have hint : d.toInt? = some 0 := by
    rw [Decimal.toInt?, h, Nat.zero_mod, Nat.zero_div]
    simp
  rw [ofDecimal, hint]
  rfl

theorem onDecimals?_zero (d : Decimal) :
    (Decimal.add? d (Decimal.ofInt 0)).map ofDecimal = some (ofDecimal d) ∧
      (Decimal.add? (Decimal.ofInt 0) d).map ofDecimal = some (ofDecimal d) ∧
      (Decimal.sub? d (Decimal.ofInt 0)).map ofDecimal = some (ofDecimal d) := by
  have hzero : (Decimal.ofInt 0).mantissa = 0 := rfl
  have hvalue : ofDecimal (Decimal.ofInt 0) = .integer 0 := ofDecimal_of_mantissa hzero
  rw [Decimal.add?, Decimal.add?, Decimal.sub?, hzero]
  by_cases hd : d.mantissa = 0
  · simp [hd, hvalue, ofDecimal_of_mantissa hd]
  · simp [hd]

theorem applyBinary_absent {x : Value} (hx : x.Numeric) :
    applyBinary .add x .undefined = x.besideAbsent ∧
      applyBinary .add .undefined x = x.besideAbsent ∧
      applyBinary .subtract x .undefined = x.besideAbsent := by
  cases hx with
  | integer n =>
    have hword : toWord? n.toInt = some n := toWord?_eq_some_iff.mpr rfl
    have hadd : Arithmetic.onIntegers? .add n.toInt 0 = some n := by
      rw [Arithmetic.onIntegers?, add_zero, hword]
    have hadd' : Arithmetic.onIntegers? .add 0 n.toInt = some n := by
      rw [Arithmetic.onIntegers?, zero_add, hword]
    have hsub : Arithmetic.onIntegers? .subtract n.toInt 0 = some n := by
      rw [Arithmetic.onIntegers?, sub_zero, hword]
    refine ⟨?_, ?_, ?_⟩
    · show ((Arithmetic.onIntegers? .add n.toInt 0).map Value.integer).getD _ = _
      rw [hadd]
      rfl
    · show ((Arithmetic.onIntegers? .add 0 n.toInt).map Value.integer).getD _ = _
      rw [hadd']
      rfl
    · show ((Arithmetic.onIntegers? .subtract n.toInt 0).map Value.integer).getD _ = _
      rw [hsub]
      rfl
  | @float x hx =>
    have hmixed : ∀ (op : Arithmetic) (left right : Value),
        mixedArithmetic? op left right = left.toDecimal?.bind fun a =>
          right.toDecimal?.bind fun b => (op.onDecimals? a b).map ofDecimal := by
      intro op left right
      rw [mixedArithmetic?]
      simp [Option.map_eq_bind]
    have hzero : toDecimal? (.integer 0) = some (Decimal.ofInt 0) := rfl
    have hself : toDecimal? (.float x) = Decimal.ofFloat? x := rfl
    show (mixedArithmetic? .add (.float x) (.integer 0)).getD (.float (x + ofWord 0)) = _ ∧
      (mixedArithmetic? .add (.integer 0) (.float x)).getD (.float (ofWord 0 + x)) = _ ∧
      (mixedArithmetic? .subtract (.float x) (.integer 0)).getD (.float (x - ofWord 0)) = _
    simp only [hmixed, hzero, hself, besideAbsent, Option.bind_some, Arithmetic.onDecimals?]
    cases hd : Decimal.ofFloat? x with
    | none =>
      obtain ⟨hadd, hadd', hsub⟩ := add_zero_of_no_decimal hd
      rw [hadd, hadd', hsub]
      exact ⟨rfl, rfl, rfl⟩
    | some d =>
      obtain ⟨hadd, hadd', hsub⟩ := onDecimals?_zero d
      simp only [Option.bind_some, hadd, hadd', hsub, Option.map_some, Option.getD_some, and_self]

/-! ## What is kept -/

theorem same_ofDecimal {x : Float} (hx : x.isNaN = false) {d : Decimal}
    (hd : Decimal.ofFloat? x = some d) :
    Same (ofDecimal d) (.float x) ↔ (d.toFloat == x) = true := by
  rw [same_iff, ofDecimal]
  split
  · next n hn =>
    obtain ⟨whole, hwhole, hword⟩ := Option.bind_eq_some_iff.mp hn
    rw [Decimal.toInt?] at hwhole
    split at hwhole
    · next hplaces =>
      have hscale := Decimal.scale_eq_zero_of_whole hd hplaces
      obtain rfl := Option.some.inj hwhole
      rw [hscale, tenTo_zero, Nat.div_one] at hword
      rw [strictEquals, ofWord, toWord?_eq_some hword, ofInt_beq hx,
        Decimal.toFloat_of_scale hscale]
    · cases hwhole
  · rfl

/-- **A number is kept beside an absent operand if it is kept by the way through decimals.** -/
theorem same_besideAbsent {x : Value} (hx : x.Numeric) :
    Same x.besideAbsent x ↔ x.KeptInDecimals := by
  cases hx with
  | integer n => exact iff_of_true (same_integers.mpr rfl) nofun
  | @float x hx =>
    have hkept : (Value.float x).KeptInDecimals ↔
        ∀ d, Decimal.ofFloat? x = some d → (d.toFloat == x) = true := by
      constructor
      · intro h d hd
        exact h x d rfl hd
      · rintro h f d ⟨⟩ hd
        exact h d hd
    rw [hkept, besideAbsent]
    cases hd : Decimal.ofFloat? x with
    | none =>
      have hself : (x == x) = true := (beq_iff_place hx hx).mpr rfl
      exact iff_of_true (same_iff.mpr hself) nofun
    | some d =>
      rw [Option.map_some, Option.getD_some, same_ofDecimal hx hd]
      simp

theorem keptInDecimals_of_isWhole {x : Float} (h : IsWhole x) :
    KeptInDecimals (.float x) := by
  rintro f d ⟨⟩ hd
  obtain ⟨negative, mantissa, exponent, hparts, hwhole⟩ := h
  obtain ⟨hsign, hscale, hvalue⟩ := Decimal.ofFloat?_whole hparts hwhole hd
  obtain ⟨hcanonical, hx⟩ := ofMagnitude_of_parts hparts
  have hself : d.toFloat = x := by
    rw [Decimal.toFloat_of_scale hscale, hsign, ofRatio,
      magnitudeBits_canonical hcanonical one_pos, hx]
    rw [Nat.cast_one, div_one, hvalue]
  rw [hself, ← hx]
  exact beq_ofMagnitude (magnitude_lt hcanonical).le

theorem keptInDecimals_of_hasFewDigits {x : Float} (h : HasFewDigits x) :
    KeptInDecimals (.float x) := by
  rintro f d ⟨⟩ hd
  obtain ⟨d', hd', hself⟩ := h.decimal
  obtain rfl := Option.some.inj (hd'.symm.trans hd)
  obtain ⟨negative, digits, scale, rfl, -⟩ := h
  rw [hself]
  exact beq_ofMagnitude (magnitudeBits_le _ _)

theorem besideAbsent_of_isTiny {x : Float} (h : IsTiny x) :
    besideAbsent (.float x) = .integer 0 ∧ ¬Same (.integer 0) (.float x) := by
  obtain ⟨negative, mantissa, exponent, hparts, hpos, htiny⟩ := h
  obtain ⟨hcanonical, hx⟩ := ofMagnitude_of_parts hparts
  have hsize := (magnitude_lt hcanonical).le
  have hmagnitude : 0 < magnitude mantissa exponent := Nat.add_pos_right _ hpos
  constructor
  · rw [besideAbsent, Decimal.ofFloat?_tiny hparts hpos htiny, Option.map_some, Option.getD_some,
      ofDecimal_of_mantissa rfl]
  · rw [same_iff, strictEquals, ← hx, ofWord,
      beq_iff_place (isNaN_ofInt _) (isNaN_ofMagnitude _ hsize), place_ofMagnitude _ hsize]
    have hzero : place (ofInt (0 : Int64).toInt) = 0 := rfl
    rw [hzero]
    split <;> omega

/-- **Absent operands.** -/
theorem absent_operand {x : Value} (hx : x.Numeric) :
    ∃ result, applyBinary .add x .undefined = result ∧ applyBinary .add .undefined x = result ∧
      applyBinary .subtract x .undefined = result ∧ (Same result x ↔ x.KeptInDecimals) ∧
      (∀ f, x = .float f → IsWhole f ∨ HasFewDigits f → Same result x) ∧
      ∀ f, x = .float f → IsTiny f → result = .integer 0 ∧ ¬Same result x := by
  obtain ⟨hadd, hadd', hsub⟩ := applyBinary_absent hx
  have hkept := same_besideAbsent hx
  refine ⟨x.besideAbsent, hadd, hadd', hsub, hkept, ?_, ?_⟩
  · rintro f rfl hf
    rw [hkept]
    rcases hf with hwhole | hfew
    · exact keptInDecimals_of_isWhole hwhole
    · exact keptInDecimals_of_hasFewDigits hfew
  · rintro f rfl htiny
    obtain ⟨hzero, hdiffers⟩ := besideAbsent_of_isTiny htiny
    rw [hzero]
    exact ⟨rfl, hdiffers⟩

/-- A tenth is kept, since it has few digits, and so is a large power of ten, which has no
decimal. -/
theorem absent_operand_tenth :
    Same (applyBinary .add (.float 0.1) .undefined) (.float 0.1) ∧
      Same (applyBinary .subtract (.float 1e30) .undefined) (.float 1e30) := by
  have htenth : Numeric (.float 0.1) := .float (by decide +kernel)
  have hlarge : Numeric (.float 1e30) := .float (by decide +kernel)
  obtain ⟨result, rfl, -, -, -, hfew, -⟩ := absent_operand htenth
  obtain ⟨result', -, -, rfl, hkept, -, -⟩ := absent_operand hlarge
  constructor
  · apply hfew 0.1 rfl
    have hclear : ClearOfLimit 1 := clearOfLimit_of_leading (n := 0) (by decide) (by decide)
    exact .inr ⟨false, 1, 1, by decide +kernel, by decide, by decide, hclear⟩
  · rw [hkept]
    intro f d hf hd
    obtain rfl := float.inj hf
    have hnone : Decimal.ofFloat? 1e30 = none := by decide +kernel
    rw [hnone] at hd
    cases hd

/-- **Not every float is kept.** A small one becomes the integer zero, and one with three places
comes back with twelve. -/
theorem absent_operand_changes :
    applyBinary .add (.float 1e-30) .undefined = .integer 0 ∧
      ¬Same (applyBinary .add (.float 1e-30) .undefined) (.float 1e-30) ∧
      applyBinary .add (.float 4464.279) .undefined = .float 4464.279000000002 ∧
      ¬Same (applyBinary .add (.float 4464.279) .undefined) (.float 4464.279) := by
  have hsmall : applyBinary .add (.float 1e-30) .undefined = .integer 0 := by
    have hdecimal : Decimal.ofFloat? 1e-30 = some ⟨false, 0, 0⟩ := by decide +kernel
    rw [(applyBinary_absent (.float (by decide +kernel))).1, besideAbsent, hdecimal]
    exact ofDecimal_of_mantissa (d := ⟨false, 0, 0⟩) rfl
  have hplaces : applyBinary .add (.float 4464.279) .undefined = .float 4464.279000000002 := by
    have hdecimal : Decimal.ofFloat? 4464.279 = some ⟨false, 4464279000000001, 12⟩ := by
      decide +kernel
    have hback : Decimal.toFloat ⟨false, 4464279000000001, 12⟩ = 4464.279000000002 := by
      decide +kernel
    rw [(applyBinary_absent (.float (by decide +kernel))).1, besideAbsent, hdecimal, ← hback]
    rfl
  refine ⟨hsmall, ?_, hplaces, ?_⟩
  · rw [hsmall, same_iff]
    decide +kernel
  · rw [hplaces, same_iff]
    decide +kernel

end Value

end TemplateExpr

import Mathlib
import TemplateExpr.Number.Integer
import TemplateExpr.Proofs.Number.Notation

/-!
# Floats on a line

Every float that is a number has a place: its magnitude, counted downwards where it has a sign. The
two zeros share a place, and comparing floats is comparing places (`compare_place`). So among
numbers the comparisons of floats are those of a linear order.

Rounding an integer to a float keeps the order but not the distance: no larger integer gets a
smaller place (`place_ofInt_mono`), and up to `2 ^ 53` different integers get different ones
(`place_ofInt_injective`).
-/

namespace TemplateExpr.Number

open Float.Model
open Float.Model.UnpackedFloat (unpackMantissa unpackExponent)

/-! ## The other way round -/

theorem swap_compare_then (e e' : Int) (m m' : Nat) :
    ((compare e e').then (compare m m')).swap = (compare e' e).then (compare m' m) := by
  rw [Ordering.swap_then, ← Std.OrientedOrd.eq_swap, ← Std.OrientedOrd.eq_swap]

theorem compare_swap (u v : UnpackedFloat) : v.compare u = (u.compare v).map Ordering.swap := by
  rcases u with s | _ | s | ⟨s, m, e, hm⟩ <;> rcases v with t | _ | t | ⟨t, m', e', hm'⟩
  -- Two finite floats of one sign are told apart by exponent and mantissa.
  case finite.finite =>
    cases s <;> cases t
    · exact congrArg some (congrArg Ordering.swap (swap_compare_then e e' m m').symm)
    · rfl
    · rfl
    · exact congrArg some (swap_compare_then e e' m m').symm
  all_goals first | rfl | (cases s <;> rfl) | (cases t <;> rfl) | (cases s <;> cases t <;> rfl)

theorem compare_neg (u v : UnpackedFloat) : u.neg.compare v.neg = v.compare u := by
  rcases u with s | _ | s | ⟨s, m, e, hm⟩ <;> rcases v with t | _ | t | ⟨t, m', e', hm'⟩
  case finite.finite =>
    cases s <;> cases t
    · exact congrArg some (swap_compare_then e' e m' m).symm
    · rfl
    · rfl
    · exact congrArg some (swap_compare_then e e' m m')
  all_goals first | rfl | (cases s <;> rfl) | (cases t <;> rfl) | (cases s <;> cases t <;> rfl)

theorem beq_swap (x y : Float) : (x == y) = (y == x) := by
  show (x.toModel.unpack.compare y.toModel.unpack == some .eq) =
    (y.toModel.unpack.compare x.toModel.unpack == some .eq)
  rw [compare_swap x.toModel.unpack]
  cases x.toModel.unpack.compare y.toModel.unpack with
  | none => rfl
  | some order => cases order <;> rfl

theorem isNaN_of_beq {x y : Float} (h : (x == y) = true) : x.isNaN = false ∧ y.isNaN = false := by
  have heq : (x.toModel.unpack.compare y.toModel.unpack == some .eq) = true := h
  constructor
  · show x.toModel.unpack.isNaN = false
    cases hx : x.toModel.unpack with
    | notANumber =>
      rw [hx] at heq
      cases heq
    | _ => rfl
  · show y.toModel.unpack.isNaN = false
    cases hy : y.toModel.unpack with
    | notANumber =>
      rw [compare_swap y.toModel.unpack, hy] at heq
      cases heq
    | _ => rfl

/-! ## Signs -/

theorem neg_unpack_ofMagnitude {size : Nat} (h : size ≤ 2047 * 2 ^ 52) :
    (ofMagnitude true size).toModel.unpack = (ofMagnitude false size).toModel.unpack.neg := by
  rw [unpack_ofMagnitude h, unpack_ofMagnitude h, signedBits, signedBits,
    neg_unpack_packComponents]
  rfl

/-- What has a sign is below what has none, the zeros apart. -/
theorem compare_opposite {size size' : Nat} {u u' : UnpackedFloat} (h : Unpacks size u)
    (h' : Unpacks size' u') : u.neg.compare u' = some (compare (-size : Int) size') := by
  have hsize : ∀ {mantissa exponent}, 0 < mantissa → 0 < magnitude mantissa exponent :=
    fun hpos => Nat.add_pos_right _ hpos
  have hless : ∀ {n n' : Nat}, 0 < n + n' → compare (-n : Int) n' = .lt := by
    intro n n' hpos
    rw [compare_lt_iff_lt]
    omega
  cases h with
  | zero =>
    cases h' with
    | zero => rfl
    | finite hpos' h' => rw [hless (Nat.add_pos_right _ (hsize hpos'))]; rfl
    | infinity => rfl
  | finite hpos h =>
    rw [hless (Nat.add_pos_left (hsize hpos) _)]
    cases h' <;> rfl
  | infinity => cases h' <;> rfl

/-! ## Places -/

def place (x : Float) : Int :=
  if x.toBits.toNat < 2 ^ 63 then x.toBits.toNat else 2 ^ 63 - x.toBits.toNat

theorem place_ofMagnitude {size : Nat} (negative : Bool) (h : size ≤ 2047 * 2 ^ 52) :
    place (ofMagnitude negative size) = if negative then -(size : Int) else size := by
  unfold place
  rw [toNat_toBits_ofMagnitude h]
  cases negative
  · rw [if_pos (by simp; omega)]
    simp
  · rw [if_neg (by simp)]
    push_cast
    simp

theorem exists_ofMagnitude {x : Float} (h : x.isNaN = false) :
    ∃ negative size, size ≤ 2047 * 2 ^ 52 ∧ ofMagnitude negative size = x := by
  have hbits : x.toBits.toNat < 2 ^ 64 := x.toBits.toNat_lt
  refine ⟨decide (2 ^ 63 ≤ x.toBits.toNat), x.toBits.toNat % 2 ^ 63, ?_, ofMagnitude_of_toNat ?_⟩
  · -- Beyond infinity the largest exponent goes with a mantissa that is not zero.
    by_contra hbeyond
    have hexponent : @unpackExponent Format.binary64 x.toBits.toBitVec = -1#_ := by
      apply BitVec.eq_of_toNat_eq
      rw [toNat_unpackExponent]
      show x.toBits.toNat / 2 ^ 52 % 2 ^ 11 = 2047
      omega
    have hmantissa : @unpackMantissa Format.binary64 x.toBits.toBitVec ≠ 0#_ := by
      intro hzero
      have hnone := congrArg BitVec.toNat hzero
      rw [toNat_unpackMantissa] at hnone
      have hnone : x.toBits.toNat % 2 ^ 52 = 0 := hnone
      omega
    have hunpack : x.toModel.unpack = .notANumber := by
      show UnpackedFloat.unpack Format.binary64 x.toBits.toBitVec = _
      simp only [UnpackedFloat.unpack]
      rw [if_pos hexponent, if_neg hmantissa]
    have hnan : x.isNaN = true := by
      show x.toModel.unpack.isNaN = true
      rw [hunpack]
      rfl
    rw [hnan] at h
    cases h
  · simp only [decide_eq_true_eq]
    split <;> omega

theorem compare_natCast (m n : Nat) : compare (m : Int) n = compare m n := by
  rw [← cmp_eq_compare, ← cmp_eq_compare]
  exact Nat.strictMono_cast.cmp_map_eq m n

theorem compare_neg_natCast (m n : Nat) : compare (-m : Int) (-n) = compare n m := by
  rcases lt_trichotomy n m with hlt | rfl | hgt
  · rw [compare_lt_iff_lt.mpr hlt, compare_lt_iff_lt.mpr (by omega)]
  · rw [compare_eq_iff_eq.mpr rfl, compare_eq_iff_eq.mpr rfl]
  · rw [compare_gt_iff_gt.mpr hgt, compare_gt_iff_gt.mpr (by omega)]

section

variable {x y : Float} (hx : x.isNaN = false) (hy : y.isNaN = false)

include hx hy

/-- **Comparing floats is comparing their places.** -/
theorem compare_place :
    x.toModel.unpack.compare y.toModel.unpack = some (compare (place x) (place y)) := by
  obtain ⟨negative, size, hsize, rfl⟩ := exists_ofMagnitude hx
  obtain ⟨negative', size', hsize', rfl⟩ := exists_ofMagnitude hy
  rw [place_ofMagnitude negative hsize, place_ofMagnitude negative' hsize']
  have hunpacks := unpacks_ofMagnitude hsize
  have hunpacks' := unpacks_ofMagnitude hsize'
  cases negative <;> cases negative'
  · rw [compare_unpacks hunpacks hunpacks']
    exact congrArg some (compare_natCast size size').symm
  · rw [neg_unpack_ofMagnitude hsize', compare_swap, compare_opposite hunpacks' hunpacks]
    exact congrArg some Std.OrientedOrd.eq_swap.symm
  · rw [neg_unpack_ofMagnitude hsize]
    exact compare_opposite hunpacks hunpacks'
  · rw [neg_unpack_ofMagnitude hsize, neg_unpack_ofMagnitude hsize', compare_neg,
      compare_unpacks hunpacks' hunpacks, ← compare_neg_natCast]
    rfl

theorem lt_iff_place : x < y ↔ place x < place y := by
  have hlt : x < y ↔ (x.toModel.unpack.compare y.toModel.unpack == some .lt) = true :=
    decide_eq_true_iff
  rw [hlt, compare_place hx hy, ← compare_lt_iff_lt, beq_iff_eq, Option.some.injEq]

theorem beq_iff_place : (x == y) = true ↔ place x = place y := by
  have heq : (x == y) = (x.toModel.unpack.compare y.toModel.unpack == some .eq) := rfl
  rw [heq, compare_place hx hy, beq_iff_eq, Option.some.injEq, compare_eq_iff_eq]

end

theorem isNaN_ofMagnitude {size : Nat} (negative : Bool) (h : size ≤ 2047 * 2 ^ 52) :
    (ofMagnitude negative size).isNaN = false :=
  (isNaN_of_beq (beq_ofMagnitude h)).1

/-! ## Integers -/

theorem isNaN_ofInt (n : Int) : (ofInt n).isNaN = false :=
  isNaN_ofMagnitude _ (magnitudeBits_le _ _)

theorem place_ofInt (n : Int) :
    place (ofInt n) =
      if n < 0 then -(magnitudeBits n.natAbs 1 : Int) else magnitudeBits n.natAbs 1 := by
  rw [ofInt, ofRatio, place_ofMagnitude _ (magnitudeBits_le _ _)]
  simp

theorem magnitudeBits_whole_mono {m n : Nat} (h : m ≤ n) :
    magnitudeBits m 1 ≤ magnitudeBits n 1 := by
  apply magnitudeBits_mono one_pos one_pos
  rw [Nat.cast_one, div_one, div_one]
  exact_mod_cast h

/-- **A larger integer has no smaller place.** -/
theorem place_ofInt_mono {m n : Int} (h : m ≤ n) : place (ofInt m) ≤ place (ofInt n) := by
  rw [place_ofInt, place_ofInt]
  split
  · next hm =>
    split
    · next hn =>
      have hle := magnitudeBits_whole_mono (show n.natAbs ≤ m.natAbs by omega)
      omega
    · omega
  · next hm =>
    rw [if_neg (by omega)]
    have hle := magnitudeBits_whole_mono (show m.natAbs ≤ n.natAbs by omega)
    omega

theorem exists_canonical_whole {n : Nat} (hpos : 0 < n) (h : n ≤ 2 ^ 53) :
    ∃ mantissa exponent, Canonical mantissa exponent ∧ (n : ℚ) = mantissa * 2 ^ exponent := by
  rcases h.eq_or_lt with rfl | hlt
  · refine ⟨2 ^ 52, 1, .inr ⟨by decide, by decide, le_rfl, by decide⟩, ?_⟩
    norm_num
  · have hlow : 2 ^ n.log2 ≤ n := Nat.log2_self_le hpos.ne'
    have hhigh : n < 2 ^ (n.log2 + 1) := Nat.lt_log2_self
    have hlog : n.log2 ≤ 52 := Nat.lt_succ_iff.mp ((Nat.log2_lt hpos.ne').mpr hlt)
    obtain ⟨k, hk⟩ : ∃ k, n.log2 + k = 52 := ⟨52 - n.log2, by omega⟩
    refine ⟨n * 2 ^ k, -k, .inr ⟨by omega, by omega, ?_, ?_⟩, ?_⟩
    · calc 2 ^ 52 = 2 ^ n.log2 * 2 ^ k := by rw [← pow_add, hk]
        _ ≤ n * 2 ^ k := Nat.mul_le_mul_right _ hlow
    · calc n * 2 ^ k < 2 ^ (n.log2 + 1) * 2 ^ k := Nat.mul_lt_mul_of_pos_right hhigh (by positivity)
        _ = 2 ^ 53 := by rw [← pow_add, add_right_comm, hk]
    · rw [Nat.cast_mul, Nat.cast_pow, zpow_neg, zpow_natCast, mul_assoc, Nat.cast_ofNat,
        mul_inv_cancel₀ (by positivity), mul_one]

theorem magnitudeBits_whole_pos {n : Nat} (hpos : 0 < n) : 0 < magnitudeBits n 1 :=
  calc 0 < magnitudeBits 1 1 := by decide
    _ ≤ magnitudeBits n 1 := magnitudeBits_whole_mono hpos

theorem magnitudeBits_whole_injective {m n : Nat} (hm : m ≤ 2 ^ 53) (hn : n ≤ 2 ^ 53)
    (h : magnitudeBits m 1 = magnitudeBits n 1) : m = n := by
  have hzero : magnitudeBits 0 1 = 0 := if_pos rfl
  rcases Nat.eq_zero_or_pos m with rfl | hmpos
  · by_contra hne
    have hpos := magnitudeBits_whole_pos (Nat.pos_of_ne_zero (Ne.symm hne))
    omega
  rcases Nat.eq_zero_or_pos n with rfl | hnpos
  · have hpos := magnitudeBits_whole_pos hmpos
    omega
  -- Both are floats, and floats are told apart by their magnitudes.
  have hrounded : ∀ {k mantissa : Nat} {exponent : Int}, Canonical mantissa exponent →
      (k : ℚ) = mantissa * 2 ^ exponent → magnitudeBits k 1 = magnitude mantissa exponent := by
    intro k mantissa exponent hcanonical hvalue
    apply magnitudeBits_canonical hcanonical one_pos
    rw [Nat.cast_one, div_one, hvalue]
  obtain ⟨mantissa, exponent, hcanonical, hvalue⟩ := exists_canonical_whole hmpos hm
  obtain ⟨mantissa', exponent', hcanonical', hvalue'⟩ := exists_canonical_whole hnpos hn
  rw [hrounded hcanonical hvalue, hrounded hcanonical' hvalue'] at h
  obtain ⟨rfl, rfl⟩ := canonical_unique hcanonical hcanonical' h
  exact_mod_cast hvalue.trans hvalue'.symm

/-- **Up to `2 ^ 53` different integers have different places.** -/
theorem place_ofInt_injective {m n : Int} (hm : m.natAbs ≤ 2 ^ 53) (hn : n.natAbs ≤ 2 ^ 53)
    (h : place (ofInt m) = place (ofInt n)) : m = n := by
  have hsame : magnitudeBits m.natAbs 1 = magnitudeBits n.natAbs 1 → m.natAbs = n.natAbs :=
    magnitudeBits_whole_injective hm hn
  have hnegative : ∀ {k : Int}, k < 0 → 0 < magnitudeBits k.natAbs 1 := fun hk =>
    magnitudeBits_whole_pos (by omega)
  rw [place_ofInt, place_ofInt] at h
  split at h
  · next hmneg =>
    have hmpos := hnegative hmneg
    split at h
    · have habs := hsame (by omega)
      omega
    · omega
  · split at h
    · next hnneg =>
      have hnpos := hnegative hnneg
      omega
    · have habs := hsame (by omega)
      omega

end TemplateExpr.Number

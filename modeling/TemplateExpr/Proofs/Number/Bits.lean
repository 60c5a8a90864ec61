import Mathlib
import TemplateExpr.Number.Binary

/-!
# The bits of a float

Core defines floats by their bits, and takes them apart and puts them together for every operation.
Nothing is lost on the way (`pack_unpack`), so a float is the same as its bits, where all bit
patterns that are not a number count as one.

What is needed of this further on is about a sign and a magnitude: they make up every float that is
a number (`ofMagnitude_of_toNat`), negation flips the sign (`neg_ofMagnitude`), and such a float
equals itself (`beq_ofMagnitude`).
-/

namespace TemplateExpr.Number

open Float.Model
open Float.Model.UnpackedFloat (Sign packComponents unpackMantissa unpackExponent unpackSign
  unpackMantissa_packComponents unpackExponent_packComponents)

theorem twoTo_eq (n : Nat) : twoTo n = 2 ^ n := rfl

theorem tenTo_eq (n : Nat) : tenTo n = 10 ^ n := rfl

/-! ## Fields of bits -/

section

variable (b : BitVec Format.binary64.numBits)

theorem toNat_unpackMantissa : (unpackMantissa b).toNat = b.toNat % 2 ^ 52 := by
  simp [unpackMantissa]

theorem toNat_unpackExponent : (unpackExponent b).toNat = b.toNat / 2 ^ 52 % 2 ^ 11 := by
  simp [unpackExponent, Nat.shiftRight_eq_div_pow]

theorem toNat_unpackSign : (unpackSign b).toNat = b.toNat / 2 ^ 63 := by
  have h : b.toNat < 2 ^ 64 := b.isLt
  simp [unpackSign, Nat.shiftRight_eq_div_pow]
  omega

variable (sign : Sign) (exponent : BitVec 11) (mantissa : BitVec 52)

theorem toNat_packComponents :
    (packComponents Format.binary64 sign exponent mantissa).toNat =
      sign.toBitVec.toNat * 2 ^ 63 + exponent.toNat * 2 ^ 52 + mantissa.toNat := by
  simp only [packComponents, BitVec.toNat_append]
  rw [← Nat.shiftLeft_add_eq_or_of_lt exponent.isLt, ← Nat.shiftLeft_add_eq_or_of_lt mantissa.isLt,
    Nat.shiftLeft_eq, Nat.shiftLeft_eq]
  ring

theorem toBitVec_ofBitVec (s : BitVec 1) : (Sign.ofBitVec s).toBitVec = s := by
  revert s
  decide

theorem unpackSign_packComponents :
    unpackSign (packComponents Format.binary64 sign exponent mantissa) = sign.toBitVec := by
  have hmantissa : mantissa.toNat < 2 ^ 52 := mantissa.isLt
  have hexponent : exponent.toNat < 2 ^ 11 := exponent.isLt
  apply BitVec.eq_of_toNat_eq
  rw [toNat_unpackSign, toNat_packComponents]
  omega

theorem packComponents_unpack :
    packComponents Format.binary64 (.ofBitVec (unpackSign b)) (unpackExponent b)
      (unpackMantissa b) = b := by
  apply BitVec.eq_of_toNat_eq
  rw [toNat_packComponents, toBitVec_ofBitVec, toNat_unpackSign, toNat_unpackExponent,
    toNat_unpackMantissa]
  omega

end

/-- The mantissa of a normal float has its leading bit in front, and is found again behind it. -/
theorem leadingBit_append (mantissa : BitVec 52) :
    (1#1 ++ mantissa).toNat.log2 = 52 ∧ BitVec.setWidth 52 (1#1 ++ mantissa) = mantissa := by
  have hmantissa : mantissa.toNat < 2 ^ 52 := mantissa.isLt
  have hsplit : (1#1 ++ mantissa).toNat = 2 ^ 52 + mantissa.toNat := by
    rw [BitVec.toNat_append, ← Nat.shiftLeft_add_eq_or_of_lt hmantissa]
    rfl
  constructor
  · rw [hsplit, Nat.log2_eq_iff (by omega)]
    omega
  · apply BitVec.eq_of_toNat_eq
    rw [BitVec.toNat_setWidth, hsplit]
    omega

/-- **Taking a float apart loses nothing.** -/
theorem pack_unpack {b : BitVec Format.binary64.numBits} (h : Format.binary64.Valid b) :
    UnpackedFloat.pack Format.binary64 (UnpackedFloat.unpack Format.binary64 b) = b := by
  have hb := packComponents_unpack b
  have hmantissa : (unpackMantissa b).toNat < 2 ^ 52 := (unpackMantissa b).isLt
  have hexponent : (unpackExponent b).toNat < 2 ^ 11 := (unpackExponent b).isLt
  simp only [UnpackedFloat.unpack]
  split
  case isTrue hexp =>
    split
    · next hzero =>
      rw [hexp, hzero] at hb
      exact hb
    · next hzero => exact (h.eq_packedNaN hexp hzero).symm
  case isFalse hfinite =>
    split
    case isTrue hexp =>
      rw [hexp] at hb
      split
      · next hzero =>
        rw [hzero] at hb
        exact hb
      · next hzero =>
        -- Below the least normal float the mantissa is too short for a leading bit.
        have hlog : (unpackMantissa b).toNat.log2 ≠ 52 := by
          intro hlog
          have hpos : (unpackMantissa b).toNat ≠ 0 := fun h0 => hzero (BitVec.eq_of_toNat_eq h0)
          have hleading := Nat.log2_self_le hpos
          rw [hlog] at hleading
          omega
        simpa [UnpackedFloat.pack, Format.exponentBias, Format.mantissaBits, hexp, hlog] using hb
    case isFalse hexp =>
      have hlargest : (unpackExponent b).toNat ≠ 2047 :=
        fun heq => hfinite (BitVec.eq_of_toNat_eq heq)
      have hbiased : (((unpackExponent b).toNat : Int) - 1075 + 1023 + 52).toNat =
          (unpackExponent b).toNat := by omega
      have hroom : ¬ 2047 ≤ (unpackExponent b).toNat := by omega
      obtain ⟨hlog, hcut⟩ := leadingBit_append (unpackMantissa b)
      simpa [UnpackedFloat.pack, Format.exponentBias, Format.mantissaBits, hbiased, hlog, hcut,
        hroom] using hb

/-! ## Floats and their bits -/

theorem ofBits_toBits (x : Float) : Float.ofBits x.toBits = x := by
  obtain ⟨⟨bits, hvalid⟩⟩ := x
  show Float.ofModel (Float.Model.pack (UnpackedFloat.unpack Format.binary64 bits.toBitVec)) = _
  congr 1
  simp only [Float.Model.pack, pack_unpack hvalid]

theorem valid_of_le {b : BitVec Format.binary64.numBits} (h : b.toNat % 2 ^ 63 ≤ 2047 * 2 ^ 52) :
    Format.binary64.Valid b := by
  constructor
  intro hexp hmantissa
  refine absurd (BitVec.eq_of_toNat_eq ?_) hmantissa
  have hlargest : b.toNat / 2 ^ 52 % 2 ^ 11 = 2047 :=
    (toNat_unpackExponent b).symm.trans (congrArg BitVec.toNat hexp)
  rw [toNat_unpackMantissa]
  show _ = 0
  omega

theorem toBits_ofBits {bits : UInt64} (h : bits.toNat % 2 ^ 63 ≤ 2047 * 2 ^ 52) :
    (Float.ofBits bits).toBits = bits := by
  show UInt64.ofBitVec (UnpackedFloat.pack Format.binary64
    (UnpackedFloat.unpack Format.binary64 bits.toBitVec)) = bits
  rw [pack_unpack (valid_of_le h)]

/-! ## Signs and magnitudes -/

section

variable {negative : Bool} {magnitude : Nat}

theorem toNat_toBits_ofMagnitude (h : magnitude ≤ 2047 * 2 ^ 52) :
    (ofMagnitude negative magnitude).toBits.toNat =
      (if negative then 2 ^ 63 else 0) + magnitude := by
  have hbits : (UInt64.ofNat ((if negative then twoTo 63 else 0) + magnitude)).toNat =
      (if negative then 2 ^ 63 else 0) + magnitude := by
    rw [UInt64.toNat_ofNat', twoTo_eq]
    split <;> omega
  rw [ofMagnitude, toBits_ofBits, hbits]
  rw [hbits]
  split <;> omega

theorem magnitude_of_toBits {other : Nat} (h : magnitude ≤ 2047 * 2 ^ 52)
    (hother : other ≤ 2047 * 2 ^ 52)
    (hbits : (ofMagnitude negative magnitude).toBits = (ofMagnitude negative other).toBits) :
    magnitude = other := by
  have hsame := congrArg UInt64.toNat hbits
  rw [toNat_toBits_ofMagnitude h, toNat_toBits_ofMagnitude hother] at hsame
  exact Nat.add_left_cancel hsame

theorem ofMagnitude_of_toNat {x : Float}
    (h : x.toBits.toNat = (if negative then 2 ^ 63 else 0) + magnitude) :
    ofMagnitude negative magnitude = x := by
  rw [ofMagnitude, twoTo_eq, ← h, UInt64.ofNat_toNat, ofBits_toBits]

def signedBits (negative : Bool) (magnitude : Nat) : BitVec Format.binary64.numBits :=
  packComponents Format.binary64 (if negative then .negative else .positive)
    (.ofNat 11 (magnitude / 2 ^ 52)) (.ofNat 52 magnitude)

theorem ofMagnitude_eq (h : magnitude ≤ 2047 * 2 ^ 52) :
    ofMagnitude negative magnitude =
      .ofModel (.pack (UnpackedFloat.unpack Format.binary64 (signedBits negative magnitude))) := by
  have hbits : signedBits negative magnitude =
      (UInt64.ofNat ((if negative then twoTo 63 else 0) + magnitude)).toBitVec := by
    apply BitVec.eq_of_toNat_eq
    rw [signedBits, toNat_packComponents, BitVec.toNat_ofNat, BitVec.toNat_ofNat, twoTo_eq]
    cases negative
    · show 0 * 2 ^ 63 + _ + _ = (0 + magnitude) % 2 ^ 64
      omega
    · show 1 * 2 ^ 63 + _ + _ = (2 ^ 63 + magnitude) % 2 ^ 64
      omega
  rw [hbits]
  rfl

theorem valid_signedBits (h : magnitude ≤ 2047 * 2 ^ 52) :
    Format.binary64.Valid (signedBits negative magnitude) := by
  apply valid_of_le
  rw [signedBits, toNat_packComponents, BitVec.toNat_ofNat, BitVec.toNat_ofNat]
  have hsign : (if negative then Sign.negative else Sign.positive).toBitVec.toNat < 2 ^ 1 :=
    BitVec.isLt _
  omega

theorem unpack_ofMagnitude (h : magnitude ≤ 2047 * 2 ^ 52) :
    (ofMagnitude negative magnitude).toModel.unpack =
      UnpackedFloat.unpack Format.binary64 (signedBits negative magnitude) := by
  rw [ofMagnitude_eq h]
  exact congrArg (UnpackedFloat.unpack Format.binary64) (pack_unpack (valid_signedBits h))

theorem neg_unpack_packComponents (sign : Sign) (exponent : BitVec 11) (mantissa : BitVec 52) :
    (UnpackedFloat.unpack Format.binary64
        (packComponents Format.binary64 sign exponent mantissa)).neg =
      UnpackedFloat.unpack Format.binary64
        (packComponents Format.binary64 (-sign) exponent mantissa) := by
  have hsign : -(Sign.ofBitVec sign.toBitVec) = Sign.ofBitVec (-sign).toBitVec := by
    cases sign <;> rfl
  simp only [UnpackedFloat.unpack, unpackMantissa_packComponents, unpackExponent_packComponents,
    unpackSign_packComponents, ← hsign]
  split
  · split <;> rfl
  · split
    · split <;> rfl
    · rfl

/-- **Negation flips the sign.** -/
theorem neg_ofMagnitude (h : magnitude ≤ 2047 * 2 ^ 52) :
    -ofMagnitude negative magnitude = ofMagnitude (!negative) magnitude := by
  have hsign : -(if negative then Sign.negative else Sign.positive) =
      if !negative then Sign.negative else Sign.positive := by cases negative <;> rfl
  show Float.ofModel (.pack (ofMagnitude negative magnitude).toModel.unpack.neg) = _
  rw [unpack_ofMagnitude h, ofMagnitude_eq h, signedBits, neg_unpack_packComponents, hsign]
  rfl

theorem compare_self {u : UnpackedFloat} (h : u ≠ .notANumber) : u.compare u = some .eq := by
  cases u with
  | notANumber => exact absurd rfl h
  | infinity sign => cases sign <;> rfl
  | zero sign => rfl
  | finite sign mantissa exponent hpos => cases sign <;> simp [UnpackedFloat.compare]

/-- **A number equals itself.** -/
theorem beq_ofMagnitude (h : magnitude ≤ 2047 * 2 ^ 52) :
    (ofMagnitude negative magnitude == ofMagnitude negative magnitude) = true := by
  have hnumber : UnpackedFloat.unpack Format.binary64 (signedBits negative magnitude) ≠
      .notANumber := by
    simp only [UnpackedFloat.unpack, signedBits, unpackMantissa_packComponents,
      unpackExponent_packComponents]
    split
    · next hexp =>
      have hlargest : magnitude / 2 ^ 52 % 2 ^ 11 = 2047 := congrArg BitVec.toNat hexp
      have hzero : BitVec.ofNat 52 magnitude = 0#52 := by
        apply BitVec.eq_of_toNat_eq
        rw [BitVec.toNat_ofNat]
        show _ = 0
        omega
      rw [if_pos hzero]
      exact nofun
    · split
      · split <;> exact nofun
      · exact nofun
  show ((ofMagnitude negative magnitude).toModel.unpack.compare
    (ofMagnitude negative magnitude).toModel.unpack == some .eq) = true
  rw [unpack_ofMagnitude h, compare_self hnumber]
  rfl

end

/-! ## Parts -/

/-- The mantissas and exponents that floats have: those of floats below the least normal one, and
those with a leading bit in its place. -/
def Canonical (mantissa : Nat) (exponent : Int) : Prop :=
  exponent = -1074 ∧ mantissa < 2 ^ 52 ∨
    -1074 ≤ exponent ∧ exponent ≤ 971 ∧ 2 ^ 52 ≤ mantissa ∧ mantissa < 2 ^ 53

def magnitude (mantissa : Nat) (exponent : Int) : Nat :=
  (exponent + 1074).toNat * 2 ^ 52 + mantissa

theorem magnitude_lt {mantissa : Nat} {exponent : Int} (h : Canonical mantissa exponent) :
    magnitude mantissa exponent < 2047 * 2 ^ 52 := by
  unfold Canonical at h
  unfold magnitude
  omega

/-- **A finite float is made of its parts.** -/
theorem ofMagnitude_of_parts {x : Float} {negative : Bool} {mantissa : Nat} {exponent : Int}
    (h : parts x = .finite negative mantissa exponent) :
    Canonical mantissa exponent ∧ ofMagnitude negative (magnitude mantissa exponent) = x := by
  have hbits : x.toBits.toNat < 2 ^ 64 := x.toBits.toNat_lt
  unfold parts at h
  dsimp only at h
  split at h
  · split at h <;> cases h
  · next hlargest =>
    rw [twoTo_eq, twoTo_eq] at hlargest
    split at h
    all_goals
      next hbiased =>
      rw [twoTo_eq, twoTo_eq] at hbiased
      obtain ⟨rfl, rfl, rfl⟩ := Parts.finite.inj h
      simp only [twoTo_eq]
      refine ⟨?_, ofMagnitude_of_toNat ?_⟩
      · unfold Canonical
        omega
      · simp only [magnitude, beq_iff_eq]
        split <;> omega

theorem parts_ofMagnitude (negative : Bool) {mantissa : Nat} {exponent : Int}
    (h : Canonical mantissa exponent) :
    parts (ofMagnitude negative (magnitude mantissa exponent)) =
      .finite negative mantissa exponent := by
  have hsize := magnitude_lt h
  obtain ⟨bits, hbits⟩ : ∃ bits,
      (ofMagnitude negative (magnitude mantissa exponent)).toBits.toNat = bits := ⟨_, rfl⟩
  have hsum := hbits
  rw [toNat_toBits_ofMagnitude hsize.le] at hsum
  have hsign : (bits / 2 ^ 63 == 1) = negative := by
    cases negative
    · simp only [Bool.false_eq_true, if_false] at hsum
      exact beq_eq_false_iff_ne.mpr (by omega)
    · simp only [if_true] at hsum
      exact beq_iff_eq.mpr (by omega)
  have hrest : bits % 2 ^ 63 = magnitude mantissa exponent := by
    split at hsum <;> omega
  unfold parts
  dsimp only
  rw [hbits, twoTo_eq, twoTo_eq, twoTo_eq, hsign]
  unfold magnitude at hrest hsize
  rcases h with ⟨rfl, hless⟩ | ⟨hleast, hmost, hlow, hhigh⟩
  · rw [if_neg (by omega), if_pos (by omega)]
    congr 1
    omega
  · rw [if_neg (by omega), if_neg (by omega)]
    congr 1
    · omega
    · omega

end TemplateExpr.Number

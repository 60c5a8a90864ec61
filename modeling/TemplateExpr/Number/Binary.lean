import TemplateExpr.Number.Power

/-!
# Floats as exact numbers

A finite float is a whole number times a power of two. This module takes a float apart into the
two, rounds a fraction of whole numbers to the nearest float, and builds from these the operations
that are exact on numbers and only then rounded: integer to float, truncation, remainder, rounding
to a whole number.

Everything is integer arithmetic on the 64 bits of a float, so closed instances can be decided.
-/

namespace TemplateExpr.Number

/-- What the bits of a float stand for. A finite float is `mantissa · 2 ^ exponent`, up to sign. -/
inductive Parts where
  | notANumber
  | infinite (negative : Bool)
  | finite (negative : Bool) (mantissa : Nat) (exponent : Int)
deriving DecidableEq, Repr

/-- The sign bit, the eleven bits of the exponent and the 52 bits of the fraction. Below the least
normal float the leading bit of the mantissa is not implied. -/
def parts (x : Float) : Parts :=
  let bits : Nat := x.toBits.toNat
  let negative := bits / twoTo 63 == 1
  let biased : Nat := bits / twoTo 52 % twoTo 11
  let fraction : Nat := bits % twoTo 52
  if biased = 2047 then
    if fraction = 0 then .infinite negative else .notANumber
  else if biased = 0 then .finite negative fraction (-1074)
  else .finite negative (twoTo 52 + fraction) ((biased : Int) - 1075)

/-- A quotient rounded to the nearest whole number; a half goes to the even neighbour. -/
def divRound (num den : Nat) : Nat :=
  let q := num / den
  let twice := 2 * (num % den)
  if den < twice ∨ (twice = den ∧ q % 2 = 1) then q + 1 else q

/-- `num / den · 2 ^ (-exponent)`, rounded. -/
def divRoundScaled (num den : Nat) (exponent : Int) : Nat :=
  if 0 ≤ exponent then divRound num (den * twoTo exponent.toNat)
  else divRound (num * twoTo (-exponent).toNat) den

/-- The exponent of the leading bit of a positive fraction: `2 ^ k ≤ num / den < 2 ^ (k + 1)`. -/
def leadingBit (num den : Nat) : Int :=
  let k : Int := (num.log2 : Int) - den.log2
  let reached := if 0 ≤ k then den * twoTo k.toNat ≤ num else den ≤ num * twoTo (-k).toNat
  if reached then k else k - 1

/-- The bits, sign apart, of the float nearest to `num / den`. The exponent is the one that leaves
53 bits of mantissa, or the least there is; a mantissa that rounds up to 54 bits carries into the
exponent by itself, and what lies beyond the largest float is infinite. -/
def magnitudeBits (num den : Nat) : Nat :=
  if num = 0 then 0
  else
    let exponent := max (leadingBit num den - 52) (-1074)
    min ((exponent + 1074).toNat * twoTo 52 + divRoundScaled num den exponent) (2047 * twoTo 52)

/-- A sign and 63 bits of magnitude. -/
def ofMagnitude (negative : Bool) (magnitude : Nat) : Float :=
  Float.ofBits (UInt64.ofNat ((if negative then twoTo 63 else 0) + magnitude))

/-- The float nearest to a fraction with the given sign; a tie goes to the even mantissa. -/
def ofRatio (negative : Bool) (num den : Nat) : Float :=
  ofMagnitude negative (magnitudeBits num den)

def ofScaled (negative : Bool) (mantissa : Nat) (exponent : Int) : Float :=
  if 0 ≤ exponent then ofRatio negative (mantissa * twoTo exponent.toNat) 1
  else ofRatio negative mantissa (twoTo (-exponent).toNat)

def infinity (negative : Bool) : Float := ofMagnitude negative (2047 * twoTo 52)

def notANumber : Float := Float.ofBits 0x7ff8000000000000

/-- The float nearest to `mantissa · 10 ^ exponent`. Exponents far outside the range of floats are
answered at once, so that no huge power is ever computed: `10 ^ 310` is past the largest float, and
what lies below `2 ^ -1075` rounds to zero. -/
def ofDecimal (negative : Bool) (mantissa : Nat) (exponent : Int) : Float :=
  if mantissa = 0 then ofMagnitude negative 0
  else if 310 ≤ exponent then infinity negative
  else if (mantissa.log2 : Int) + 1 + 3 * exponent ≤ -1075 then ofMagnitude negative 0
  else if 0 ≤ exponent then ofRatio negative (mantissa * tenTo exponent.toNat) 1
  else ofRatio negative mantissa (tenTo (-exponent).toNat)

/-- The float nearest to a whole number. Zero becomes the positive zero. -/
def ofInt (n : Int) : Float := ofRatio (decide (n < 0)) n.natAbs 1

def minInt : Int := -9223372036854775808

def maxInt : Int := 9223372036854775807

/-- Truncation towards zero into the 64-bit integers. What lies outside goes to the nearer end, and
what is not a number to zero. -/
def truncate (x : Float) : Int :=
  match parts x with
  | .notANumber => 0
  | .infinite negative => if negative then minInt else maxInt
  | .finite negative mantissa exponent =>
    let whole : Nat :=
      if 0 ≤ exponent then mantissa * twoTo exponent.toNat
      else mantissa / twoTo (-exponent).toNat
    max minInt (min (if negative then -(whole : Int) else whole) maxInt)

/-- The remainder of truncated division, exact and with the sign of the dividend. -/
def remainder (x y : Float) : Float :=
  match parts x, parts y with
  | .finite negative m e, .finite _ n f =>
    if n = 0 then notANumber
    else
      let low := min e f
      ofScaled negative ((m * twoTo (e - low).toNat) % (n * twoTo (f - low).toNat)) low
  | .finite .., .infinite _ => x
  | _, _ => notANumber

/-- The nearest whole number; a half goes away from zero. -/
def roundHalfAway (x : Float) : Float :=
  match parts x with
  | .finite negative m e =>
    if 0 ≤ e then x
    else ofRatio negative ((m + twoTo (-e - 1).toNat) / twoTo (-e).toNat) 1
  | _ => x

def isFinite (x : Float) : Bool :=
  match parts x with
  | .finite .. => true
  | _ => false

example : parts 1.5 = .finite false (3 * twoTo 51) (-52) := by decide +kernel
example : ofInt 9007199254740993 = ofInt 9007199254740992 := by decide +kernel
example : ofDecimal false 5 (-324) = Float.ofBits 1 := by decide +kernel
example : ofDecimal false 2 (-324) = Float.ofBits 0 := by decide +kernel
example : remainder (-5.5) 2 = -1.5 := by decide +kernel
example : roundHalfAway (-2.5) = -3 := by decide +kernel

end TemplateExpr.Number

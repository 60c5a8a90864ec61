import TemplateExpr.Number.Binary

/-!
# Decimals of bounded size

A decimal is a whole number of at most 96 bits over a power of ten of at most 28 places. When an
integer meets a float in arithmetic both become decimals, so that `100 * 1.1` is exactly `110`.

Every operation here is partial: a result that has no room is `none`, and the caller falls back on
floats. Results that do not fit exactly lose places, rounded half to even.
-/

namespace TemplateExpr.Number

/-- `± mantissa / 10 ^ scale`. -/
structure Decimal where
  negative : Bool
  mantissa : Nat
  scale : Nat
deriving DecidableEq, Repr

namespace Decimal

def bound : Nat := twoTo 96

def maxScale : Nat := 28

/-! ## From integers and floats -/

def ofInt (n : Int) : Decimal := ⟨decide (n < 0), n.natAbs, 0⟩

/-- Trades `steps` halvings for factors of five and places: `m / 2 = (m · 5) / 10`. An even mantissa
is halved, and one without room for the factor loses its last bit. -/
def tradeHalves : (steps : Nat) → (mantissa : Nat) → (exponent : Int) → Nat × Int
  | 0, m, e => (m, e)
  | steps + 1, m, e =>
    if m % 2 = 1 ∧ m * 5 < bound then tradeHalves steps (m * 5) e
    else tradeHalves steps (m / 2) (e + 1)

/-- Trades `steps` divisions by five for doublings: `m / 5 = (m · 2) / 10`. Without room for the
doubling a fifth is dropped, while the exponent leaves hope for the rest. -/
def tradeFifths : (steps : Nat) → (mantissa : Nat) → (exponent : Int) → Option (Nat × Int)
  | 0, m, e => some (m, e)
  | steps + 1, m, e =>
    if m < twoTo 95 then tradeFifths steps (m * 2) (e - 1)
    else if (steps + 1 : Int) < e * 2 then none
    else tradeFifths steps (m / 5) e

/-- Multiplies a positive power of ten in, while there is room. -/
def absorbTens : (tens : Nat) → (mantissa : Nat) → Option Nat
  | 0, m => some m
  | tens + 1, m => if m * 10 < bound then absorbTens tens (m * 10) else none

/-- The last digit dropped, rounding a five up. -/
def dropDigit (m : Nat) : Nat := m / 10 + (if 5 ≤ m % 10 then 1 else 0)

/-- Drops places until the scale is in bounds. A mantissa that has lost every digit is zero, without
a scale. -/
def limitScale : (excess : Nat) → (mantissa : Nat) → Nat × Nat
  | 0, m => (m, maxScale)
  | excess + 1, m => if m / 10 = 0 then (0, 0) else limitScale excess (dropDigit m)

/-- Drops places until the mantissa has the precision of a float. -/
def limitPrecision : (scale : Nat) → (mantissa : Nat) → Nat × Nat
  | 0, m => (m, 0)
  | scale + 1, m =>
    if twoTo 52 ≤ m then limitPrecision scale (dropDigit m) else (m, scale + 1)

def dropZeros : (scale : Nat) → (mantissa : Nat) → Nat × Nat
  | 0, m => (m, 0)
  | scale + 1, m => if m % 10 = 0 then dropZeros scale (m / 10) else (m, scale + 1)

/-- The decimal nearest to a float, to the precision of the float. -/
def ofFloat? (x : Float) : Option Decimal :=
  match parts x with
  | .finite negative 0 _ => some ⟨negative, 0, 0⟩
  | .finite negative m e => do
    let (m, e) ←
      if e < 0 then some (tradeHalves (-e).toNat m e)
      else tradeFifths e.toNat m e
    if 0 < e then
      let m ← absorbTens e.toNat m
      return ⟨negative, m, 0⟩
    else
      let places := (-e).toNat
      let (m, scale) := if maxScale < places then limitScale (places - maxScale) m else (m, places)
      let (m, scale) := limitPrecision scale m
      let (m, scale) := dropZeros scale m
      return ⟨negative, m, scale⟩
  | _ => none

/-! ## Arithmetic -/

/-- The most places, at most `scale` and `maxScale`, with which `n / 10 ^ scale` has room. -/
def fit? (negative : Bool) (n scale : Nat) : Option Decimal :=
  (List.range (min scale maxScale + 1)).reverse.findSome? fun s =>
    let m := divRound n (tenTo (scale - s))
    if m < bound then some ⟨negative, m, s⟩ else none

/-- The signed mantissa at a scale that is no smaller than the decimal's own. -/
def atScale (d : Decimal) (scale : Nat) : Int :=
  let m : Int := (d.mantissa * tenTo (scale - d.scale) : Nat)
  if d.negative then -m else m

def neg (d : Decimal) : Decimal := { d with negative := !d.negative }

/-- A zero operand leaves the other as it is. -/
def add? (a b : Decimal) : Option Decimal :=
  if a.mantissa = 0 then some b
  else if b.mantissa = 0 then some a
  else
    let scale := max a.scale b.scale
    let sum := a.atScale scale + b.atScale scale
    fit? (decide (sum < 0)) sum.natAbs scale

/-- Taking zero away changes nothing; of two zeros the second remains. -/
def sub? (a b : Decimal) : Option Decimal :=
  if b.mantissa = 0 then some (if a.mantissa = 0 then b else a)
  else add? a b.neg

/-- The product; zero has neither sign nor scale. -/
def mul? (a b : Decimal) : Option Decimal :=
  if a.mantissa = 0 ∨ b.mantissa = 0 then some ⟨false, 0, 0⟩
  else fit? (a.negative != b.negative) (a.mantissa * b.mantissa) (a.scale + b.scale)

/-- The most digits, at most nine and at most `places`, that `q` has room for. -/
def roomFor (q places : Nat) : Nat :=
  ((List.range (min 9 places + 1)).reverse.find? fun p => q * tenTo p < bound).getD 0

/-- A quotient under way: a mantissa, its scale, and whether digits were cut off. -/
structure Quotient where
  mantissa : Nat
  scale : Int
  inexact : Bool

/-- Long division by `den`, a block of at most nine digits at a time: `q` are the digits so far,
`r < den` is what remains, and `scale` says how many places `q` has. A negative scale is worked off
by multiplying. The last digit is rounded half to even. -/
def longDivide? (den q r : Nat) (scale : Int) (inexact : Bool) : Option Quotient :=
  if r = 0 then
    if 0 ≤ scale then some ⟨q, scale, inexact⟩
    else
      let block := min 9 (-scale).toNat
      let q' := q * tenTo block
      if bound ≤ q' then none
      else longDivide? den q' 0 (scale + block) inexact
  else
    let block := if scale < 28 then roomFor q (28 - scale).toNat else 0
    if scale ≠ 28 ∧ block < 9 ∧ block + scale < 0 then none
    else if block = 0 ∨ 28 ≤ scale then
      let q' := if den < 2 * r ∨ (2 * r = den ∧ q % 2 = 1) then q + 1 else q
      if q' < bound then some ⟨q', scale, true⟩
      else if scale = 0 then none
      else some ⟨divRound q' 10, scale - 1, true⟩
    else
      let t := r * tenTo block
      let q' := q * tenTo block + t / den
      let r' := t % den
      if q' < bound then longDivide? den q' r' (scale + block) true
      else if scale + block = 0 then none
      else some ⟨divRound (q' * den + r') (den * 10), scale + block - 1, true⟩
termination_by (28 - scale).toNat
decreasing_by
  · have : 0 < min 9 (-scale).toNat := by omega
    omega
  · omega

/-- Removes `count` zeros from the end, if there are that many and the power of two dividing
`10 ^ count` divides the mantissa, which is the cheaper test. -/
def dropBlock (count : Nat) (d : Nat × Nat) : Nat × Nat :=
  if d.1 % tenTo count = 0 ∧ count ≤ d.2 then (d.1 / tenTo count, d.2 - count) else d

/-- Removes zeros from the end in blocks of eight, then one block each of four, two and one. -/
def dropBlocks (mantissa scale : Nat) : Nat × Nat :=
  if h : mantissa % twoTo 32 = 0 ∧ 8 ≤ scale ∧ mantissa % tenTo 8 = 0 then
    dropBlocks (mantissa / tenTo 8) (scale - 8)
  else
    let four := if mantissa % 16 = 0 then dropBlock 4 (mantissa, scale) else (mantissa, scale)
    let two := if four.1 % 4 = 0 then dropBlock 2 four else four
    if two.1 % 2 = 0 then dropBlock 1 two else two
termination_by scale
decreasing_by omega

/-- The quotient, with as many digits as there is room for; division by zero has none. -/
def div? (a b : Decimal) : Option Decimal :=
  if b.mantissa = 0 then none
  else if a.mantissa = 0 then some ⟨false, 0, 0⟩
  else do
    let q ← longDivide? b.mantissa (a.mantissa / b.mantissa) (a.mantissa % b.mantissa)
      ((a.scale : Int) - b.scale) false
    let (m, scale) :=
      if q.inexact then dropBlocks q.mantissa q.scale.toNat else (q.mantissa, q.scale.toNat)
    return ⟨a.negative != b.negative, m, scale⟩

/-- The remainder of truncated division, with the sign of the dividend. -/
def rem? (a b : Decimal) : Option Decimal :=
  if b.mantissa = 0 then none
  else if a.mantissa = 0 then some ⟨false, 0, 0⟩
  else
    let scale := max a.scale b.scale
    let m := (a.atScale scale).natAbs
    let n := (b.atScale scale).natAbs
    if m < n then some a else some ⟨a.negative, m % n, scale⟩

/-! ## To integers and floats -/

def toInt? (d : Decimal) : Option Int :=
  if d.mantissa % tenTo d.scale = 0 then
    let n : Int := (d.mantissa / tenTo d.scale : Nat)
    some (if d.negative then -n else n)
  else none

/-- `base ^ n` by repeated squaring, multiplying into `acc` from the lowest bit on. -/
def powerFrom (acc base : Float) (n : Nat) : Float :=
  let acc := if n % 2 = 1 then acc * base else acc
  if h : n / 2 = 0 then acc else powerFrom acc (base * base) (n / 2)
termination_by n
decreasing_by omega

/-- The float of a decimal: whole part and fraction are converted apart and added, and the sum is
rounded back to the decimal's places. -/
def toFloat (d : Decimal) : Float :=
  if d.scale = 0 then ofRatio d.negative d.mantissa 1
  else
    let unit := tenTo d.scale
    let whole := ofRatio false (d.mantissa / unit) 1
    let fraction := ofRatio false (d.mantissa % unit) 1 / ofRatio false unit 1
    let size :=
      if fraction == 0 then whole
      else
        let power := powerFrom 1 10 d.scale
        roundHalfAway ((whole + fraction) * power) / power
    if d.negative then -size else size

example : ofFloat? 1.1 = some ⟨false, 11, 1⟩ := by decide +kernel
example : (ofFloat? 1.1 >>= mul? (ofInt 100)) = some ⟨false, 1100, 1⟩ := by decide +kernel
example : (toInt? ⟨false, 1100, 1⟩) = some 110 := by decide +kernel

end Decimal

end TemplateExpr.Number

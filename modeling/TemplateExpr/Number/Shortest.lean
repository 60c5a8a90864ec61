import TemplateExpr.Number.Binary

/-!
# The shortest decimal of a float

A float is written with the fewest significant digits that read back as the same float, and of the
decimals of that length with the one nearest to it. On the grid of `n`-digit decimals only the two
neighbours of the float can be such a decimal, because reading rounds to the nearest float.

Each candidate is tested by reading it. The exact expansion, which every finite float has, stands
behind the search, so what is returned always reads back.
-/

namespace TemplateExpr.Number

/-- A decimal without a sign: `mantissa · 10 ^ exponent`. -/
structure Digits where
  mantissa : Nat
  exponent : Int
deriving DecidableEq, Repr

/-- The exponent of the first significant digit of a positive fraction:
`10 ^ p ≤ num / den < 10 ^ (p + 1)`. An estimate from the leading bit is at most two too low. -/
def leadingDigit (num den : Nat) : Int :=
  let reaches (p : Int) : Bool :=
    if 0 ≤ p then decide (den * tenTo p.toNat ≤ num) else decide (den ≤ num * tenTo (-p).toNat)
  let estimate := leadingBit num den * 30103 / 100000 - 1
  if reaches (estimate + 2) then estimate + 2
  else if reaches (estimate + 1) then estimate + 1
  else estimate

/-- The two neighbours of `num / den` on the grid of multiples of `10 ^ exponent`, the nearer one
first; of two equally near the larger one is first. -/
def gridNeighbours (num den : Nat) (exponent : Int) : List Digits :=
  let n := if 0 ≤ exponent then num else num * tenTo (-exponent).toNat
  let d := if 0 ≤ exponent then den * tenTo exponent.toNat else den
  let low : Digits := ⟨n / d, exponent⟩
  let high : Digits := ⟨n / d + 1, exponent⟩
  if d ≤ 2 * (n % d) then [high, low] else [low, high]

/-- A mantissa that grew to the next power of ten is one digit again. -/
def Digits.normal (d : Digits) (count : Nat) : Digits :=
  if d.mantissa = tenTo count then ⟨1, d.exponent + count⟩ else d

/-- The exact value of `mantissa · 2 ^ exponent`. With a negative exponent it has as many places as
there are halvings. -/
def exactDigits (mantissa : Nat) (exponent : Int) : Digits :=
  if 0 ≤ exponent then ⟨mantissa * twoTo exponent.toNat, 0⟩
  else ⟨mantissa * tenTo (-exponent).toNat / twoTo (-exponent).toNat, exponent⟩

/-- The shortest decimal of `mantissa · 2 ^ exponent`, a positive finite float. Seventeen digits are
enough for every float. -/
def shortestDigits (mantissa : Nat) (exponent : Int) : Digits :=
  let num := if 0 ≤ exponent then mantissa * twoTo exponent.toNat else mantissa
  let den := if 0 ≤ exponent then 1 else twoTo (-exponent).toNat
  let target := (ofScaled false mantissa exponent).toBits
  let reads (d : Digits) : Bool := (ofDecimal false d.mantissa d.exponent).toBits == target
  let lead := leadingDigit num den
  let found := (List.range' 1 17).findSome? fun (count : Nat) =>
    ((gridNeighbours num den (lead - (count : Int) + 1)).find? reads).map (·.normal count)
  found.getD (exactDigits mantissa exponent)

example : shortestDigits (3 * twoTo 51) (-52) = ⟨15, -1⟩ := by decide +kernel
example : shortestDigits 1 (-1074) = ⟨5, -324⟩ := by decide +kernel
/-- A tie between two decimals of 17 digits goes to the larger one. -/
example : shortestDigits (twoTo 52) (-77) = ⟨29802322387695313, -24⟩ := by decide +kernel

end TemplateExpr.Number

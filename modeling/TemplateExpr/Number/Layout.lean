import TemplateExpr.Number.Shortest

/-!
# Laying out a number

Which digits a float has is decided in `Shortest`; this module decides how they are laid out. A
`NumberLayout` holds the choices of one output: where positional notation ends, whether negative
zero shows its sign, and how infinity is spelt.
-/

namespace TemplateExpr.Number

/-- The choices of one output for floats. `positional` tells, from the exponent of the first digit,
whether a number is written without an exponent. -/
structure NumberLayout where
  positional : Int → Bool
  zeroSign : Bool
  infinity : String

/-- Digits with the decimal point in its place, filled up with zeros on either side. -/
def positionalText (digits : List Char) (exponent : Int) : List Char :=
  if 0 ≤ exponent then digits ++ List.replicate exponent.toNat '0'
  else
    let places := (-exponent).toNat
    if places < digits.length then
      digits.take (digits.length - places) ++ '.' :: digits.drop (digits.length - places)
    else '0' :: '.' :: (List.replicate (places - digits.length) '0' ++ digits)

/-- One digit before the point, the others after it, and the exponent with its sign. -/
def exponentText (digits : List Char) (exponent : Int) : List Char :=
  let lead := exponent + digits.length - 1
  let mantissa := digits.take 1 ++ (if 1 < digits.length then '.' :: digits.drop 1 else [])
  mantissa ++ 'e' :: (if lead < 0 then '-' else '+') :: Nat.toDigits 10 lead.natAbs

def NumberLayout.render (layout : NumberLayout) (x : Float) : List Char :=
  match parts x with
  | .notANumber => "NaN".toList
  | .infinite negative => (if negative then ['-'] else []) ++ layout.infinity.toList
  | .finite negative mantissa exponent =>
    if mantissa = 0 then (if negative && layout.zeroSign then ['-'] else []) ++ ['0']
    else
      let d := shortestDigits mantissa exponent
      let digits := Nat.toDigits 10 d.mantissa
      let body :=
        if layout.positional (d.exponent + digits.length - 1) then
          positionalText digits d.exponent
        else exponentText digits d.exponent
      (if negative then ['-'] else []) ++ body

/-- Floats in JSON texts and in the names of members are never written with an exponent. -/
def plainLayout : NumberLayout where
  positional _ := true
  zeroSign := true
  infinity := "inf"

/-- Floats that become part of a text have an exponent below `1e-6` and from `1e21` on, and zero has
no sign. -/
def displayLayout : NumberLayout where
  positional lead := decide (-6 ≤ lead) && decide (lead < 21)
  zeroSign := false
  infinity := "Infinity"

def integerText (n : Int) : List Char :=
  (if n < 0 then ['-'] else []) ++ Nat.toDigits 10 n.natAbs

example : displayLayout.render 1e21 = ['1', 'e', '+', '2', '1'] := by decide +kernel
example : displayLayout.render 1.5e-7 = ['1', '.', '5', 'e', '-', '7'] := by decide +kernel
example : displayLayout.render 0.000001 = ['0', '.', '0', '0', '0', '0', '0', '1'] := by
  decide +kernel
example : displayLayout.render (-42.5) = ['-', '4', '2', '.', '5'] := by decide +kernel
example : plainLayout.render (-0.0) = ['-', '0'] := by decide +kernel

end TemplateExpr.Number

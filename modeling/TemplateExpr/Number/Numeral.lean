import TemplateExpr.Number.Binary
import TemplateExpr.Text.Blank

/-!
# Numerals

Reading a number from text. A decimal numeral is an optional sign, digits with an optional point,
at least one digit in all, and an optional exponent. Besides these the words `inf`, `infinity` and
`nan` are read, in any mixture of cases.
-/

namespace TemplateExpr.Number

def spanDigits (text : List Char) : List Char × List Char :=
  (text.takeWhile Char.isDigit, text.dropWhile Char.isDigit)

def digitsValue (digits : List Char) : Nat := Nat.ofDigitChars 10 digits 0

def spanSign : List Char → Bool × List Char
  | '-' :: rest => (true, rest)
  | '+' :: rest => (false, rest)
  | text => (false, text)

def readExponent? : List Char → Option Int
  | [] => some 0
  | c :: rest =>
    if c = 'e' ∨ c = 'E' then
      let (negative, digits) := spanSign rest
      if digits ≠ [] ∧ digits.all Char.isDigit then
        some (if negative then -(digitsValue digits : Int) else digitsValue digits)
      else none
    else none

def readUnsigned? (negative : Bool) (text : List Char) : Option Float :=
  let (whole, rest) := spanDigits text
  let (fraction, rest) := match rest with
    | '.' :: after => spanDigits after
    | _ => ([], rest)
  if whole ++ fraction = [] then none
  else (readExponent? rest).map fun exponent =>
    ofDecimal negative (digitsValue (whole ++ fraction)) (exponent - fraction.length)

/-- The words that stand for floats without digits. -/
def readWord? (negative : Bool) (text : List Char) : Option Float :=
  match String.ofList (text.map Char.toLower) with
  | "inf" | "infinity" => some (infinity negative)
  | "nan" => some notANumber
  | _ => none

def readFloat? (text : List Char) : Option Float :=
  let (negative, rest) := spanSign text
  match readUnsigned? negative rest with
  | some x => some x
  | none => readWord? negative rest

example : (readFloat? ['.', '5']).map Float.toBits = some (0.5 : Float).toBits := by decide +kernel
example : (readFloat? ['5', '.']).map Float.toBits = some (5.0 : Float).toBits := by decide +kernel
example : readFloat? ['.'] = none := by decide +kernel
example : readFloat? ['1', 'e', '+'] = none := by decide +kernel

end TemplateExpr.Number

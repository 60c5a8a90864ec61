import TemplateExpr.Number.Decimal
import TemplateExpr.Number.Layout
import TemplateExpr.Number.Numeral
import TemplateExpr.Value

/-!
# Values as conditions, numbers and texts

The three conversions that operators apply to operands of any kind. None of them fails: what has no
number is the float that is not a number, and every value has a text.
-/

namespace TemplateExpr

open Number Text

namespace Value

/-- Whether a value counts as true in a condition: containers and functions always do, and the
absent, `null`, zero, what is not a number and the empty text never do. -/
def isTruthy : Value → Bool
  | .undefined | .null => false
  | .boolean b => b
  | .integer n => n != 0
  | .float x => x != 0 && !x.isNaN
  | .text s => s != ""
  | .array _ | .record _ | .function _ => true

/-- The number of a value. A text is trimmed and read as a numeral; the empty text is zero. -/
def toNumber : Value → Float
  | .null => 0
  | .boolean b => if b then 1 else 0
  | .integer n => ofWord n
  | .float x => x
  | .text s =>
    match trimBlanks s.toList with
    | [] => 0
    | numeral => (readFloat? numeral).getD notANumber
  | .undefined | .array _ | .record _ | .function _ => notANumber

mutual
/-- The text of a value. The items of an array are joined with commas, the absent ones among them as
nothing; records and functions have one text each. -/
def display : Value → String
  | .undefined => "undefined"
  | .null => "null"
  | .boolean b => if b then "true" else "false"
  | .integer n => String.ofList (integerText n.toInt)
  | .float x => String.ofList (displayLayout.render x)
  | .text s => s
  | .array items => ",".intercalate (displayItems items)
  | .record _ => "[object Object]"
  | .function _ => "function"

def displayItems : List Value → List String
  | [] => []
  | item :: items => (if item.isNullish then "" else item.display) :: displayItems items
end

end Value

end TemplateExpr

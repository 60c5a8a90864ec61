import TemplateExpr.Number.Binary

/-!
# 64-bit integers

Integers of the language are signed words of 64 bits. Arithmetic on them is done on whole numbers,
and a result is an integer only when it is in range; nothing wraps around.
-/

namespace TemplateExpr.Number

def toWord? (n : Int) : Option Int64 :=
  if minInt ≤ n ∧ n ≤ maxInt then some (Int64.ofInt n) else none

def ofWord (n : Int64) : Float := ofInt n.toInt

example : (toWord? maxInt).map Int64.toInt = some maxInt := by decide +kernel
example : toWord? (maxInt + 1) = none := by decide +kernel

end TemplateExpr.Number

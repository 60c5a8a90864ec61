import TemplateExpr.Value.Conversion

/-!
# Equality of values

Two equalities. The strict one compares values of one kind: numbers by size, whichever way they are
represented; texts, arrays and records by content; functions by identity. The loose one first turns
booleans into numbers, lets a text stand for its number beside a number, and sets the absent and
`null` apart from everything else.
-/

namespace TemplateExpr

open Number

namespace Value

mutual
/-- Strict equality. Records are equal when they have equally many entries and every entry of one is
found in the other. -/
def strictEquals : Value → Value → Bool
  | .undefined, .undefined => true
  | .null, .null => true
  | .boolean a, .boolean b => a == b
  | .integer a, .integer b => a == b
  | .float a, .float b => a == b
  | .integer a, .float b => ofWord a == b
  | .float a, .integer b => ofWord b == a
  | .text a, .text b => a == b
  | .array a, .array b => itemsEqual a b
  | .record a, .record b => a.length == b.length && entriesFound a b
  | .function a, .function b => a.name == b.name
  | _, _ => false

def itemsEqual : List Value → List Value → Bool
  | [], [] => true
  | a :: as, b :: bs => strictEquals a b && itemsEqual as bs
  | _, _ => false

/-- Every entry of the first list is found, with an equal value, in the second. -/
def entriesFound : List (String × Value) → List (String × Value) → Bool
  | [], _ => true
  | (key, value) :: entries, others =>
    (match Entries.get? key others with
      | some other => strictEquals value other
      | none => false) && entriesFound entries others
end

def booleanAsNumber : Value → Value
  | .boolean b => .float (if b then 1 else 0)
  | value => value

def looseEquals (left right : Value) : Bool :=
  if left.isNullish || right.isNullish then left.isNullish && right.isNullish
  else
    let l := left.booleanAsNumber
    let r := right.booleanAsNumber
    match l, r with
    | .text _, .integer _ | .text _, .float _ | .integer _, .text _ | .float _, .text _ =>
      l.toNumber == r.toNumber
    | _, _ => strictEquals l r

end Value

end TemplateExpr

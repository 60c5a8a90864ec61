import TemplateExpr.Tree
import TemplateExpr.Value.Equality

/-!
# Operators on values

Prefix and infix operators, for operands of any kind; none of them fails. Arithmetic keeps integers
as long as the exact result is one. When an integer meets a float both become decimals, which keeps
the places of the float apart from rounding; where decimals have no room the floats themselves are
used.
-/

namespace TemplateExpr

open Number

inductive Arithmetic where
  | add | subtract | multiply | divide | modulo
deriving DecidableEq, Repr

inductive Comparison where
  | less | greater | atMost | atLeast
deriving DecidableEq, Repr

namespace Arithmetic

def onFloats (op : Arithmetic) (a b : Float) : Float :=
  match op with
  | .add => a + b
  | .subtract => a - b
  | .multiply => a * b
  | .divide => a / b
  | .modulo => remainder a b

/-- The exact result on integers, if it is an integer in range. Division has to leave no remainder,
and a remainder is taken only where the quotient is in range. -/
def onIntegers? (op : Arithmetic) (a b : Int) : Option Int64 :=
  match op with
  | .add => toWord? (a + b)
  | .subtract => toWord? (a - b)
  | .multiply => toWord? (a * b)
  | .divide => if b ≠ 0 ∧ a.tmod b = 0 then toWord? (a.tdiv b) else none
  | .modulo =>
    if b = 0 then none
    else (toWord? (a.tdiv b)).bind fun _ => toWord? (a.tmod b)

def onDecimals? (op : Arithmetic) (a b : Decimal) : Option Decimal :=
  match op with
  | .add => a.add? b
  | .subtract => a.sub? b
  | .multiply => a.mul? b
  | .divide => a.div? b
  | .modulo => a.rem? b

end Arithmetic

namespace Value

/-- The value of a decimal: an integer if it is one in range. -/
def ofDecimal (d : Decimal) : Value :=
  match d.toInt?.bind toWord? with
  | some n => .integer n
  | none => .float d.toFloat

def toDecimal? : Value → Option Decimal
  | .integer n => some (Decimal.ofInt n.toInt)
  | .float x => Decimal.ofFloat? x
  | _ => none

/-- Arithmetic with an integer and a float, in decimals. -/
def mixedArithmetic? (op : Arithmetic) (left right : Value) : Option Value := do
  let a ← left.toDecimal?
  let b ← right.toDecimal?
  return ofDecimal (← op.onDecimals? a b)

def arithmetic (op : Arithmetic) (left right : Value) : Value :=
  let onFloats := Value.float (op.onFloats left.toNumber right.toNumber)
  match left, right with
  | .integer a, .integer b => ((op.onIntegers? a.toInt b.toInt).map .integer).getD onFloats
  | .integer _, .float _ | .float _, .integer _ => (mixedArithmetic? op left right).getD onFloats
  | _, _ => onFloats

/-- What an absent operand of a sum or a difference counts as. -/
def zeroIfAbsent : Value → Value
  | .undefined => .integer 0
  | value => value

/-- Whether a value turns a sum into the joining of texts. -/
def joins : Value → Bool
  | .text _ | .array _ | .record _ | .function _ => true
  | _ => false

def sum (left right : Value) : Value :=
  if left.joins || right.joins then .text (left.display ++ right.display)
  else arithmetic .add left right

/-- The order of two floats; what is not a number has none. -/
def floatOrder? (x y : Float) : Option Ordering :=
  if x < y then some .lt
  else if y < x then some .gt
  else if x == y then some .eq
  else none

/-- The order of two values: texts by their characters, everything else by its number. -/
def order? (left right : Value) : Option Ordering :=
  match left, right with
  | .text a, .text b => some (compare a b)
  | .integer a, .integer b => some (compare a b)
  | _, _ => floatOrder? left.toNumber right.toNumber

/-- A comparison of size. Values without an order compare as false in every way. -/
def compareBy (op : Comparison) (left right : Value) : Bool :=
  match order? left right with
  | none => false
  | some order =>
    match op with
    | .less => order == .lt
    | .greater => order == .gt
    | .atMost => order != .gt
    | .atLeast => order != .lt

/-- The number that a sign is put in front of: an absent operand counts as zero. -/
def signOperand : Value → Value
  | .undefined => .integer 0
  | .integer n => .integer n
  | .float x => .float x
  | other => .float other.toNumber

/-- The opposite number. The least integer has none, and becomes a float. -/
def negate (value : Value) : Value :=
  match value.signOperand with
  | .integer n => ((toWord? (-n.toInt)).map .integer).getD (.float (-ofWord n))
  | other => .float (-other.toNumber)

def applyUnary (op : UnaryOp) (operand : Value) : Value :=
  match op with
  | .not => .boolean (!operand.isTruthy)
  | .plus => operand.signOperand
  | .minus => operand.negate

def applyBinary (op : BinaryOp) (left right : Value) : Value :=
  match op with
  | .add => sum left.zeroIfAbsent right.zeroIfAbsent
  | .subtract => arithmetic .subtract left.zeroIfAbsent right.zeroIfAbsent
  | .multiply => arithmetic .multiply left right
  | .divide => arithmetic .divide left right
  | .modulo => arithmetic .modulo left right
  | .equal => .boolean (looseEquals left right)
  | .notEqual => .boolean (!looseEquals left right)
  | .strictEqual => .boolean (strictEquals left right)
  | .strictNotEqual => .boolean (!strictEquals left right)
  | .lessThan => .boolean (compareBy .less left right)
  | .greaterThan => .boolean (compareBy .greater left right)
  | .lessEqual => .boolean (compareBy .atMost left right)
  | .greaterEqual => .boolean (compareBy .atLeast left right)

end Value

end TemplateExpr

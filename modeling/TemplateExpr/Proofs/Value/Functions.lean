import TemplateExpr.Value.Operator
import TemplateExpr.Value.Member

/-!
# The functions inside a value

Functions of the host are the only part of a value that does something when it is used. Code never
makes one: operators yield atoms, and members, arrays and records hold what was put into them. So
the functions inside the values that an evaluation goes through come from its scope, from a call or
from a filter, and from nowhere else.
-/

namespace TemplateExpr

/-- That every function at any depth of a value has the property `P`. -/
inductive Value.FunctionsIn (P : Function → Prop) : Value → Prop
  | undefined : Value.FunctionsIn P .undefined
  | null : Value.FunctionsIn P .null
  | boolean (b : Bool) : Value.FunctionsIn P (.boolean b)
  | integer (n : Int64) : Value.FunctionsIn P (.integer n)
  | float (x : Float) : Value.FunctionsIn P (.float x)
  | text (s : String) : Value.FunctionsIn P (.text s)
  | array (items : List Value) (h : ∀ item ∈ items, Value.FunctionsIn P item) :
    Value.FunctionsIn P (.array items)
  | record (entries : Entries Value) (h : ∀ entry ∈ entries, Value.FunctionsIn P entry.2) :
    Value.FunctionsIn P (.record entries)
  | function (f : Function) (h : P f) : Value.FunctionsIn P (.function f)

abbrev Value.FunctionFree (value : Value) : Prop := value.FunctionsIn fun _ => False

/-! ## Operators -/

namespace Value

variable {P : Function → Prop}

theorem functionsIn_of_isNumber {value : Value} (h : value.isNumber) : value.FunctionsIn P := by
  cases value with
  | integer n => exact .integer n
  | float x => exact .float x
  | _ => cases h

theorem isNumber_ofDecimal (d : Number.Decimal) : (ofDecimal d).isNumber := by
  unfold ofDecimal
  split <;> rfl

theorem isNumber_arithmetic (op : Arithmetic) (left right : Value) :
    (arithmetic op left right).isNumber := by
  have hmixed : ∀ a b : Value, ∀ x : Float,
      ((mixedArithmetic? op a b).getD (.float x)).isNumber := by
    intro a b x
    cases h : mixedArithmetic? op a b with
    | none => rfl
    | some value =>
      simp only [mixedArithmetic?, Option.bind_eq_bind, Option.bind_eq_some_iff] at h
      obtain ⟨_, -, _, -, d, -, heq⟩ := h
      cases heq
      exact isNumber_ofDecimal d
  unfold arithmetic
  split
  · next a b =>
    cases op.onIntegers? a.toInt b.toInt <;> rfl
  · exact hmixed _ _ _
  · exact hmixed _ _ _
  · rfl

theorem isNumber_signOperand (value : Value) : value.signOperand.isNumber := by
  cases value <;> rfl

theorem isNumber_negate (value : Value) : value.negate.isNumber := by
  unfold negate
  split
  · next n _ => cases Number.toWord? (-n.toInt) <;> rfl
  · rfl

theorem functionsIn_applyUnary (op : UnaryOp) (operand : Value) :
    (operand.applyUnary op).FunctionsIn P := by
  cases op with
  | plus => exact functionsIn_of_isNumber (isNumber_signOperand operand)
  | minus => exact functionsIn_of_isNumber (isNumber_negate operand)
  | not => exact .boolean _

theorem functionsIn_sum (left right : Value) : (sum left right).FunctionsIn P := by
  unfold sum
  split
  · exact .text _
  · exact functionsIn_of_isNumber (isNumber_arithmetic _ _ _)

theorem functionsIn_applyBinary (op : BinaryOp) (left right : Value) :
    (left.applyBinary op right).FunctionsIn P := by
  cases op with
  | add => exact functionsIn_sum _ _
  | subtract | multiply | divide | modulo =>
    exact functionsIn_of_isNumber (isNumber_arithmetic _ _ _)
  | equal | notEqual | strictEqual | strictNotEqual | lessThan | greaterThan | lessEqual
  | greaterEqual => exact .boolean _

/-! ## Members -/

theorem functionsIn_getD {found : Option Value} (h : ∀ value, found = some value →
    value.FunctionsIn P) : (found.getD .undefined).FunctionsIn P := by
  cases found with
  | none => exact .undefined
  | some value => exact h value rfl

theorem functionsIn_getMember {container : Value} (key : String)
    (h : container.FunctionsIn P) : (container.getMember key).FunctionsIn P := by
  cases h with
  | record entries hentries =>
    refine functionsIn_getD fun value hvalue => ?_
    obtain ⟨before, after, rfl, -⟩ := List.lookup_eq_some_iff.mp hvalue
    exact hentries (key, value) (List.mem_append_right _ List.mem_cons_self)
  | array items hitems =>
    simp only [getMember]
    split
    · exact .integer _
    · refine functionsIn_getD fun value hvalue => ?_
      obtain ⟨index, -, hindex⟩ := Option.bind_eq_some_iff.mp hvalue
      exact hitems value (List.mem_of_getElem? hindex)
  | text s =>
    simp only [getMember]
    split
    · exact .integer _
    · split
      · exact .text _
      · exact .undefined
  | _ => exact .undefined

end Value

end TemplateExpr

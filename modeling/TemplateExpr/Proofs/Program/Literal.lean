import Mathlib
import TemplateExpr.Program.Eval

/-!
# Code that is written out

Code that consists of literals, of signs in front of them, and of arrays and objects of such code
has its value on its face. Evaluating it asks nothing of the scope or of the host, and changes
nothing (`Code.eval_of_literalValue?`).
-/

namespace TemplateExpr

mutual
def Code.literalValue? : Code → Option Value
  | .literal given => some given.value
  | .array elements => (Code.literalValues? elements).map .array
  | .record entries => (Code.literalEntries? [] entries).map .record
  | .unary op operand => operand.literalValue?.map (·.applyUnary op)
  | _ => none

def Code.literalValues? : List Code → Option (List Value)
  | [] => some []
  | code :: codes => do
    let value ← code.literalValue?
    let values ← Code.literalValues? codes
    return value :: values

def Code.literalEntries? (before : Entries Value) : List (String × Code) → Option (Entries Value)
  | [] => some before
  | (key, code) :: codes => do
    let value ← code.literalValue?
    Code.literalEntries? (Entries.insert key value before) codes
end

section

variable {σ : Type} (host : Host σ)

mutual
/-- **What is written out needs no scope.** -/
theorem Code.eval_of_literalValue? : (code : Code) → {value : Value} →
    code.literalValue? = some value → code.eval host = pure value
  | .literal given, value, h => by
    cases h
    rfl
  | .array elements, value, h => by
    obtain ⟨values, hvalues, rfl⟩ := Option.map_eq_some_iff.mp h
    rw [Code.eval, Code.evalAll_of_literalValues? elements hvalues, pure_bind]
  | .record entries, value, h => by
    obtain ⟨stored, hstored, rfl⟩ := Option.map_eq_some_iff.mp h
    rw [Code.eval, Code.evalEntries_of_literalEntries? entries hstored, pure_bind]
  | .unary op operand, value, h => by
    obtain ⟨given, hgiven, rfl⟩ := Option.map_eq_some_iff.mp h
    rw [Code.eval, Code.eval_of_literalValue? operand hgiven, pure_bind]
  | .name _, _, h | .this, _, h | .member .., _, h | .callMember .., _, h | .callName .., _, h
  | .callValue .., _, h | .filter .., _, h | .assign .., _, h | .binary .., _, h
  | .logical .., _, h | .conditional .., _, h => by cases h

theorem Code.evalAll_of_literalValues? : (codes : List Code) → {values : List Value} →
    Code.literalValues? codes = some values → Code.evalAll host codes = pure values
  | [], values, h => by
    cases h
    rfl
  | code :: codes, values, h => by
    obtain ⟨value, hvalue, h⟩ := Option.bind_eq_some_iff.mp h
    obtain ⟨rest, hrest, heq⟩ := Option.bind_eq_some_iff.mp h
    cases heq
    rw [Code.evalAll, Code.eval_of_literalValue? code hvalue, pure_bind,
      Code.evalAll_of_literalValues? codes hrest, pure_bind]

theorem Code.evalEntries_of_literalEntries? : (codes : List (String × Code)) →
    {before entries : Entries Value} → Code.literalEntries? before codes = some entries →
    Code.evalEntries host before codes = pure entries
  | [], before, entries, h => by
    cases h
    rfl
  | (key, code) :: codes, before, entries, h => by
    obtain ⟨value, hvalue, h⟩ := Option.bind_eq_some_iff.mp h
    rw [Code.evalEntries, Code.eval_of_literalValue? code hvalue, pure_bind,
      Code.evalEntries_of_literalEntries? codes h]
end

end

end TemplateExpr

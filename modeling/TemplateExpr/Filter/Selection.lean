import TemplateExpr.Filter.Pattern
import TemplateExpr.Host

/-!
# Selecting items of an array

The filter `filter` keeps the items of an array that a criterion accepts. A function of the host as
the criterion is asked about each item; anything else is a pattern. Leaves are compared by a test
that the third argument chooses: similarity, strict equality, or a function of the host.
-/

namespace TemplateExpr

namespace Filter

inductive Comparator where
  | similar
  | strict
  | custom (f : Function)
deriving DecidableEq

def Comparator.ofValue : Value → Comparator
  | .boolean true => .strict
  | .function f => .custom f
  | _ => .similar

section

variable {σ : Type} (host : Host σ)

def checkCallee (value : Value) : HostRun σ Unit :=
  match Guard.checkCallee value with
  | .ok () => pure ()
  | .error violation => throw (.security violation)

/-- Asks a function of the host, which has no receiver, for a condition. -/
def ask (f : Function) (arguments : List Value) : HostRun σ Bool := do
  return (← host.call f .undefined arguments).isTruthy

def keptByPattern (comparator : Comparator) (pattern item : Value) : HostRun σ Bool :=
  match comparator with
  | .similar => return Pattern.holds Pattern.similar pattern item
  | .strict => return Pattern.holds Value.strictEquals pattern item
  | .custom f => Pattern.keeps (fun actual expected => ask host f [actual, expected]) pattern item

/-- The items that are kept, in order. `keeps` is told the place of each. -/
def keepWhere (keeps : Nat → Value → HostRun σ Bool) (place : Nat) :
    List Value → HostRun σ (List Value)
  | [] => return []
  | item :: rest => do
    let kept ← keeps place item
    let others ← keepWhere keeps (place + 1) rest
    return if kept then item :: others else others

/-- The filter `filter`. What is no array stays as it is, and so does an array whose criterion is
absent or an array itself. -/
def select (value criterion comparator : Value) : HostRun σ Value :=
  match value with
  | .array items => do
    checkCallee criterion
    checkCallee comparator
    match criterion with
    | .function f =>
      let kept ← keepWhere
        (fun place item => ask host f [item, Value.ofLength place, .array items]) 0 items
      return .array kept
    | .undefined | .array _ => return value
    | pattern =>
      let kept ← keepWhere
        (fun _ item => keptByPattern host (Comparator.ofValue comparator) pattern item) 0 items
      return .array kept
  | other => return other

end

end Filter

end TemplateExpr

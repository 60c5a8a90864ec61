import TemplateExpr.Program.Code
import TemplateExpr.Program.Place
import TemplateExpr.Value.Operator

/-!
# Evaluation

Code runs from left to right, each part at most once. Where the data ends, evaluation does not: a
member of what is absent is undefined, and so is a call of it, without its key or its arguments
being looked at.

The guard sees every value that is read by name, read from, read as a member, handed to a function,
returned by a function or a filter, or assigned. `this` and the receiver that a bare name gives to a
call are handed on as they are.
-/

namespace TemplateExpr

def Literal.value : Literal → Value
  | .null => .null
  | .boolean b => .boolean b
  | .integer n => .integer n
  | .float x => .float x
  | .text s => .text s

/-- Whether the value of the first operand settles a logical operator. -/
def LogicalOp.settledBy (op : LogicalOp) (value : Value) : Bool :=
  match op with
  | .and => !value.isTruthy
  | .or => value.isTruthy

namespace Run

variable {σ : Type}

/-- A value that has passed the guard. -/
def safe (value : Value) : Run σ Value := do
  guarded (Guard.checkObject value)
  return value

/-- Writes to a resolved place. The scope becomes what the write leaves behind. -/
def write (target : Target) (value : Value) : Run σ Unit := do
  let (outcome, after) := target.write value (← scope)
  setScope after
  match outcome with
  | .ok () => return ()
  | .error fault => throw fault

end Run

section

variable {σ : Type} (host : Host σ)

mutual
def Code.eval : Code → Run σ Value
  | .literal value => return value.value
  | .array elements => return .array (← Code.evalAll elements)
  | .record entries => return .record (← Code.evalEntries [] entries)
  | .name name => do Run.safe ((← Run.scope).lookup name)
  | .this => return (← Run.scope).context
  | .member target key => do
    let container ← target.eval
    if container.isNullish then return .undefined
    Run.guarded (Guard.checkObject container)
    Run.safe (container.getMember (← key.eval))
  | .callMember target key arguments => do
    let receiver ← target.eval
    if receiver.isNullish then return .undefined
    Run.guarded (Guard.checkObject receiver)
    let callee := receiver.getMember (← key.eval)
    if callee.isNullish then return .undefined
    Run.guarded (Guard.checkCallee callee)
    let given ← Code.evalArguments arguments
    host.invoke callee receiver given
  | .callName name arguments => do
    let callee := (← Run.scope).lookup name
    if callee.isNullish then return .undefined
    Run.guarded (Guard.checkCallee callee)
    let given ← Code.evalArguments arguments
    host.invoke callee ((← Run.scope).owner name) given
  | .callValue callee arguments => do
    let callee ← callee.eval
    if callee.isNullish then return .undefined
    Run.guarded (Guard.checkCallee callee)
    let given ← Code.evalArguments arguments
    host.invoke callee .undefined given
  | .filter filter arguments => do
    let given ← Code.evalAll arguments
    Run.safe (← Run.ofHost (filter.apply host given))
  | .assign root path value => do
    let target ← root.eval (Key.evalAll path)
    let value ← Run.safe (← value.eval)
    Run.write target value
    return value
  | .unary op operand => return (← operand.eval).applyUnary op
  | .binary op left right => do
    let left ← left.eval
    let right ← right.eval
    return Value.applyBinary op left right
  | .logical op left right => do
    let value ← left.eval
    if op.settledBy value then return value else right.eval
  | .conditional test consequent alternate => do
    if (← test.eval).isTruthy then consequent.eval else alternate.eval

def Code.evalAll : List Code → Run σ (List Value)
  | [] => return []
  | code :: codes => do
    let value ← code.eval
    let values ← Code.evalAll codes
    return value :: values

def Code.evalArguments : List Code → Run σ (List Value)
  | [] => return []
  | code :: codes => do
    let value ← Run.safe (← code.eval)
    let values ← Code.evalArguments codes
    return value :: values

/-- The entries of an object literal, added to those that stand before them. -/
def Code.evalEntries (before : List (String × Value)) :
    List (String × Code) → Run σ (List (String × Value))
  | [] => return before
  | (key, code) :: codes => do
    let value ← code.eval
    Code.evalEntries (Entries.insert key value before) codes

/-- The name that a key stands for. The text of a computed key must not be blocked. -/
def Key.eval : Key → Run σ String
  | .fixed name => return name
  | .computed code => do
    let name := (← code.eval).display
    Run.guarded (Guard.checkName name)
    return name

def Key.evalAll : List Key → Run σ (List String)
  | [] => return []
  | key :: keys => do
    let name ← key.eval
    let names ← Key.evalAll keys
    return name :: names

/-- The target of a place: the root first, then its keys. -/
def Root.eval (path : Run σ (List String)) : Root → Run σ Target
  | .name name => return .name name (← path)
  | .this => return .this (← path)
  | .temporary code => do
    let value ← Run.safe (← code.eval)
    return .temporary value (← path)
end

/-- Evaluates statements in order; the value is that of the last, or undefined without any. -/
def Code.evalStatements (last : Value) : List Code → Run σ Value
  | [] => return last
  | code :: codes => do Code.evalStatements (← code.eval host) codes

def Place.target (place : Place) : Run σ Target :=
  place.root.eval host (Key.evalAll host place.path)

/-- Stores a value at a place and gives it back. The value has to pass the guard first. -/
def Place.assign (place : Place) (value : Value) : Run σ Value := do
  Run.guarded (Guard.checkObject value)
  Run.write (← place.target host) value
  return value

end

end TemplateExpr

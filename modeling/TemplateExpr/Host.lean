import TemplateExpr.Scope

/-!
# Runs and hosts

Evaluation is a run: it reads and changes a scope and a state of the host, and ends in a value or in
an error. What was changed before an error stays changed.

The host supplies what the library cannot know: what its functions do, what its filters do, and
evaluators written by hand. It sees values and its own state `σ`, and never the scope, unless an
evaluator is written for it.
-/

namespace TemplateExpr

inductive TypeFault where
  /-- A value that is no function was called. -/
  | notAFunction (kind : Kind)
  /-- A member could not be written. -/
  | member (fault : MemberFault)
  /-- A function of the host refused a value. -/
  | host (message : String)
deriving DecidableEq

def TypeFault.message : TypeFault → String
  | .notAFunction kind => kind.name ++ " is not a function"
  | .member fault => fault.message
  | .host message => message

inductive EvalError where
  | security (violation : SecurityError)
  | type (fault : TypeFault)
  /-- An expression that names no place was assigned to. -/
  | notAssignable (source : String)
  /-- A filter or a function of the host reported a failure. -/
  | filter (message : String)
deriving DecidableEq

def EvalError.message : EvalError → String
  | .security violation => violation.message
  | .type fault => "Type error: " ++ fault.message
  | .notAssignable source => "Expression '" ++ source ++ "' is not assignable"
  | .filter message => "Filter error: " ++ message

structure World (σ : Type) where
  scope : Scope
  host : σ

abbrev Run (σ α : Type) := ExceptT EvalError (StateM (World σ)) α

abbrev HostRun (σ α : Type) := ExceptT EvalError (StateM σ) α

structure Host (σ : Type) where
  /-- Calls a function with a receiver and arguments. -/
  call : Function → (receiver : Value) → (arguments : List Value) → HostRun σ Value
  /-- Applies the filter of a name to the piped value and its arguments. -/
  filter : (name : String) → (arguments : List Value) → HostRun σ Value
  /-- Runs the hand-written evaluator of a name. -/
  evaluator : (name : String) → Run σ Value

namespace Run

variable {σ α : Type}

/-- The result and the world of a run that starts in a given world. -/
def start (run : Run σ α) (world : World σ) : Except EvalError α × World σ :=
  (ExceptT.run run).run world

/-- A part of a run that concerns the host alone. -/
def ofHost (run : HostRun σ α) : Run σ α :=
  ExceptT.mk fun world =>
    let (result, host) := (ExceptT.run run).run world.host
    (result, { world with host })

def scope : Run σ Scope := do return (← get).scope

def setScope (scope : Scope) : Run σ Unit := modify fun world => { world with scope }

def guarded (check : Except SecurityError Unit) : Run σ Unit :=
  match check with
  | .ok () => pure ()
  | .error violation => throw (.security violation)

end Run

/-- Calls a value. The guard has seen that it is safe to call; what it returns is checked here. -/
def Host.invoke {σ : Type} (host : Host σ) (callee receiver : Value) (arguments : List Value) :
    Run σ Value := do
  match callee with
  | .function f =>
    let result ← Run.ofHost (host.call f receiver arguments)
    Run.guarded (Guard.checkObject result)
    return result
  | other => throw (.type (.notAFunction other.kind))

end TemplateExpr

import TemplateExpr.Expression
import TemplateExpr.Proofs.Program.Agreement

/-!
# Evaluation by way of an access

Everything that code does to its surroundings, it does by one of a few accesses: it looks up a
name, reads, opens or writes a member, calls a function, or applies a filter. `Access` holds one
operation for each, and `Code.evalBy` is evaluation with these operations left open. With the
operations that a host gives (`Access.standard`), it is evaluation (`Code.evalBy_standard`).

So what code asks for can be observed, by an access that records it, and restricted, by an access
that answers some requests only.

A write walks into containers and puts them back on its way out. Putting back stores a container
where it was taken from, which is no access of its own.
-/

namespace TemplateExpr

/-- Where a call gets its receiver from: the object that its callee is a member of, what a bare name
belongs to, or nowhere. -/
inductive Receiver where
  | object (value : Value)
  | owner (name : String)
  | none

def Receiver.value (scope : Scope) : Receiver → Value
  | .object value => value
  | .owner name => scope.owner name
  | .none => .undefined

/-- What code can ask of its surroundings. -/
structure Access (σ : Type) where
  /-- Reads a name. -/
  lookup : (name : String) → Run σ Value
  /-- What a name belongs to, before it is written into. -/
  owner : (name : String) → Run σ Value
  /-- Replaces what a name belongs to. -/
  setOwner : (name : String) → Value → Run σ Unit
  /-- Reads a member. -/
  getMember : (container : Value) → (key : String) → Run σ Value
  /-- Opens a member for writing, and makes it if it is not there. -/
  openMember : (container : Value) → (key : String) → Run σ (Except MemberFault (Value × Value))
  /-- Writes a member. -/
  setMember : (container : Value) → (key : String) → Value → Run σ (Except MemberFault Value)
  /-- Calls a function. -/
  call : Function → Receiver → (arguments : List Value) → Run σ Value
  /-- Applies a filter. -/
  filter : Filter → (arguments : List Value) → Run σ Value
  /-- Runs an evaluator that is written by hand. -/
  evaluator : (name : String) → Run σ Value

def Access.standard {σ : Type} (host : Host σ) : Access σ where
  lookup name := return (← Run.scope).lookup name
  owner name := return (← Run.scope).owner name
  setOwner name value := do Run.setScope ((← Run.scope).setOwner name value)
  getMember container key := return container.getMember key
  openMember container key := return container.openMember key true
  setMember container key value := return container.setMember key value
  call f receiver arguments := do
    Run.ofHost (host.call f (receiver.value (← Run.scope)) arguments)
  filter filter arguments := Run.ofHost (filter.apply host arguments)
  evaluator := host.evaluator

section

variable {σ : Type} (access : Access σ)

namespace Access

def invoke (callee : Value) (receiver : Receiver) (arguments : List Value) : Run σ Value := do
  match callee with
  | .function f =>
    let result ← access.call f receiver arguments
    Run.guarded (Guard.checkObject result)
    return result
  | other => throw (.type (.notAFunction other.kind))

def writePath (value : Value) : (path : List String) → (container : Value) →
    Run σ (Except EvalError Unit × Value)
  | [], container => return (.ok (), container)
  | [last], container => do
    match ← access.setMember container last value with
    | .ok changed => return (.ok (), changed)
    | .error fault => return (.error (memberError fault), container)
  | key :: next :: path, container => do
    match ← access.openMember container key with
    | .error fault => return (.error (memberError fault), container)
    | .ok (opened, child) =>
      match Guard.checkObject child with
      | .error violation => return (.error (.security violation), opened)
      | .ok () =>
        let (outcome, child) ← writePath value (next :: path) child
        -- Also a write that failed further in leaves what it had made.
        return (outcome, opened.putBack key child)

/-- Ends a write: the error of one that failed stops the run. -/
def settle (outcome : Except EvalError Unit) : Run σ Unit :=
  match outcome with
  | .ok () => return ()
  | .error fault => throw fault

def write (target : Target) (value : Value) : Run σ Unit :=
  match target with
  | .name key path => do
    let owner ← access.owner key
    let (outcome, owner) ← access.writePath value (key :: path) owner.orRecord
    access.setOwner key owner
    settle outcome
  | .this path => do
    let scope ← Run.scope
    let (outcome, context) ← access.writePath value path scope.context.orRecord
    Run.setScope { scope with context }
    settle outcome
  | .temporary container path => do
    let (outcome, _) ← access.writePath value path container
    settle outcome

end Access

mutual
def Code.evalBy : Code → Run σ Value
  | .literal value => return value.value
  | .array elements => return .array (← Code.evalAllBy elements)
  | .record entries => return .record (← Code.evalEntriesBy [] entries)
  | .name name => do Run.safe (← access.lookup name)
  | .this => return (← Run.scope).context
  | .member target key => do
    let container ← target.evalBy
    if container.isNullish then return .undefined
    Run.guarded (Guard.checkObject container)
    Run.safe (← access.getMember container (← key.evalBy))
  | .callMember target key arguments => do
    let receiver ← target.evalBy
    if receiver.isNullish then return .undefined
    Run.guarded (Guard.checkObject receiver)
    let callee ← access.getMember receiver (← key.evalBy)
    if callee.isNullish then return .undefined
    Run.guarded (Guard.checkCallee callee)
    let given ← Code.evalArgumentsBy arguments
    access.invoke callee (.object receiver) given
  | .callName name arguments => do
    let callee ← access.lookup name
    if callee.isNullish then return .undefined
    Run.guarded (Guard.checkCallee callee)
    let given ← Code.evalArgumentsBy arguments
    -- An argument may have assigned, so the owner is found only now.
    access.invoke callee (.owner name) given
  | .callValue callee arguments => do
    let callee ← callee.evalBy
    if callee.isNullish then return .undefined
    Run.guarded (Guard.checkCallee callee)
    let given ← Code.evalArgumentsBy arguments
    access.invoke callee .none given
  | .filter filter arguments => do
    let given ← Code.evalAllBy arguments
    Run.safe (← access.filter filter given)
  | .assign root path value => do
    let target ← root.evalBy (Key.evalAllBy path)
    let value ← Run.safe (← value.evalBy)
    access.write target value
    return value
  | .unary op operand => return (← operand.evalBy).applyUnary op
  | .binary op left right => do
    let left ← left.evalBy
    let right ← right.evalBy
    return Value.applyBinary op left right
  | .logical op left right => do
    let value ← left.evalBy
    if op.settledBy value then return value else right.evalBy
  | .conditional test consequent alternate => do
    if (← test.evalBy).isTruthy then consequent.evalBy else alternate.evalBy

def Code.evalAllBy : List Code → Run σ (List Value)
  | [] => return []
  | code :: codes => do
    let value ← code.evalBy
    let values ← Code.evalAllBy codes
    return value :: values

def Code.evalArgumentsBy : List Code → Run σ (List Value)
  | [] => return []
  | code :: codes => do
    let value ← Run.safe (← code.evalBy)
    let values ← Code.evalArgumentsBy codes
    return value :: values

def Code.evalEntriesBy (before : List (String × Value)) :
    List (String × Code) → Run σ (List (String × Value))
  | [] => return before
  | (key, code) :: codes => do
    let value ← code.evalBy
    Code.evalEntriesBy (Entries.insert key value before) codes

def Key.evalBy : Key → Run σ String
  | .fixed name => return name
  | .computed code => do
    let name := (← code.evalBy).display
    Run.guarded (Guard.checkName name)
    return name

def Key.evalAllBy : List Key → Run σ (List String)
  | [] => return []
  | key :: keys => do
    let name ← key.evalBy
    let names ← Key.evalAllBy keys
    return name :: names

def Root.evalBy (path : Run σ (List String)) : Root → Run σ Target
  | .name name => return .name name (← path)
  | .this => return .this (← path)
  | .temporary code => do
    let value ← Run.safe (← code.evalBy)
    return .temporary value (← path)
end

def Code.evalStatementsBy (last : Value) : List Code → Run σ Value
  | [] => return last
  | code :: codes => do Code.evalStatementsBy (← code.evalBy access) codes

def Place.assignBy (place : Place) (value : Value) : Run σ Value := do
  Run.guarded (Guard.checkObject value)
  access.write (← place.root.evalBy access (Key.evalAllBy access place.path)) value
  return value

namespace Expression

def evalBy (expression : Expression) : Run σ Value :=
  match expression.reading with
  | .statements body => Code.evalStatementsBy access .undefined body
  | .handWritten name => access.evaluator name

def assignBy (expression : Expression) (value : Value) : Run σ Value :=
  match expression.place with
  | some place => place.assignBy access value
  | none => throw (.notAssignable (expression.source.getD ""))

end Expression

end

/-! ## The standard accesses -/

section

variable {σ : Type} (host : Host σ)

theorem Access.invoke_standard (callee : Value) (receiver : Receiver) (arguments : List Value) :
    (Access.standard host).invoke callee receiver arguments =
      (do host.invoke callee (receiver.value (← Run.scope)) arguments) := by
  cases callee <;> rfl

@[simp] theorem Access.standard_openMember (container : Value) (key : String) :
    (Access.standard host).openMember container key = pure (container.openMember key true) := rfl

@[simp] theorem Access.standard_setMember (container : Value) (key : String) (value : Value) :
    (Access.standard host).setMember container key value = pure (container.setMember key value) :=
  rfl

theorem Access.writePath_standard (value : Value) (path : List String) (container : Value) :
    (Access.standard host).writePath value path container =
      pure (TemplateExpr.writePath value path container) := by
  fun_induction TemplateExpr.writePath value path container with
  | case1 container => rfl
  | case2 last container changed hset => simp [writePath, hset]
  | case3 last container fault hset => simp [writePath, hset]
  | case4 key next path container fault hopen => simp [writePath, hopen]
  | case5 key next path container opened child hopen violation hcheck =>
    simp [writePath, hopen, hcheck]
  | case6 key next path container opened child hopen hcheck outcome after hwrite ih =>
    rw [hwrite] at ih
    simp [writePath, hopen, hcheck, ih]

theorem Access.write_standard (target : Target) (value : Value) :
    (Access.standard host).write target value = Run.write target value := by
  cases target with
  | name key path =>
    apply HostRun.ext_start
    intro world
    simp only [write, writePath_standard]
    rfl
  | this path =>
    simp only [write, writePath_standard]
    rfl
  | temporary container path =>
    simp only [write, writePath_standard]
    rfl

mutual
theorem Code.evalBy_standard : (code : Code) → code.evalBy (Access.standard host) = code.eval host
  | .literal value => rfl
  | .array elements => by rw [Code.evalBy, Code.eval, Code.evalAllBy_standard elements]
  | .record entries => by rw [Code.evalBy, Code.eval, Code.evalEntriesBy_standard entries]
  | .name name => by
    rw [Code.evalBy, Code.eval]
    rfl
  | .this => rfl
  | .member target key => by
    simp only [Code.evalBy, Code.eval, Code.evalBy_standard target, Key.evalBy_standard key]
    rfl
  | .callMember target key arguments => by
    simp only [Code.evalBy, Code.eval, Code.evalBy_standard target, Key.evalBy_standard key,
      Code.evalArgumentsBy_standard arguments, Access.invoke_standard]
    rfl
  | .callName name arguments => by
    simp only [Code.evalBy, Code.eval, Code.evalArgumentsBy_standard arguments,
      Access.invoke_standard]
    rfl
  | .callValue callee arguments => by
    simp only [Code.evalBy, Code.eval, Code.evalBy_standard callee,
      Code.evalArgumentsBy_standard arguments, Access.invoke_standard]
    rfl
  | .filter filter arguments => by
    rw [Code.evalBy, Code.eval, Code.evalAllBy_standard arguments]
    rfl
  | .assign root path value => by
    simp only [Code.evalBy, Code.eval, Key.evalAllBy_standard path, Root.evalBy_standard _ root,
      Code.evalBy_standard value, Access.write_standard]
  | .unary op operand => by rw [Code.evalBy, Code.eval, Code.evalBy_standard operand]
  | .binary op left right => by
    simp only [Code.evalBy, Code.eval, Code.evalBy_standard left, Code.evalBy_standard right]
  | .logical op left right => by
    simp only [Code.evalBy, Code.eval, Code.evalBy_standard left, Code.evalBy_standard right]
  | .conditional test consequent alternate => by
    simp only [Code.evalBy, Code.eval, Code.evalBy_standard test, Code.evalBy_standard consequent,
      Code.evalBy_standard alternate]

theorem Code.evalAllBy_standard :
    (codes : List Code) → Code.evalAllBy (Access.standard host) codes = Code.evalAll host codes
  | [] => rfl
  | code :: codes => by
    rw [Code.evalAllBy, Code.evalAll, Code.evalBy_standard code, Code.evalAllBy_standard codes]

theorem Code.evalArgumentsBy_standard : (codes : List Code) →
    Code.evalArgumentsBy (Access.standard host) codes = Code.evalArguments host codes
  | [] => rfl
  | code :: codes => by
    rw [Code.evalArgumentsBy, Code.evalArguments, Code.evalBy_standard code,
      Code.evalArgumentsBy_standard codes]

theorem Code.evalEntriesBy_standard : {before : List (String × Value)} →
    (codes : List (String × Code)) →
    Code.evalEntriesBy (Access.standard host) before codes = Code.evalEntries host before codes
  | _, [] => rfl
  | _, (key, code) :: codes => by
    simp only [Code.evalEntriesBy, Code.evalEntries, Code.evalBy_standard code,
      Code.evalEntriesBy_standard codes]

theorem Key.evalBy_standard : (key : Key) → key.evalBy (Access.standard host) = key.eval host
  | .fixed name => rfl
  | .computed code => by rw [Key.evalBy, Key.eval, Code.evalBy_standard code]

theorem Key.evalAllBy_standard :
    (keys : List Key) → Key.evalAllBy (Access.standard host) keys = Key.evalAll host keys
  | [] => rfl
  | key :: keys => by
    rw [Key.evalAllBy, Key.evalAll, Key.evalBy_standard key, Key.evalAllBy_standard keys]

theorem Root.evalBy_standard (path : Run σ (List String)) :
    (root : Root) → root.evalBy (Access.standard host) path = root.eval host path
  | .name name => rfl
  | .this => rfl
  | .temporary code => by rw [Root.evalBy, Root.eval, Code.evalBy_standard code]
end

theorem Code.evalStatementsBy_standard (codes : List Code) (last : Value) :
    Code.evalStatementsBy (Access.standard host) last codes =
      Code.evalStatements host last codes := by
  induction codes generalizing last with
  | nil => rfl
  | cons code codes ih =>
    simp only [Code.evalStatementsBy, Code.evalStatements, Code.evalBy_standard, ih]

theorem Expression.evalBy_standard (expression : Expression) :
    expression.evalBy (Access.standard host) = expression.eval host := by
  unfold evalBy eval
  cases expression.reading with
  | statements body => exact Code.evalStatementsBy_standard host body .undefined
  | handWritten name => rfl

theorem Expression.assignBy_standard (expression : Expression) (value : Value) :
    expression.assignBy (Access.standard host) value = expression.assign host value := by
  unfold assignBy assign
  cases expression.place with
  | some place =>
    simp only [Place.assignBy, Place.assign, Place.target, Key.evalAllBy_standard,
      Root.evalBy_standard, Access.write_standard]
  | none => rfl

end

end TemplateExpr

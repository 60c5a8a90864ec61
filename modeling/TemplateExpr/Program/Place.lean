import TemplateExpr.Host

/-!
# Writing to places

A place is resolved before the value for it is known: its root is evaluated and its keys become
names. The write then walks along the names. Members that are absent or `null` on the way become
empty records, every other one has to pass the guard, and the last one is written.

The walk changes containers as it goes. So a write gives back, besides its outcome, the container or
the scope that it leaves behind, and it does so also when it fails.
-/

namespace TemplateExpr

/-- A place whose keys are names: at what a name belongs to, in the context, or in a value that
nothing else holds. -/
inductive Target where
  | name (name : String) (path : List String)
  | this (path : List String)
  | temporary (value : Value) (path : List String)

def memberError (fault : MemberFault) : EvalError := .type (.member fault)

/-- A container after one of its members, which it has, was changed. -/
def Value.putBack (container : Value) (key : String) (member : Value) : Value :=
  match container.setMember key member with
  | .ok changed => changed
  | .error _ => container

/-- What writing `value` at the end of a path comes to, and the container afterwards. -/
def writePath (value : Value) : (path : List String) → (container : Value) →
    Except EvalError Unit × Value
  | [], container => (.ok (), container)
  | [last], container =>
    match container.setMember last value with
    | .ok changed => (.ok (), changed)
    | .error fault => (.error (memberError fault), container)
  | key :: next :: path, container =>
    match container.openMember key true with
    | .error fault => (.error (memberError fault), container)
    | .ok (opened, child) =>
      match Guard.checkObject child with
      | .error violation => (.error (.security violation), opened)
      | .ok () =>
        let (outcome, child) := writePath value (next :: path) child
        (outcome, opened.putBack key child)

/-- What a path starts from: where nothing is, an empty record. -/
def Value.orRecord (value : Value) : Value := if value.isNullish then .emptyRecord else value

/-- What writing `value` at a target comes to, and the scope afterwards. -/
def Target.write (target : Target) (value : Value) (scope : Scope) :
    Except EvalError Unit × Scope :=
  match target with
  | .name key path =>
    let (outcome, owner) := writePath value (key :: path) (scope.owner key).orRecord
    (outcome, scope.setOwner key owner)
  | .this path =>
    let (outcome, context) := writePath value path scope.context.orRecord
    (outcome, { scope with context })
  | .temporary container path => ((writePath value path container).1, scope)

end TemplateExpr

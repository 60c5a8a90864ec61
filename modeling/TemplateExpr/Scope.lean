import TemplateExpr.Guard

/-!
# Scopes

What an expression is evaluated in: a context, and optional locals whose entries shadow the entries
of the context. A name belongs to the locals exactly when they have an entry of that name, whatever
its value; every other name belongs to the context, whether or not it is there.
-/

namespace TemplateExpr

/-- A context and, possibly, locals in front of it. -/
structure Scope where
  context : Value
  locals : Option Value

namespace Scope

def inLocals (name : String) (scope : Scope) : Bool :=
  match scope.locals with
  | some locals => locals.hasKey name
  | none => false

/-- The value that a name belongs to. -/
def owner (name : String) (scope : Scope) : Value :=
  match scope.locals with
  | some locals => if locals.hasKey name then locals else scope.context
  | none => scope.context

def lookup (name : String) (scope : Scope) : Value := (scope.owner name).getMember name

/-- The scope with `value` in place of what a name belongs to. -/
def setOwner (name : String) (value : Value) (scope : Scope) : Scope :=
  if scope.inLocals name then { scope with locals := some value }
  else { scope with context := value }

end Scope

end TemplateExpr

import TemplateExpr.Filter.Selection
import TemplateExpr.Filter.Slice
import TemplateExpr.Json.Writer

/-!
# Filters and their registry

A filter is one of five that are built in, or one of the host. It gets the piped value and its
arguments in one list; arguments that are missing are undefined. A registry holds filters by name,
and a program is compiled against one.
-/

namespace TemplateExpr

open Text

inductive Transform where
  | select | limitTo | json | uppercase | lowercase
  /-- A filter that the host supplies under a name of its own. -/
  | host (name : String)
deriving DecidableEq

/-- A filter. One that is stateful may answer equal arguments differently, so that nothing above it
is constant. -/
structure Filter where
  transform : Transform
  stateful : Bool
deriving DecidableEq

namespace Filter

def argument (arguments : List Value) (place : Nat) : Value := (arguments[place]?).getD .undefined

/-- A text through a mapping; other values stay as they are. -/
def mapText (f : List Char → List Char) : Value → Value
  | .text s => .text (String.ofList (f s.toList))
  | other => other

/-- The filter `json`: pretty, unless there is a second argument that does not count as true. What
JSON cannot say has no text. -/
def json (arguments : List Value) : Value :=
  let value := argument arguments 0
  if value.isUnwritable then .undefined
  else
    match arguments[1]? with
    | some second => .text (value.toJson (if second.isTruthy then .pretty else .compact))
    | none => .text (value.toJson .pretty)

def apply {σ : Type} (host : Host σ) (filter : Filter) (arguments : List Value) :
    HostRun σ Value :=
  match filter.transform with
  | .select => select host (argument arguments 0) (argument arguments 1) (argument arguments 2)
  | .limitTo =>
    return limitTo (argument arguments 0) (argument arguments 1) (argument arguments 2)
  | .json => return json arguments
  | .uppercase => return mapText Text.uppercase (argument arguments 0)
  | .lowercase => return mapText Text.lowercase (argument arguments 0)
  | .host name => host.filter name arguments

end Filter

abbrev Registry := Entries Filter

namespace Registry

def empty : Registry := []

def builtins : Registry :=
  [("filter", ⟨.select, false⟩), ("limitTo", ⟨.limitTo, false⟩), ("json", ⟨.json, false⟩),
    ("uppercase", ⟨.uppercase, false⟩), ("lowercase", ⟨.lowercase, false⟩)]

/-- Adds a filter, or replaces the one of that name. -/
def register (name : String) (filter : Filter) (registry : Registry) : Registry :=
  Entries.insert name filter registry

def find? (name : String) (registry : Registry) : Option Filter := Entries.get? name registry

def names (registry : Registry) : List String :=
  (registry.map Prod.fst).mergeSort fun a b => decide (a ≤ b)

end Registry

end TemplateExpr

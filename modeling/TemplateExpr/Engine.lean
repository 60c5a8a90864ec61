import TemplateExpr.Expression

/-!
# The engine

An engine holds a registry of filters and every expression it has compiled from text, so that equal
texts are compiled once. What it hands out are evaluators: an expression together with an identity,
which tells the same evaluator from another one of the same text.

The cache decides nothing but identities: an evaluator from the cache is the expression that
compiling the text again would give.
-/

namespace TemplateExpr

structure Evaluator where
  identity : Nat
  expression : Expression

inductive Source where
  /-- The text of an expression, compiled unless it is in the cache. -/
  | text (source : String)
  /-- An evaluator, which stays what it is. -/
  | evaluator (evaluator : Evaluator)
  /-- Nothing to evaluate. -/
  | empty

/-- A registry, the evaluators of the texts compiled so far, and the number of identities given. -/
structure Engine where
  filters : Registry
  cache : Entries Evaluator
  issued : Nat

namespace Engine

def new (filters : Registry) : Engine := ⟨filters, [], 0⟩

def compile (engine : Engine) (source : String) : Except CompileError Expression :=
  Expression.ofSource engine.filters source

def share (engine : Engine) (expression : Expression) : Evaluator × Engine :=
  (⟨engine.issued, expression⟩, { engine with issued := engine.issued + 1 })

/-- The evaluator of a source. A text that does not compile leaves no trace. -/
def parse (engine : Engine) : Source → Except CompileError Evaluator × Engine
  | .evaluator evaluator => (.ok evaluator, engine)
  | .empty =>
    let (evaluator, engine) := engine.share .noop
    (.ok evaluator, engine)
  | .text source =>
    match Entries.get? source engine.cache with
    | some evaluator => (.ok evaluator, engine)
    | none =>
      match engine.compile source with
      | .error fault => (.error fault, engine)
      | .ok expression =>
        let (evaluator, engine) := engine.share expression
        (.ok evaluator, { engine with cache := Entries.insert source evaluator engine.cache })

def size (engine : Engine) : Nat := engine.cache.length

def isEmpty (engine : Engine) : Bool := engine.size == 0

/-- Empties the cache. Evaluators that were handed out stay as they are. -/
def clear (engine : Engine) : Engine := { engine with cache := [] }

end Engine

end TemplateExpr

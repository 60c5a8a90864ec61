import TemplateExpr.Program.Compile
import TemplateExpr.Program.Eval
import TemplateExpr.Tree.Constancy

/-!
# Expressions

A compiled expression can be evaluated any number of times, against any scope. When it is a single
name or member it is also a place, and can be assigned to. Two flags tell what is known of it
without evaluating it: whether it is a literal, and whether it is constant.
-/

namespace TemplateExpr

/-- How an expression is evaluated: by its statements, or by an evaluator of the host. -/
inductive Reading where
  | statements (body : List Code)
  | handWritten (name : String)

/-- A compiled expression, or one written by hand, which has no source. -/
structure Expression where
  source : Option String
  reading : Reading
  place : Option Place
  literal : Bool
  constant : Bool

namespace Expression

/-! ## Making expressions -/

/-- The place that a list of statements names, if it is a single name or member. -/
def place? (registry : Registry) (body : List Node) : Except CompileError (Option Place) :=
  match body with
  | [.identifier flag name] => some <$> Node.compilePlace registry (.identifier flag name)
  | [.member flag target key computed] =>
    some <$> Node.compilePlace registry (.member flag target key computed)
  | _ => return none

/-- Whether statements are nothing at all, or one literal of any form. -/
def isLiteral (body : List Node) : Bool :=
  match body with
  | [] | [.literal ..] | [.array ..] | [.object ..] => true
  | _ => false

/-- The expression of a tree. It is constant when the tree says so and no filter in it is
stateful. -/
def ofTree (registry : Registry) (source : String) (tree : Node) :
    Except CompileError Expression :=
  match tree with
  | .program flag body => do
    let code ← Node.compileAll registry body
    let place ← place? registry body
    return {
      source := some source
      reading := .statements code
      place
      literal := isLiteral body
      constant := flag && !Code.anyStateful code }
  | _ => .error (.generation .rootNotProgram)

/-- The tree of a source, with its flags set. -/
def treeOf (source : String) : Except CompileError Node := do
  let tokens ← (tokenize source).mapError .lex
  let tree ← (Node.ofTokens tokens).mapError .parse
  return tree.analyze

def ofSource (registry : Registry) (source : String) : Except CompileError Expression := do
  ofTree registry source (← treeOf source)

def handWritten (name : String) : Expression :=
  { source := none, reading := .handWritten name, place := none, literal := false,
    constant := false }

def noop : Expression :=
  { source := none, reading := .statements [], place := none, literal := false, constant := false }

/-! ## Using expressions -/

section

variable {σ : Type} (host : Host σ)

def eval (expression : Expression) : Run σ Value :=
  match expression.reading with
  | .statements body => Code.evalStatements host .undefined body
  | .handWritten name => host.evaluator name

/-- Stores a value at the place that an expression names, and gives it back. -/
def assign (expression : Expression) (value : Value) : Run σ Value :=
  match expression.place with
  | some place => place.assign host value
  | none => throw (.notAssignable (expression.source.getD ""))

end

def isAssignable (expression : Expression) : Bool := expression.place.isSome

end Expression

end TemplateExpr

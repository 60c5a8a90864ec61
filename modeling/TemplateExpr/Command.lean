import TemplateExpr.Engine
import TemplateExpr.Json.Reader

/-!
# Commands

What the command line can do: evaluate an expression against a context and locals given as JSON,
check an expression and tell its flags, and list the tokens of an expression. A command needs no
host: JSON holds no functions, and only the built-in filters are there.
-/

namespace TemplateExpr

/-- The host of a command. Nothing it is handed can name a function of its own. -/
def Host.none : Host Unit where
  call _ _ _ := return .undefined
  filter _ _ := return .undefined
  evaluator _ := return .undefined

inductive CommandError where
  | compile (fault : CompileError)
  | eval (fault : EvalError)
  /-- The context or the locals are no JSON. -/
  | json
deriving DecidableEq

def CommandError.message : CommandError → String
  | .compile fault => fault.message
  | .eval fault => "Evaluation error: " ++ fault.message
  | .json => "Invalid JSON: the text is not a single document"

namespace Command

/-! ## The three commands -/

structure EvalOptions where
  expression : String
  context : Option String
  locals : Option String

structure EvalResult where
  result : Value
  context : Value

def readValue? : Option String → Except CommandError (Option Value)
  | none => .ok none
  | some text =>
    match Json.read? text with
    | some document => .ok (some (.ofDocument document))
    | none => .error .json

def evaluate (filters : Registry) (options : EvalOptions) : Except CommandError EvalResult := do
  let expression ← (Expression.ofSource filters options.expression).mapError .compile
  let context ← readValue? options.context
  let locals ← readValue? options.locals
  let world : World Unit := ⟨⟨context.getD .undefined, locals⟩, ()⟩
  match Run.start (expression.eval Host.none) world with
  | (.ok result, after) => return ⟨result, after.scope.context⟩
  | (.error fault, _) => .error (.eval fault)

structure CheckReport where
  literal : Bool
  constant : Bool
  assignable : Bool
deriving DecidableEq

def check (filters : Registry) (source : String) : Except CommandError CheckReport := do
  let expression ← (Expression.ofSource filters source).mapError .compile
  return ⟨expression.literal, expression.constant, expression.isAssignable⟩

def tokens (source : String) : Except CommandError (List Token) :=
  (tokenize source).mapError fun fault => .compile (.lex fault)

/-! ## What they print -/

structure Outcome where
  code : Nat
  stdout : String
  stderr : String
deriving DecidableEq

inductive Request where
  | eval (options : EvalOptions) (pretty showContext : Bool)
  | check (expression : String)
  | tokens (expression : String)

def shown (pretty : Bool) : Value → String
  | .undefined => "undefined"
  | value => value.toJson (if pretty then .pretty else .compact)

def padLeft (width : Nat) (text : String) : String :=
  String.ofList (List.replicate (width - text.length) ' ') ++ text

def padRight (width : Nat) (text : String) : String :=
  text ++ String.ofList (List.replicate (width - text.length) ' ')

def tokenLine (token : Token) : String :=
  padLeft 4 (toString token.position) ++ "  " ++ padRight 10 token.kind.name ++ "  " ++ token.text

def flagLine (name : String) (flag : Bool) : String :=
  name ++ ": " ++ if flag then "true" else "false"

/-- The lines that a request prints. Without a context the standard input is one, unless it is
blank. -/
def lines (stdin : String) : Request → Except CommandError (List String)
  | .eval options pretty showContext => do
    let given := if Text.trimBlanks stdin.toList = [] then none else some stdin
    let found ← evaluate Registry.builtins { options with context := options.context.or given }
    let result := shown pretty found.result
    return if showContext then [result, shown pretty found.context] else [result]
  | .check expression => do
    let report ← check Registry.builtins expression
    return ["Syntax is valid", flagLine "literal" report.literal,
      flagLine "constant" report.constant, flagLine "assignable" report.assignable]
  | .tokens expression => return (← tokens expression).map tokenLine

/-- Runs a request. Errors go to the second text, with exit code one. -/
def run (request : Request) (stdin : String) : Outcome :=
  match lines stdin request with
  | .ok lines => ⟨0, String.join (lines.map (· ++ "\n")), ""⟩
  | .error fault => ⟨1, "", fault.message ++ "\n"⟩

end Command

end TemplateExpr

import TemplateExpr.Program.Code
import TemplateExpr.Token.Cursor
import TemplateExpr.Tree.Grammar

/-!
# From trees to code

Checking a tree against a registry of filters. A tree is refused when it uses a name that the guard
blocks, a filter that is not registered, an assignment to what is no place, or a shape that no
source has. The first fault in the order of checking is reported: the arguments of a call are
checked before its callee, the name of a filter before its arguments, and a place before the value
assigned to it.
-/

namespace TemplateExpr

/-- Why a tree has a shape that code cannot be made for. No tree that was read from a source has. -/
inductive ShapeFault where
  | rootNotProgram
  | nestedProgram
  | memberKeyNotIdentifier
  | filterNameNotIdentifier
deriving DecidableEq

def ShapeFault.message : ShapeFault → String
  | .rootNotProgram => "root node must be a program"
  | .nestedProgram => "nested program"
  | .memberKeyNotIdentifier => "non-computed member key must be an identifier"
  | .filterNameNotIdentifier => "filter name must be an identifier"

inductive CompileError where
  | lex (fault : LexError)
  | parse (fault : ParseError)
  | security (violation : SecurityError)
  | unknownFilter (name : String)
  | generation (fault : ShapeFault)
deriving DecidableEq

def CompileError.message : CompileError → String
  | .lex fault => "Lex error: " ++ fault.message
  | .parse fault => "Parse error: " ++ fault.message
  | .security violation => "Security error: " ++ violation.message
  | .unknownFilter name => "Unknown filter: " ++ name
  | .generation fault => "Cannot generate code: " ++ fault.message

def allowedName (name : String) : Except CompileError String :=
  match Guard.checkName name with
  | .ok () => .ok name
  | .error violation => .error (.security violation)

def Registry.lookup (registry : Registry) (name : String) : Except CompileError Filter :=
  match registry.find? name with
  | some filter => .ok filter
  | none => .error (.unknownFilter name)

def Node.filterName : Node → Except CompileError String
  | .identifier _ name => .ok name
  | _ => .error (.generation .filterNameNotIdentifier)

def Node.fixedKey : Node → Except CompileError Key
  | .identifier _ name => return .fixed (← allowedName name)
  | _ => .error (.generation .memberKeyNotIdentifier)

mutual
def Node.compile (registry : Registry) : Node → Except CompileError Code
  | .program _ _ => .error (.generation .nestedProgram)
  | .literal _ value => return .literal value
  | .array _ elements => return .array (← Node.compileAll registry elements)
  | .object _ properties => return .record (← Node.compileEntries registry properties)
  | .identifier _ name => return .name (← allowedName name)
  | .this _ => return .this
  | .member _ target key computed => do
    let target ← target.compile registry
    let key ← if computed then .computed <$> key.compile registry else key.fixedKey
    return .member target key
  | .call _ callee arguments true => do
    let filter ← callee.filterName >>= registry.lookup
    let arguments ← Node.compileAll registry arguments
    return .filter filter arguments
  | .call _ callee arguments false => do
    let arguments ← Node.compileAll registry arguments
    match callee with
    | .member _ target key computed =>
      let target ← target.compile registry
      let key ← if computed then .computed <$> key.compile registry else key.fixedKey
      return .callMember target key arguments
    | .identifier _ name => return .callName (← allowedName name) arguments
    | other => return .callValue (← other.compile registry) arguments
  | .assignment _ left right => do
    let place ← left.compilePlace registry
    let value ← right.compile registry
    return .assign place.root place.path value
  | .unary _ op argument => return .unary op (← argument.compile registry)
  | .binary _ op left right => do
    let left ← left.compile registry
    let right ← right.compile registry
    return .binary op left right
  | .logical _ op left right => do
    let left ← left.compile registry
    let right ← right.compile registry
    return .logical op left right
  | .conditional _ test consequent alternate => do
    let test ← test.compile registry
    let consequent ← consequent.compile registry
    let alternate ← alternate.compile registry
    return .conditional test consequent alternate

def Node.compileAll (registry : Registry) : List Node → Except CompileError (List Code)
  | [] => return []
  | node :: nodes => do
    let code ← node.compile registry
    let codes ← Node.compileAll registry nodes
    return code :: codes

def Node.compileEntries (registry : Registry) :
    List (PropertyKey × Node) → Except CompileError (List (String × Code))
  | [] => return []
  | (key, node) :: entries => do
    let code ← node.compile registry
    let codes ← Node.compileEntries registry entries
    return (key.name, code) :: codes

/-- The place that a tree names. Only names and members are places. -/
def Node.compilePlace (registry : Registry) : Node → Except CompileError Place
  | .identifier _ name => return ⟨.name (← allowedName name), []⟩
  | .member _ target key computed => do
    let place ← match target with
      | .identifier .. | .member .. => target.compilePlace registry
      | .this _ => pure ⟨.this, []⟩
      | _ => (⟨.temporary ·, []⟩) <$> target.compile registry
    let key ← if computed then .computed <$> key.compile registry else key.fixedKey
    return { place with path := place.path ++ [key] }
  | _ => .error (.parse .invalidAssignmentTarget)
end

end TemplateExpr

import TemplateExpr.Proofs.Program.Access
import TemplateExpr.Proofs.Program.Inversion
import TemplateExpr.Proofs.Tree.Calls

/-!
# Interpreting trees

Evaluation without compilation. `Node.interpret` runs a tree as it stands, and leaves open what is
done at its calls, for each call by its address. With calls made as the host makes them
(`Calls.standard`) it does for every tree that compiles what the code of the tree does
(`Node.interpret_compile`, `Expression.eval_interpret`). So what is to be shown of evaluation with
regard to the tree can be shown of the interpreter.
-/

namespace TemplateExpr

/-- What is done at the calls of a tree. -/
structure Calls (σ : Type) where
  /-- Calls a value that the guard has seen. -/
  call : Address → (callee receiver : Value) → (arguments : List Value) → Run σ Value
  /-- Applies a filter. -/
  filter : Address → Filter → (arguments : List Value) → Run σ Value

def Calls.standard {σ : Type} (host : Host σ) : Calls σ where
  call _ := host.invoke
  filter _ filter arguments := Run.ofHost (filter.apply host arguments)

def Target.push (name : String) : Target → Target
  | .name key path => .name key (path ++ [name])
  | .this path => .this (path ++ [name])
  | .temporary value path => .temporary value (path ++ [name])

section

variable {σ : Type}

/-- The name that the key of a member stands for. Only a computed key is evaluated. -/
def Node.memberName (computed : Bool) (key : Node) (value : Run σ Value) : Run σ String := do
  if computed then
    let name := (← value).display
    Run.guarded (Guard.checkName name)
    return name
  else match key with
    | .identifier _ name => return name
    -- No other key compiles.
    | _ => return ""

/-- A member that is about to be called, and what it is called on. Where there is no object, there
is no member, and its key is not evaluated. -/
def Run.memberCallee (object : Run σ Value) (key : Run σ String) : Run σ (Value × Receiver) := do
  let object ← object
  if object.isNullish then return (.undefined, .none)
  Run.guarded (Guard.checkObject object)
  return (object.getMember (← key), .object object)

/-- Where the path of a place starts that leads on from a node: with the node, if it is a place
itself, and else with its value. -/
def Node.placeStart (target : Node) (place : Run σ Target) (value : Run σ Value) :
    Run σ Target := do
  match target with
  | .identifier .. | .member .. => place
  | .this _ => return .this []
  | _ => return .temporary (← Run.safe (← value)) []

variable (registry : Registry) (calls : Calls σ)

mutual
/-- Interprets a tree that stands `here`. -/
def Node.interpret (here : Address) : Node → Run σ Value
  | .program _ body => Node.interpretStatements here 0 .undefined body
  | .literal _ value => return value.value
  | .array _ elements => return .array (← Node.interpretAll here 0 elements)
  | .object _ properties => return .record (← Node.interpretEntries here 0 [] properties)
  | .identifier _ name => do Run.safe ((← Run.scope).lookup name)
  | .this _ => return (← Run.scope).context
  | .member _ target key computed => do
    let container ← target.interpret (0 :: here)
    if container.isNullish then return .undefined
    Run.guarded (Guard.checkObject container)
    Run.safe (container.getMember
      (← Node.memberName computed key (key.interpret (1 :: here))))
  | .call _ callee arguments true => do
    let given ← Node.interpretAll here 1 arguments
    match callee.filterName >>= registry.lookup with
    | .ok filter => Run.safe (← calls.filter here filter given)
    -- Such a call does not compile.
    | .error fault => throw (.filter fault.message)
  | .call _ callee arguments false => do
    let (function, receiver) ← match callee with
      | .member _ target key computed =>
        Run.memberCallee (target.interpret (0 :: 0 :: here))
          (Node.memberName computed key (key.interpret (1 :: 0 :: here)))
      | .identifier _ name => pure ((← Run.scope).lookup name, .owner name)
      | other => (·, .none) <$> other.interpret (0 :: here)
    if function.isNullish then return .undefined
    Run.guarded (Guard.checkCallee function)
    let given ← Node.interpretArguments here 1 arguments
    calls.call here function (receiver.value (← Run.scope)) given
  | .assignment _ left right => do
    let target ← left.interpretTarget (0 :: here)
    let value ← Run.safe (← right.interpret (1 :: here))
    Run.write target value
    return value
  | .unary _ op argument => return (← argument.interpret (0 :: here)).applyUnary op
  | .binary _ op left right => do
    let left ← left.interpret (0 :: here)
    let right ← right.interpret (1 :: here)
    return Value.applyBinary op left right
  | .logical _ op left right => do
    let value ← left.interpret (0 :: here)
    if op.settledBy value then return value else right.interpret (1 :: here)
  | .conditional _ test consequent alternate => do
    if (← test.interpret (0 :: here)).isTruthy then consequent.interpret (1 :: here)
    else alternate.interpret (2 :: here)

def Node.interpretAll (here : Address) (first : Nat) : List Node → Run σ (List Value)
  | [] => return []
  | node :: nodes => do
    let value ← node.interpret (first :: here)
    let values ← Node.interpretAll here (first + 1) nodes
    return value :: values

def Node.interpretArguments (here : Address) (first : Nat) : List Node → Run σ (List Value)
  | [] => return []
  | node :: nodes => do
    let value ← Run.safe (← node.interpret (first :: here))
    let values ← Node.interpretArguments here (first + 1) nodes
    return value :: values

def Node.interpretEntries (here : Address) (first : Nat) (before : List (String × Value)) :
    List (PropertyKey × Node) → Run σ (List (String × Value))
  | [] => return before
  | (key, node) :: entries => do
    let value ← node.interpret (first :: here)
    Node.interpretEntries here (first + 1) (Entries.insert key.name value before) entries

def Node.interpretStatements (here : Address) (first : Nat) (last : Value) :
    List Node → Run σ Value
  | [] => return last
  | node :: nodes => do
    Node.interpretStatements here (first + 1) (← node.interpret (first :: here)) nodes

def Node.interpretTarget (here : Address) : Node → Run σ Target
  | .identifier _ name => return .name name []
  | .member _ target key computed => do
    let before ← target.placeStart (target.interpretTarget (0 :: here))
      (target.interpret (0 :: here))
    return before.push (← Node.memberName computed key (key.interpret (1 :: here)))
  -- Nothing else is a place, and no assignment to it compiles.
  | _ => throw (.notAssignable "")
end

end

def Node.interpretCallee {σ : Type} (registry : Registry) (calls : Calls σ) (here : Address) :
    Node → Run σ (Value × Receiver)
  | .member _ target key computed =>
    Run.memberCallee (target.interpret registry calls (0 :: here))
      (Node.memberName computed key (key.interpret registry calls (1 :: here)))
  | .identifier _ name => return ((← Run.scope).lookup name, .owner name)
  | other => (·, .none) <$> other.interpret registry calls here

theorem Node.interpret_call {σ : Type} (registry : Registry) (calls : Calls σ) (here : Address)
    (flag : Bool) (callee : Node) (arguments : List Node) :
    (Node.call flag callee arguments false).interpret registry calls here = (do
      let (function, receiver) ← callee.interpretCallee registry calls (0 :: here)
      if function.isNullish then return .undefined
      Run.guarded (Guard.checkCallee function)
      let given ← Node.interpretArguments registry calls here 1 arguments
      calls.call here function (receiver.value (← Run.scope)) given) := by
  cases callee <;> rfl

/-! ## Interpretation and compilation -/

section

variable {σ : Type} (host : Host σ) {registry : Registry}

theorem Node.memberName_key {node : Node} {computed : Bool} {key : Key} {value : Run σ Value}
    (h : node.KeyCompiles registry computed key)
    (hvalue : ∀ code, node.compile registry = .ok code → value = code.eval host) :
    Node.memberName computed node value = key.eval host := by
  cases h with
  | fixed flag name => rfl
  | computed _ code hcode =>
    rw [hvalue code hcode]
    rfl

theorem Key.evalAll_push (keys : List Key) (key : Key) :
    Key.evalAll host (keys ++ [key]) = do
      let names ← Key.evalAll host keys
      return names ++ [← key.eval host] := by
  induction keys with
  | nil => simp [Key.evalAll]
  | cons first keys ih => simp [Key.evalAll, ih]

theorem Place.target_push (before : Place) (key : Key) :
    ({ before with path := before.path ++ [key] } : Place).target host = do
      let target ← before.target host
      return target.push (← key.eval host) := by
  obtain ⟨root, path⟩ := before
  cases root <;> simp [Place.target, Root.eval, Key.evalAll_push, Target.push]

mutual
/-- **Interpreting a tree that compiles is evaluating its code.** -/
theorem Node.interpret_compile : (node : Node) → ∀ (here : Address) (code : Code),
    node.compile registry = .ok code →
      node.interpret registry (.standard host) here = code.eval host
  | .program _ _, _, _, h => by cases h
  | .literal _ value, here, code, h => by
    cases h
    rfl
  | .array _ elements, here, code, h => by
    obtain ⟨codes, helements, hcode⟩ := bind_ok h
    cases hcode
    rw [Node.interpret, Code.eval, Node.interpretAll_compile elements here 0 codes helements]
  | .object _ properties, here, code, h => by
    obtain ⟨codes, hproperties, hcode⟩ := bind_ok h
    cases hcode
    rw [Node.interpret, Code.eval,
      Node.interpretEntries_compile properties here 0 [] codes hproperties]
  | .identifier _ name, here, code, h => by
    obtain ⟨given, hname, hcode⟩ := bind_ok h
    obtain ⟨rfl, -⟩ := allowedName_ok hname
    cases hcode
    rfl
  | .this _, here, code, h => by
    cases h
    rfl
  | .member _ target key computed, here, code, h => by
    obtain ⟨target', key', htarget, hkey, rfl⟩ := Node.member_ok h
    rw [Node.interpret, Code.eval, Node.interpret_compile target _ target' htarget,
      Node.memberName_key host hkey (Node.interpret_compile key _)]
  | .call _ callee arguments true, here, code, h => by
    obtain ⟨filter, hfilter, h⟩ := bind_ok h
    obtain ⟨codes, harguments, hcode⟩ := bind_ok h
    cases hcode
    rw [Node.interpret, Code.eval, Node.interpretAll_compile arguments here 1 codes harguments,
      hfilter]
    rfl
  | .call _ callee arguments false, here, code, h => by
    obtain ⟨codes, harguments, hcall⟩ := Node.call_ok h
    have hgiven := Node.interpretArguments_compile arguments here 1 codes harguments
    cases hcall with
    | member _ target key computed target' key' htarget hkey =>
      have hobject := Node.interpret_compile target (0 :: 0 :: here) target' htarget
      have hname := Node.memberName_key host hkey (Node.interpret_compile key (1 :: 0 :: here))
      rw [Node.interpret, Code.eval]
      simp only [hobject, hname, hgiven, Run.memberCallee, bind_assoc]
      refine bind_congr fun receiver => ?_
      by_cases hnullish : receiver.isNullish
      · simp only [if_pos hnullish, pure_bind]
        rfl
      · simp only [if_neg hnullish, bind_assoc, pure_bind]
        rfl
    | name _ name =>
      rw [Node.interpret, Code.eval]
      simp only [hgiven, pure_bind]
      rfl
    | value _ callee' hmember hname hcallee =>
      have hvalue := Node.interpret_compile callee (0 :: here) callee' hcallee
      rw [Code.eval, Node.interpret]
      · simp only [hgiven, hvalue, map_eq_pure_bind, bind_assoc, pure_bind]
        rfl
      all_goals assumption
  | .assignment _ left right, here, code, h => by
    obtain ⟨place, value, hplace, hvalue, rfl⟩ := Node.assignment_ok h
    rw [Node.interpret, Code.eval, Node.interpretTarget_compile left _ place hplace,
      Node.interpret_compile right _ value hvalue]
    rfl
  | .unary _ op argument, here, code, h => by
    obtain ⟨operand, hoperand, hcode⟩ := bind_ok h
    cases hcode
    rw [Node.interpret, Code.eval, Node.interpret_compile argument _ operand hoperand]
  | .binary _ op left right, here, code, h => by
    obtain ⟨left', hleft, h⟩ := bind_ok h
    obtain ⟨right', hright, hcode⟩ := bind_ok h
    cases hcode
    rw [Node.interpret, Code.eval, Node.interpret_compile left _ left' hleft,
      Node.interpret_compile right _ right' hright]
  | .logical _ op left right, here, code, h => by
    obtain ⟨left', hleft, h⟩ := bind_ok h
    obtain ⟨right', hright, hcode⟩ := bind_ok h
    cases hcode
    rw [Node.interpret, Code.eval, Node.interpret_compile left _ left' hleft,
      Node.interpret_compile right _ right' hright]
  | .conditional _ test consequent alternate, here, code, h => by
    obtain ⟨test', htest, h⟩ := bind_ok h
    obtain ⟨consequent', hconsequent, h⟩ := bind_ok h
    obtain ⟨alternate', halternate, hcode⟩ := bind_ok h
    cases hcode
    rw [Node.interpret, Code.eval, Node.interpret_compile test _ test' htest,
      Node.interpret_compile consequent _ consequent' hconsequent,
      Node.interpret_compile alternate _ alternate' halternate]

theorem Node.interpretAll_compile : (nodes : List Node) → ∀ (here : Address) (first : Nat)
    (codes : List Code), Node.compileAll registry nodes = .ok codes →
      Node.interpretAll registry (.standard host) here first nodes = Code.evalAll host codes
  | [], here, first, codes, h => by
    cases h
    rfl
  | node :: nodes, here, first, codes, h => by
    obtain ⟨code, hnode, h⟩ := bind_ok h
    obtain ⟨rest, hnodes, hcodes⟩ := bind_ok h
    cases hcodes
    rw [Node.interpretAll, Code.evalAll, Node.interpret_compile node _ code hnode,
      Node.interpretAll_compile nodes here _ rest hnodes]

theorem Node.interpretArguments_compile : (nodes : List Node) → ∀ (here : Address) (first : Nat)
    (codes : List Code), Node.compileAll registry nodes = .ok codes →
      Node.interpretArguments registry (.standard host) here first nodes =
        Code.evalArguments host codes
  | [], here, first, codes, h => by
    cases h
    rfl
  | node :: nodes, here, first, codes, h => by
    obtain ⟨code, hnode, h⟩ := bind_ok h
    obtain ⟨rest, hnodes, hcodes⟩ := bind_ok h
    cases hcodes
    rw [Node.interpretArguments, Code.evalArguments, Node.interpret_compile node _ code hnode,
      Node.interpretArguments_compile nodes here _ rest hnodes]

theorem Node.interpretEntries_compile : (entries : List (PropertyKey × Node)) →
    ∀ (here : Address) (first : Nat) (before : List (String × Value))
    (codes : List (String × Code)), Node.compileEntries registry entries = .ok codes →
      Node.interpretEntries registry (.standard host) here first before entries =
        Code.evalEntries host before codes
  | [], here, first, before, codes, h => by
    cases h
    rfl
  | (key, node) :: entries, here, first, before, codes, h => by
    obtain ⟨code, hnode, h⟩ := bind_ok h
    obtain ⟨rest, hentries, hcodes⟩ := bind_ok h
    cases hcodes
    rw [Node.interpretEntries, Code.evalEntries, Node.interpret_compile node _ code hnode]
    simp only [Node.interpretEntries_compile entries here _ _ rest hentries]

theorem Node.interpretTarget_compile : (node : Node) → ∀ (here : Address) (place : Place),
    node.compilePlace registry = .ok place →
      node.interpretTarget registry (.standard host) here = place.target host
  | .identifier _ name, here, place, h => by
    rw [Node.identifierPlace_ok h]
    rfl
  | .member _ target key computed, here, place, h => by
    obtain ⟨before, key', hstart, hkey, rfl⟩ := Node.memberPlace_ok h
    have hbefore : target.placeStart
        (target.interpretTarget registry (.standard host) (0 :: here))
        (target.interpret registry (.standard host) (0 :: here)) = before.target host := by
      cases hstart with
      | name _ _ _ hplace | member _ _ _ _ _ hplace =>
        exact Node.interpretTarget_compile _ (0 :: here) before hplace
      | this flag => rfl
      | temporary _ code hname hmember hthis hcode =>
        rw [Node.placeStart, Node.interpret_compile target _ code hcode]
        · rfl
        all_goals assumption
    rw [Node.interpretTarget, hbefore,
      Node.memberName_key host hkey (Node.interpret_compile key _), Place.target_push]
  | .program .., _, _, h | .literal .., _, _, h | .array .., _, _, h | .object .., _, _, h
  | .this .., _, _, h | .call .., _, _, h | .assignment .., _, _, h | .unary .., _, _, h
  | .binary .., _, _, h | .logical .., _, _, h | .conditional .., _, _, h => by cases h
end

theorem Node.interpretStatements_compile (nodes : List Node) (here : Address) (first : Nat)
    (last : Value) (codes : List Code) (h : Node.compileAll registry nodes = .ok codes) :
    Node.interpretStatements registry (.standard host) here first last nodes =
      Code.evalStatements host last codes := by
  induction nodes generalizing first last codes with
  | nil =>
    cases h
    rfl
  | cons node nodes ih =>
    obtain ⟨code, hnode, h⟩ := bind_ok h
    obtain ⟨rest, hnodes, hcodes⟩ := bind_ok h
    cases hcodes
    rw [Node.interpretStatements, Code.evalStatements,
      Node.interpret_compile host node _ code hnode]
    simp only [ih _ _ rest hnodes]

theorem Expression.eval_interpret {source : String} {tree : Node} {expression : Expression}
    (h : ofTree registry source tree = .ok expression) :
    expression.eval host = tree.interpret registry (.standard host) [] := by
  cases tree with
  | program flag body =>
    obtain ⟨codes, hbody, h⟩ := bind_ok h
    obtain ⟨place, -, hexpression⟩ := bind_ok h
    cases hexpression
    rw [Node.interpret, Node.interpretStatements_compile host body [] 0 .undefined codes hbody]
    rfl
  | _ => cases h

end

end TemplateExpr

import Mathlib
import TemplateExpr.Proofs.Engine.Refusal
import TemplateExpr.Proofs.Program.Constancy

/-!
# What the flag of a constant expression says

The flag of a node says exactly that nothing is looked up where its tree is evaluated: no name, no
`this` and no call of a function (`Node.constant_analyze`). It is set at every address of a tree,
also below a node that is not constant, and nothing but flags is changed (`Node.unmarked_analyze`).

Whether a filter keeps state is not seen on the tree but in the code. The code is stateful exactly
if an evaluated part of its tree applies a stateful filter (`Node.compile_stateful`), and in a tree
that was read no filter stands where nothing is evaluated (`Node.everywhere_of_parts`). So the flag
of an expression says that its tree is free of look-ups and of stateful filters
(`Expression.constant_iff`).
-/

namespace TemplateExpr

namespace Node

/-! ## Look-ups -/

/-- Whether a node by itself depends on the context: a name, `this` or the call of a function. -/
def isLookup : Node → Bool
  | .identifier .. | .this _ | .call _ _ _ false => true
  | _ => false

/-- That nothing is looked up where a tree is evaluated. What stands as the name of a member or of a
filter is no part of the tree and does not count. -/
def LookupFree (tree : Node) : Prop := ∀ part ∈ tree.parts, part.isLookup = false

theorem lookupFree_iff {tree : Node} :
    tree.LookupFree ↔ tree.isLookup = false ∧ ∀ child ∈ tree.operands, child.LookupFree := by
  unfold LookupFree
  rw [parts_eq, List.forall_mem_cons]
  refine and_congr_right fun _ => ⟨fun h child hchild part hpart => ?_, fun h part hpart => ?_⟩
  · exact h part (List.mem_flatMap.mpr ⟨child, hchild, hpart⟩)
  · obtain ⟨child, hchild, hpart⟩ := List.mem_flatMap.mp hpart
    exact h child hchild part hpart

theorem all_analyzeEntries (entries : List (PropertyKey × Node)) :
    (analyzeEntries entries).all (·.2.constant) =
      (entries.map Prod.snd).all fun node => node.analyze.constant := by
  have hmap := congrArg (List.all · constant) (map_analyzeEntries entries)
  simpa [List.all_map, Function.comp_def] using hmap

/-- A flag is set from the flags of what is evaluated right below. -/
theorem constant_analyze_step (node : Node) : node.analyze.constant = true ↔
    node.isLookup = false ∧ ∀ child ∈ node.operands, child.analyze.constant = true := by
  cases node with
  | member flag target key computed =>
    cases computed <;> simp [analyze, constant, isLookup, operands]
  | call flag callee arguments filter =>
    cases filter <;> simp [analyze, constant, isLookup, operands, analyzeAll_eq]
  | object flag properties =>
    show (analyzeEntries properties).all (·.2.constant) = true ↔ _
    rw [all_analyzeEntries, List.all_eq_true]
    exact (and_iff_right rfl).symm
  | _ => simp [analyze, constant, isLookup, operands, children, analyzeAll_eq, and_assoc]

/-- **A node is constant exactly if nothing is looked up in it.** -/
theorem constant_analyze (tree : Node) : tree.analyze.constant = true ↔ tree.LookupFree := by
  induction tree using induction with
  | step tree ih =>
    rw [constant_analyze_step, lookupFree_iff]
    refine and_congr_right fun _ => forall₂_congr fun child hchild => ?_
    exact ih child (operands_subset_children tree hchild)

/-! ## All but the flags -/

mutual
def unmarked : Node → Node
  | .program _ body => .program false (unmarkedAll body)
  | .literal _ value => .literal false value
  | .array _ elements => .array false (unmarkedAll elements)
  | .object _ properties => .object false (unmarkedEntries properties)
  | .identifier _ name => .identifier false name
  | .this _ => .this false
  | .member _ target key computed => .member false target.unmarked key.unmarked computed
  | .call _ callee arguments filter => .call false callee.unmarked (unmarkedAll arguments) filter
  | .assignment _ left right => .assignment false left.unmarked right.unmarked
  | .unary _ op argument => .unary false op argument.unmarked
  | .binary _ op left right => .binary false op left.unmarked right.unmarked
  | .logical _ op left right => .logical false op left.unmarked right.unmarked
  | .conditional _ test consequent alternate =>
    .conditional false test.unmarked consequent.unmarked alternate.unmarked

def unmarkedAll : List Node → List Node
  | [] => []
  | node :: nodes => node.unmarked :: unmarkedAll nodes

def unmarkedEntries : List (PropertyKey × Node) → List (PropertyKey × Node)
  | [] => []
  | (key, node) :: entries => (key, node.unmarked) :: unmarkedEntries entries
end

mutual
/-- **Setting the flags changes nothing else.** -/
theorem unmarked_analyze : ∀ tree : Node, tree.analyze.unmarked = tree.unmarked
  | .program _ body => by rw [analyze, unmarked, unmarked, unmarkedAll_analyzeAll body]
  | .literal .. | .identifier .. | .this _ => rfl
  | .array _ elements => by rw [analyze, unmarked, unmarked, unmarkedAll_analyzeAll elements]
  | .object _ properties => by
    rw [analyze, unmarked, unmarked, unmarkedEntries_analyzeEntries properties]
  | .member _ target key _ => by
    rw [analyze, unmarked, unmarked, unmarked_analyze target, unmarked_analyze key]
  | .call _ callee arguments _ => by
    rw [analyze, unmarked, unmarked, unmarked_analyze callee, unmarkedAll_analyzeAll arguments]
  | .assignment _ left right | .binary _ _ left right | .logical _ _ left right => by
    rw [analyze, unmarked, unmarked, unmarked_analyze left, unmarked_analyze right]
  | .unary _ _ argument => by rw [analyze, unmarked, unmarked, unmarked_analyze argument]
  | .conditional _ test consequent alternate => by
    rw [analyze, unmarked, unmarked, unmarked_analyze test, unmarked_analyze consequent,
      unmarked_analyze alternate]

theorem unmarkedAll_analyzeAll : ∀ nodes : List Node,
    unmarkedAll (analyzeAll nodes) = unmarkedAll nodes
  | [] => rfl
  | node :: nodes => by
    rw [analyzeAll, unmarkedAll, unmarkedAll, unmarked_analyze node, unmarkedAll_analyzeAll nodes]

theorem unmarkedEntries_analyzeEntries : ∀ entries : List (PropertyKey × Node),
    unmarkedEntries (analyzeEntries entries) = unmarkedEntries entries
  | [] => rfl
  | (key, node) :: entries => by
    rw [analyzeEntries, unmarkedEntries, unmarkedEntries, unmarked_analyze node,
      unmarkedEntries_analyzeEntries entries]
end

/-! ## Stateful filters -/

def appliesStateful (registry : Registry) : Node → Bool
  | .call _ (.identifier _ name) _ true => (registry.find? name).any Filter.stateful
  | _ => false

section

variable {registry : Registry}

theorem key_stateful {key : Node} {computed : Bool} {key' : Key}
    (hkey : ∀ code, key.compile registry = .ok code →
      code.isStateful = key.parts.any (appliesStateful registry))
    (h : key.KeyCompiles registry computed key') :
    key'.isStateful = (if computed then key.parts else []).any (appliesStateful registry) := by
  cases h with
  | fixed => rfl
  | computed _ code hcode => exact hkey code hcode

/-- The callee of a call of a member compiles by itself, to the same member. -/
theorem callMember_ok {flag flag' computed : Bool} {target key : Node} {arguments : List Node}
    {target' : Code} {key' : Key} {given : List Code}
    (h : (call flag (.member flag' target key computed) arguments false).compile registry =
      .ok (.callMember target' key' given)) :
    (Node.member flag' target key computed).compile registry = .ok (.member target' key') := by
  rw [compile] at h
  obtain ⟨_, -, h⟩ := bind_ok h
  obtain ⟨_, htarget, h⟩ := bind_ok h
  rw [compile, htarget]
  cases computed with
  | false | true =>
    obtain ⟨_, hkey, hcode⟩ := bind_ok h
    cases hcode
    exact congrArg (· >>= fun key => pure (Code.member target' key)) hkey

mutual
/-- **Code keeps state exactly if a part of its tree applies a stateful filter.** -/
theorem compile_stateful : (node : Node) → ∀ code : Code, node.compile registry = .ok code →
    code.isStateful = node.parts.any (appliesStateful registry)
  | .program _ _, _, h => by cases h
  | .literal _ _, _, h | .this _, _, h => by
    cases h
    rfl
  | .identifier _ name, _, h => by
    obtain ⟨given, -, hcode⟩ := bind_ok h
    cases hcode
    rfl
  | .array _ elements, _, h => by
    obtain ⟨codes, helements, hcode⟩ := bind_ok h
    cases hcode
    simp [Code.isStateful, parts, appliesStateful, compileAll_stateful elements codes helements]
  | .object _ properties, _, h => by
    obtain ⟨codes, hproperties, hcode⟩ := bind_ok h
    cases hcode
    simp [Code.isStateful, parts, appliesStateful,
      compileEntries_stateful properties codes hproperties]
  | .member _ target key computed, _, h => by
    obtain ⟨target', key', htarget, hkey, rfl⟩ := member_ok h
    simp [Code.isStateful, parts, appliesStateful, compile_stateful target target' htarget,
      key_stateful (compile_stateful key) hkey]
  | .call _ callee arguments true, _, h => by
    rw [compile] at h
    obtain ⟨filter, hfilter, h⟩ := bind_ok h
    obtain ⟨codes, harguments, hcode⟩ := bind_ok h
    cases hcode
    obtain ⟨_, name, rfl, hfind⟩ := filter_ok hfilter
    simp [Code.isStateful, parts, appliesStateful, hfind,
      compileAll_stateful arguments codes harguments]
  | .call flag callee arguments false, _, h => by
    obtain ⟨given, harguments, hcompiles⟩ := call_ok h
    have hgiven := compileAll_stateful arguments given harguments
    have hcallees := compile_stateful callee
    have hparts : (Node.call flag callee arguments false).parts.any (appliesStateful registry) =
        (callee.parts.any (appliesStateful registry) || Code.anyStateful given) := by
      simp [parts, appliesStateful, hgiven]
    rw [hparts]
    cases hcompiles with
    | member => rw [← hcallees _ (callMember_ok h), Code.isStateful, Code.isStateful]
    | name => rfl
    | value callee callee' hmember hname hcallee => rw [← hcallees callee' hcallee, Code.isStateful]
  | .assignment _ left right, _, h => by
    obtain ⟨place, value, hplace, hvalue, rfl⟩ := assignment_ok h
    simp [Code.isStateful, parts, appliesStateful, compilePlace_stateful left place hplace,
      compile_stateful right value hvalue]
  | .unary _ op argument, _, h => by
    obtain ⟨operand, hoperand, hcode⟩ := bind_ok h
    cases hcode
    simp [Code.isStateful, parts, appliesStateful, compile_stateful argument operand hoperand]
  | .binary _ _ left right, _, h | .logical _ _ left right, _, h => by
    obtain ⟨left', hleft, h⟩ := bind_ok h
    obtain ⟨right', hright, hcode⟩ := bind_ok h
    cases hcode
    simp [Code.isStateful, parts, appliesStateful, compile_stateful left left' hleft,
      compile_stateful right right' hright]
  | .conditional _ test consequent alternate, _, h => by
    obtain ⟨test', htest, h⟩ := bind_ok h
    obtain ⟨consequent', hconsequent, h⟩ := bind_ok h
    obtain ⟨alternate', halternate, hcode⟩ := bind_ok h
    cases hcode
    simp [Code.isStateful, parts, appliesStateful, compile_stateful test test' htest,
      compile_stateful consequent consequent' hconsequent,
      compile_stateful alternate alternate' halternate, Bool.or_assoc]

theorem compileAll_stateful : (nodes : List Node) → ∀ codes : List Code,
    compileAll registry nodes = .ok codes →
    Code.anyStateful codes = (partsAll nodes).any (appliesStateful registry)
  | [], _, h => by
    cases h
    rfl
  | node :: nodes, _, h => by
    obtain ⟨code, hnode, h⟩ := bind_ok h
    obtain ⟨rest, hnodes, hcodes⟩ := bind_ok h
    cases hcodes
    rw [Code.anyStateful, partsAll, List.any_append, compile_stateful node code hnode,
      compileAll_stateful nodes rest hnodes]

theorem compileEntries_stateful : (entries : List (PropertyKey × Node)) →
    ∀ codes : List (String × Code), compileEntries registry entries = .ok codes →
    Code.anyEntryStateful codes = (partsEntries entries).any (appliesStateful registry)
  | [], _, h => by
    cases h
    rfl
  | (key, node) :: entries, _, h => by
    obtain ⟨code, hnode, h⟩ := bind_ok h
    obtain ⟨rest, hentries, hcodes⟩ := bind_ok h
    cases hcodes
    rw [Code.anyEntryStateful, partsEntries, List.any_append, compile_stateful node code hnode,
      compileEntries_stateful entries rest hentries]

theorem compilePlace_stateful : (node : Node) → ∀ place : Place,
    node.compilePlace registry = .ok place →
    (place.root.isStateful || Key.anyStateful place.path) =
      node.parts.any (appliesStateful registry)
  | .identifier _ name, _, h => by
    rw [identifierPlace_ok h]
    rfl
  | .member _ target key computed, _, h => by
    obtain ⟨before, key', hstart, hkey, rfl⟩ := memberPlace_ok h
    have hbefore : (before.root.isStateful || Key.anyStateful before.path) =
        target.parts.any (appliesStateful registry) := by
      have hplaces := compilePlace_stateful target
      have hcodes := compile_stateful target
      cases hstart with
      | name _ _ _ hplace | member _ _ _ _ _ hplace => exact hplaces before hplace
      | this => rfl
      | temporary _ code _ _ _ hcode =>
        rw [← hcodes code hcode]
        exact Bool.or_false _
    simp [parts, appliesStateful, Key.anyStateful_append, Key.anyStateful, ← hbefore,
      key_stateful (compile_stateful key) hkey, Bool.or_assoc]
  | .program .., _, h | .literal .., _, h | .array .., _, h | .object .., _, h | .this .., _, h
  | .call .., _, h | .assignment .., _, h | .unary .., _, h | .binary .., _, h
  | .logical .., _, h | .conditional .., _, h => by cases h
end

end

/-! ## Trees that are read -/

/-- In a shaped tree only names stand where nothing is evaluated. So what holds of names and of the
parts holds everywhere. -/
theorem everywhere_of_parts {P : Node → Prop} (hname : ∀ flag name, P (.identifier flag name))
    {tree : Node} (hshaped : tree.Everywhere Shaped) (h : ∀ part ∈ tree.parts, P part) :
    tree.Everywhere P := by
  have hleaf : ∀ flag name, (identifier flag name).Everywhere P := fun flag name =>
    everywhere_iff.mpr ⟨hname flag name, List.forall_mem_nil _⟩
  induction tree using induction with
  | step tree ih =>
    obtain ⟨hself, hchildren⟩ := everywhere_iff.mp hshaped
    have hoperand : ∀ child ∈ tree.operands, child.Everywhere P := fun child hchild =>
      ih child (operands_subset_children tree hchild)
        (hchildren child (operands_subset_children tree hchild))
        fun part hpart => h part (mem_parts_of_operand hchild hpart)
    refine everywhere_iff.mpr ⟨h tree (mem_parts_self tree), ?_⟩
    cases tree with
    | member flag target key computed =>
      cases computed with
      | true => exact hoperand
      | false =>
        obtain ⟨flag, name, rfl⟩ := hself
        exact forall_pair (hoperand target List.mem_cons_self) (hleaf flag name)
    | call flag callee arguments filter =>
      cases filter with
      | false => exact hoperand
      | true =>
        obtain ⟨⟨flag, name, rfl⟩, -⟩ := hself
        exact List.forall_mem_cons.mpr ⟨hleaf flag name, hoperand⟩
    | _ => exact hoperand

theorem appliesStateful_analyze (registry : Registry) (node : Node) :
    node.analyze.appliesStateful registry = node.appliesStateful registry := by
  cases node with
  | call flag callee arguments filter =>
    cases filter <;> cases callee <;> rfl
  | _ => rfl

/-- That no filter call of a tree, wherever it stands, resolves to a filter that keeps state. -/
def StatelessFilters (registry : Registry) (tree : Node) : Prop :=
  ∀ address flag flag' name arguments filter,
    tree.at? address = some (.call flag (.identifier flag' name) arguments true) →
      registry.find? name = some filter → filter.stateful = false

/-- Filters are without state exactly if no node applies one that has some. -/
theorem everywhere_stateless {registry : Registry} {tree : Node} :
    (tree.Everywhere fun node => node.appliesStateful registry = false) ↔
      tree.StatelessFilters registry := by
  constructor
  · intro h address flag flag' name arguments filter hnode hfind
    have hcall := h address _ hnode
    simpa [appliesStateful, hfind] using hcall
  · intro h address node hnode
    unfold appliesStateful
    split
    · next flag flag' name arguments =>
      cases hfind : registry.find? name with
      | none => rfl
      | some filter => exact h address flag flag' name arguments filter hnode hfind
    · rfl

/-- In a shaped tree the parts tell which filters are applied anywhere, and so they do when the
flags are set. -/
theorem parts_stateless_iff {registry : Registry} {tree : Node} (h : tree.Everywhere Shaped) :
    (∀ part ∈ tree.analyze.parts, part.appliesStateful registry = false) ↔
      tree.Everywhere fun node => node.appliesStateful registry = false := by
  constructor
  · intro hparts address node hnode
    have hall := everywhere_of_parts (fun _ _ => rfl) (analyze_shaped h) hparts
    rw [← appliesStateful_analyze]
    refine hall address node.analyze ?_
    rw [at?_analyze, hnode]
    rfl
  · intro hall
    refine Everywhere.part (P := fun node => node.appliesStateful registry = false) ?_
    intro address marked hmarked
    rw [at?_analyze] at hmarked
    obtain ⟨node, hnode, rfl⟩ := Option.map_eq_some_iff.mp hmarked
    rw [appliesStateful_analyze]
    exact hall address node hnode

/-- A program that was read applies stateful filters where they are evaluated, or nowhere. -/
theorem statelessFilters_iff {registry : Registry} {body : List Node}
    (hbody : ∀ statement ∈ body, statement.AllReadBelow) :
    (program false body).StatelessFilters registry ↔
      (partsAll (analyzeAll body)).any (appliesStateful registry) = false := by
  have hshaped : ∀ statement ∈ body, statement.Everywhere Shaped := fun statement hmem =>
    fun address node hnode => (hbody statement hmem address node hnode).1
  have hself : (program false body).appliesStateful registry = false := rfl
  rw [← everywhere_stateless, everywhere_iff, and_iff_right hself, partsAll_eq, analyzeAll_eq,
    List.any_eq_false]
  constructor
  · intro h part hpart
    obtain ⟨analyzed, hanalyzed, hpart⟩ := List.mem_flatMap.mp hpart
    obtain ⟨statement, hmem, rfl⟩ := List.mem_map.mp hanalyzed
    have hnot := (parts_stateless_iff (hshaped statement hmem)).mpr (h statement hmem) part hpart
    simp [hnot]
  · intro h statement hmem
    refine (parts_stateless_iff (hshaped statement hmem)).mp fun part hpart => ?_
    have hnot := h part (List.mem_flatMap.mpr ⟨_, List.mem_map_of_mem hmem, hpart⟩)
    exact eq_false_of_ne_true hnot

end Node

/-! ## The flag of an expression -/

namespace Expression

/-- **The flag says exactly that nothing is looked up.** Whatever the flags of a tree were, setting
them gives every node the flag that says whether its tree is free of look-ups, and changes nothing
else. An expression is constant exactly if its tree is free of look-ups and no filter in it keeps
state. -/
theorem constant_flag_exact (registry : Registry) :
    (∀ tree : Node, tree.analyze.unmarked = tree.unmarked ∧
      ∀ address node, tree.at? address = some node →
        ∃ marked, tree.analyze.at? address = some marked ∧
          (marked.constant = true ↔ node.LookupFree)) ∧
    ∀ source expression, ofSource registry source = .ok expression →
      ∃ ts tree, tokenize source = .ok ts ∧ Node.ofTokens ts = .ok tree ∧
        (expression.constant = true ↔ tree.LookupFree ∧ tree.StatelessFilters registry) := by
  refine ⟨fun tree => ⟨tree.unmarked_analyze, fun address node hnode => ?_⟩, ?_⟩
  · refine ⟨node.analyze, ?_, node.constant_analyze⟩
    rw [Node.at?_analyze, hnode]
    rfl
  · intro source expression h
    obtain ⟨analyzed, htree, h⟩ := bind_ok h
    obtain ⟨ts, tree, hts, hread, rfl⟩ := treeOf_ok htree
    refine ⟨ts, tree, hts, hread, ?_⟩
    obtain ⟨body, rfl, hbody⟩ := Node.ofTokens_shaped hread
    rw [← Node.constant_analyze, Node.statelessFilters_iff hbody]
    rw [Node.analyze] at h ⊢
    obtain ⟨codes, hcodes, h⟩ := bind_ok h
    obtain ⟨place, -, h⟩ := bind_ok h
    cases h
    rw [← Node.compileAll_stateful _ codes hcodes]
    simp [Node.constant]

/-- A tree with stale flags, of which only the name of a member is looked up; and a source with a
filter that keeps state in an argument of one that does not. -/
theorem constant_flag_exact_nested :
    (∃ marked, (Node.member false (.this true) (.identifier true "a") false).analyze.at? [1] =
        some marked ∧
      (marked.constant = true ↔ (Node.identifier true "a").LookupFree)) ∧
    ∃ ts tree, tokenize "[1] | limitTo : (2 | tick)" = .ok ts ∧ Node.ofTokens ts = .ok tree ∧
      ¬(tree.LookupFree ∧ tree.StatelessFilters
        (Registry.builtins.register "tick" ⟨.host "tick", true⟩)) := by
  obtain ⟨hflags, hexpression⟩ :=
    constant_flag_exact (Registry.builtins.register "tick" ⟨.host "tick", true⟩)
  refine ⟨(hflags _).2 [1] _ rfl, ?_⟩
  obtain ⟨expression, hsource, hconstant⟩ : ∃ expression,
      ofSource (Registry.builtins.register "tick" ⟨.host "tick", true⟩)
        "[1] | limitTo : (2 | tick)" = .ok expression ∧ expression.constant = false :=
    ⟨_, by cbv, rfl⟩
  obtain ⟨ts, tree, hts, htree, hiff⟩ := hexpression _ expression hsource
  refine ⟨ts, tree, hts, htree, ?_⟩
  rw [← hiff, hconstant]
  exact Bool.false_ne_true

end Expression

end TemplateExpr

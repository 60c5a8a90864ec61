import TemplateExpr.Proofs.Program.Contact
import TemplateExpr.Proofs.Program.Inversion
import TemplateExpr.Proofs.Tree.Calls

/-!
# The parts of a tree and the contacts of its code

A law about evaluation often begins with a tree: one without assignments, or one in which certain
names occur. `Node.parts` lists the nodes that evaluation of a tree can come to, and
`Node.Permitted` is said of those that make only allowed contacts by themselves. If every part of a
tree is permitted, the code of the tree keeps within the allowed contacts (`Node.compile_within`),
and all that is known of such code holds of the expression (`Expression.eval_steady`).
-/

namespace TemplateExpr

namespace Node

/-! ## Parts -/

/-- The nodes right below a node that are evaluated for it. The name of a member that is not
computed and the name of a filter are read off the tree. -/
def operands : Node → List Node
  | .member _ target key computed => if computed then [target, key] else [target]
  | .call _ _ arguments true => arguments
  | node => node.children

mutual
/-- The nodes that evaluation of a tree can come to: the tree itself and, below it, whatever is
evaluated. -/
def parts : Node → List Node
  | .program flag body => .program flag body :: partsAll body
  | .literal flag value => [.literal flag value]
  | .array flag elements => .array flag elements :: partsAll elements
  | .object flag properties => .object flag properties :: partsEntries properties
  | .identifier flag name => [.identifier flag name]
  | .this flag => [.this flag]
  | .member flag target key computed =>
    .member flag target key computed :: (target.parts ++ if computed then key.parts else [])
  | .call flag callee arguments filter =>
    .call flag callee arguments filter ::
      ((if filter then [] else callee.parts) ++ partsAll arguments)
  | .assignment flag left right => .assignment flag left right :: (left.parts ++ right.parts)
  | .unary flag op argument => .unary flag op argument :: argument.parts
  | .binary flag op left right => .binary flag op left right :: (left.parts ++ right.parts)
  | .logical flag op left right => .logical flag op left right :: (left.parts ++ right.parts)
  | .conditional flag test consequent alternate =>
    .conditional flag test consequent alternate ::
      (test.parts ++ (consequent.parts ++ alternate.parts))

@[inherit_doc parts]
def partsAll : List Node → List Node
  | [] => []
  | node :: nodes => node.parts ++ partsAll nodes

@[inherit_doc parts]
def partsEntries : List (PropertyKey × Node) → List Node
  | [] => []
  | (_, node) :: entries => node.parts ++ partsEntries entries
end

theorem partsAll_eq (nodes : List Node) : partsAll nodes = nodes.flatMap parts := by
  induction nodes with
  | nil => rfl
  | cons node nodes ih => rw [partsAll, ih, List.flatMap_cons]

theorem partsEntries_eq (entries : List (PropertyKey × Node)) :
    partsEntries entries = (entries.map Prod.snd).flatMap parts := by
  induction entries with
  | nil => rfl
  | cons entry entries ih =>
    obtain ⟨key, node⟩ := entry
    rw [partsEntries, ih, List.map_cons, List.flatMap_cons]

theorem parts_eq (tree : Node) : tree.parts = tree :: tree.operands.flatMap parts := by
  cases tree with
  | member flag target key computed => cases computed <;> simp [parts, operands]
  | call flag callee arguments filter =>
    cases filter <;> simp [parts, operands, children, partsAll_eq]
  | _ => simp [parts, operands, children, partsAll_eq, partsEntries_eq]

theorem mem_parts_self (tree : Node) : tree ∈ tree.parts := by
  rw [parts_eq]
  exact List.mem_cons_self

theorem mem_parts_of_operand {tree child part : Node} (hchild : child ∈ tree.operands)
    (h : part ∈ child.parts) : part ∈ tree.parts := by
  rw [parts_eq]
  exact List.mem_cons_of_mem _ (List.mem_flatMap.mpr ⟨child, hchild, h⟩)

theorem operands_subset_children (node : Node) : node.operands ⊆ node.children := by
  cases node with
  | member flag target key computed => cases computed <;> simp [operands, children]
  | call flag callee arguments filter => cases filter <;> simp [operands, children]
  | _ => exact List.Subset.refl _

theorem parts_subset {tree part : Node} (h : part ∈ tree.parts) : part.parts ⊆ tree.parts := by
  induction tree using induction with
  | step tree ih =>
    rw [parts_eq, List.mem_cons, List.mem_flatMap] at h
    rcases h with rfl | ⟨child, hchild, hpart⟩
    · exact List.Subset.refl _
    · intro inner hinner
      exact mem_parts_of_operand hchild
        (ih child (operands_subset_children tree hchild) hpart hinner)

/-! ## Contacts -/

def writeContact : Node → Contact
  | .identifier _ name => .writeName name
  | .this _ => .writeThis
  | .member _ target _ _ => target.writeContact
  | _ => .writeTemporary

/-- That a node makes allowed contacts by itself, whatever stands below it. -/
def Permitted (registry : Registry) (allowed : Contact → Prop) : Node → Prop
  | .identifier _ name => allowed (.lookup name)
  | .this _ => allowed .context
  | .call _ _ _ true =>
    ∀ key filter, registry.find? key = some filter → allowed (.filter filter)
  | .call _ (.identifier _ name) _ false => allowed (.callName name)
  | .call _ _ _ false => allowed .call
  | .assignment _ left _ => allowed left.writeContact
  | _ => True

/-- That all parts of a tree make allowed contacts. -/
def AllPermitted (registry : Registry) (allowed : Contact → Prop) (tree : Node) : Prop :=
  ∀ part ∈ tree.parts, part.Permitted registry allowed

theorem AllPermitted.operand {registry : Registry} {allowed : Contact → Prop} {tree child : Node}
    (h : tree.AllPermitted registry allowed) (hchild : child ∈ tree.operands) :
    child.AllPermitted registry allowed :=
  fun part hpart => h part (mem_parts_of_operand hchild hpart)

theorem AllPermitted.self {registry : Registry} {allowed : Contact → Prop} {tree : Node}
    (h : tree.AllPermitted registry allowed) : tree.Permitted registry allowed :=
  h tree (mem_parts_self tree)

section

variable {registry : Registry} {allowed : Contact → Prop} {flag computed : Bool}
  {target key : Node}

theorem AllPermitted.memberTarget
    (h : (Node.member flag target key computed).AllPermitted registry allowed) :
    target.AllPermitted registry allowed :=
  h.operand (by cases computed <;> simp [operands])

theorem AllPermitted.memberKey
    (h : (Node.member flag target key computed).AllPermitted registry allowed)
    (hcomputed : computed = true) : key.AllPermitted registry allowed :=
  h.operand (by simp [operands, hcomputed])

end

end Node

def Place.Within (allowed : Contact → Prop) (place : Place) : Prop :=
  place.root.Within allowed ∧ Key.AllWithin allowed place.path

/-! ## Compiling -/

section

variable {registry : Registry} {allowed : Contact → Prop}

theorem Node.key_within {key : Node} {computed : Bool} {key' : Key}
    (hkey : computed = true → ∀ code, key.compile registry = .ok code → code.Within allowed)
    (h : key.KeyCompiles registry computed key') : key'.Within allowed := by
  cases h with
  | fixed => exact trivial
  | computed _ code hcode => exact hkey rfl code hcode

/-- A call with permitted arguments, apart from the parts that its callee is made of. -/
theorem Node.call_within {flag : Bool} {callee : Node} {arguments : List Node} {given : List Code}
    {code : Code} (h : (Node.call flag callee arguments false).AllPermitted registry allowed)
    (hcompiles : callee.CallCompiles registry given code)
    (hgiven : Code.AllWithin allowed given)
    (hcallee : ∀ code, callee.compile registry = .ok code → code.Within allowed)
    (hmember : ∀ flag target key computed, callee = .member flag target key computed →
      (∀ code, target.compile registry = .ok code → code.Within allowed) ∧
        ∀ key', key.KeyCompiles registry computed key' → key'.Within allowed) :
    code.Within allowed := by
  have hown := h.self
  cases hcompiles with
  | member flag target key computed target' key' htarget hkey =>
    obtain ⟨hwithinTarget, hwithinKey⟩ := hmember flag target key computed rfl
    exact ⟨hown, hwithinTarget target' htarget, hwithinKey key' hkey, hgiven⟩
  | name flag name =>
    have hname : (Node.identifier flag name).AllPermitted registry allowed :=
      h.operand List.mem_cons_self
    exact ⟨hname.self, hown, hgiven⟩
  | value callee callee' hmember hname hcompile =>
    have hcall : allowed .call := by
      cases callee with
      | identifier flag name => exact absurd rfl (hname flag name)
      | _ => exact hown
    exact ⟨hcall, hcallee callee' hcompile, hgiven⟩

mutual
theorem Node.compile_within : (node : Node) → node.AllPermitted registry allowed →
    ∀ code : Code, node.compile registry = .ok code → code.Within allowed
  | .program _ _, _, code, h => by cases h
  | .literal _ value, _, code, h => by
    cases h
    exact trivial
  | .array _ elements, hparts, code, h => by
    obtain ⟨codes, helements, hcode⟩ := bind_ok h
    cases hcode
    exact Node.compileAll_within elements (fun _ hmem => hparts.operand hmem) codes helements
  | .object _ properties, hparts, code, h => by
    obtain ⟨codes, hproperties, hcode⟩ := bind_ok h
    cases hcode
    exact Node.compileEntries_within properties
      (fun _ hmem => hparts.operand (List.mem_map_of_mem hmem)) codes hproperties
  | .identifier flag name, hparts, code, h => by
    obtain ⟨given, hname, hcode⟩ := bind_ok h
    obtain ⟨rfl, -⟩ := allowedName_ok hname
    cases hcode
    exact hparts.self
  | .this flag, hparts, code, h => by
    cases h
    exact hparts.self
  | .member _ target key computed, hparts, code, h => by
    obtain ⟨target', key', htarget, hkey, rfl⟩ := Node.member_ok h
    exact ⟨Node.compile_within target hparts.memberTarget target' htarget,
      Node.key_within (fun hcomputed => Node.compile_within key (hparts.memberKey hcomputed)) hkey⟩
  | .call flag callee arguments true, hparts, code, h => by
    rw [Node.compile] at h
    obtain ⟨filter, hfilter, h⟩ := bind_ok h
    obtain ⟨codes, harguments, hcode⟩ := bind_ok h
    cases hcode
    obtain ⟨_, name, -, hfind⟩ := Node.filter_ok hfilter
    exact ⟨hparts.self name filter hfind,
      Node.compileAll_within arguments (fun _ hmem => hparts.operand hmem) codes harguments⟩
  | .call flag callee arguments false, hparts, code, h => by
    obtain ⟨given, harguments, hcompiles⟩ := Node.call_ok h
    have hcallee : callee.AllPermitted registry allowed := hparts.operand List.mem_cons_self
    have hgiven := Node.compileAll_within arguments
      (fun _ hmem => hparts.operand (List.mem_cons_of_mem callee hmem)) given harguments
    refine Node.call_within hparts hcompiles hgiven (Node.compile_within callee hcallee) ?_
    rintro _ target key computed rfl
    exact ⟨Node.compile_within target hcallee.memberTarget, fun key' hkey =>
      Node.key_within (fun hcomputed => Node.compile_within key (hcallee.memberKey hcomputed)) hkey⟩
  | .assignment flag left right, hparts, code, h => by
    obtain ⟨place, value, hplace, hvalue, rfl⟩ := Node.assignment_ok h
    obtain ⟨⟨hroot, hpath⟩, hcontact⟩ := Node.compilePlace_within left
      (hparts.operand List.mem_cons_self) place hplace
    have hwrite : allowed left.writeContact := hparts.self
    rw [← hcontact] at hwrite
    exact ⟨hwrite, hroot, hpath, Node.compile_within right
      (hparts.operand (List.mem_cons_of_mem left List.mem_cons_self)) value hvalue⟩
  | .unary _ op argument, hparts, code, h => by
    obtain ⟨operand, hoperand, hcode⟩ := bind_ok h
    cases hcode
    exact Node.compile_within argument (hparts.operand List.mem_cons_self) operand hoperand
  | .binary _ op left right, hparts, code, h => by
    obtain ⟨left', hleft, h⟩ := bind_ok h
    obtain ⟨right', hright, hcode⟩ := bind_ok h
    cases hcode
    exact ⟨Node.compile_within left (hparts.operand List.mem_cons_self) left' hleft,
      Node.compile_within right (hparts.operand (List.mem_cons_of_mem left List.mem_cons_self))
        right' hright⟩
  | .logical _ op left right, hparts, code, h => by
    obtain ⟨left', hleft, h⟩ := bind_ok h
    obtain ⟨right', hright, hcode⟩ := bind_ok h
    cases hcode
    exact ⟨Node.compile_within left (hparts.operand List.mem_cons_self) left' hleft,
      Node.compile_within right (hparts.operand (List.mem_cons_of_mem left List.mem_cons_self))
        right' hright⟩
  | .conditional _ test consequent alternate, hparts, code, h => by
    obtain ⟨test', htest, h⟩ := bind_ok h
    obtain ⟨consequent', hconsequent, h⟩ := bind_ok h
    obtain ⟨alternate', halternate, hcode⟩ := bind_ok h
    cases hcode
    refine ⟨Node.compile_within test (hparts.operand ?_) test' htest,
      Node.compile_within consequent (hparts.operand ?_) consequent' hconsequent,
      Node.compile_within alternate (hparts.operand ?_) alternate' halternate⟩
    all_goals simp [Node.operands, Node.children]

theorem Node.compileAll_within : (nodes : List Node) →
    (∀ node ∈ nodes, node.AllPermitted registry allowed) → ∀ codes : List Code,
    Node.compileAll registry nodes = .ok codes → Code.AllWithin allowed codes
  | [], _, codes, h => by
    cases h
    exact trivial
  | node :: nodes, hparts, codes, h => by
    obtain ⟨code, hnode, h⟩ := bind_ok h
    obtain ⟨rest, hnodes, hcodes⟩ := bind_ok h
    cases hcodes
    obtain ⟨hfirst, hrest⟩ := List.forall_mem_cons.mp hparts
    exact ⟨Node.compile_within node hfirst code hnode,
      Node.compileAll_within nodes hrest rest hnodes⟩

theorem Node.compileEntries_within : (nodes : List (PropertyKey × Node)) →
    (∀ entry ∈ nodes, entry.2.AllPermitted registry allowed) → ∀ codes : List (String × Code),
    Node.compileEntries registry nodes = .ok codes → Code.EntriesWithin allowed codes
  | [], _, codes, h => by
    cases h
    exact trivial
  | (key, node) :: nodes, hparts, codes, h => by
    obtain ⟨code, hnode, h⟩ := bind_ok h
    obtain ⟨rest, hnodes, hcodes⟩ := bind_ok h
    cases hcodes
    obtain ⟨hfirst, hrest⟩ := List.forall_mem_cons.mp hparts
    exact ⟨Node.compile_within node hfirst code hnode,
      Node.compileEntries_within nodes hrest rest hnodes⟩

theorem Node.compilePlace_within : (node : Node) → node.AllPermitted registry allowed →
    ∀ place : Place, node.compilePlace registry = .ok place →
      place.Within allowed ∧ place.root.contact = node.writeContact
  | .identifier _ name, _, place, h => by
    rw [Node.identifierPlace_ok h]
    exact ⟨⟨trivial, trivial⟩, rfl⟩
  | .member _ target key computed, hparts, place, h => by
    obtain ⟨before, key', hstart, hkey, rfl⟩ := Node.memberPlace_ok h
    have htarget := hparts.memberTarget
    have hwithin : key'.Within allowed :=
      Node.key_within (fun hcomputed => Node.compile_within key (hparts.memberKey hcomputed)) hkey
    obtain ⟨⟨hroot, hpath⟩, hcontact⟩ :
        before.Within allowed ∧ before.root.contact = target.writeContact := by
      cases hstart with
      | name _ _ _ hplace | member _ _ _ _ _ hplace =>
        exact Node.compilePlace_within _ htarget before hplace
      | this flag => exact ⟨⟨trivial, trivial⟩, rfl⟩
      | temporary _ code hname hmember hthis hcode =>
        refine ⟨⟨Node.compile_within target htarget code hcode, trivial⟩, ?_⟩
        cases target with
        | identifier flag name => exact absurd rfl (hname flag name)
        | member flag target key computed => exact absurd rfl (hmember flag target key computed)
        | this flag => exact absurd rfl (hthis flag)
        | _ => rfl
    exact ⟨⟨hroot, Key.allWithin_append hpath ⟨hwithin, trivial⟩⟩, hcontact⟩
  | .program .., _, _, h | .literal .., _, _, h | .array .., _, _, h | .object .., _, _, h
  | .this .., _, _, h | .call .., _, _, h | .assignment .., _, _, h | .unary .., _, _, h
  | .binary .., _, _, h | .logical .., _, _, h | .conditional .., _, _, h => by cases h
end

/-! ## Expressions -/

variable {source : String} {tree : Node} {expression : Expression}

theorem Expression.ofTree_within (h : ofTree registry source tree = .ok expression)
    (hparts : tree.AllPermitted registry allowed) :
    (∃ body, expression.reading = .statements body ∧ Code.AllWithin allowed body) ∧
      ∀ place, expression.place = some place → place.Within allowed := by
  cases tree with
  | program flag body =>
    obtain ⟨codes, hcodes, h⟩ := bind_ok h
    obtain ⟨found, hfound, heq⟩ := bind_ok h
    cases heq
    have hbody : ∀ node ∈ body, node.AllPermitted registry allowed :=
      fun _ hmem => hparts.operand hmem
    refine ⟨⟨codes, rfl, Node.compileAll_within body hbody codes hcodes⟩, ?_⟩
    rintro place rfl
    unfold place? at hfound
    split at hfound
    · obtain ⟨found, hplace, heq⟩ := map_ok hfound
      cases heq
      exact (Node.compilePlace_within _ (hbody _ List.mem_cons_self) place hplace).1
    · obtain ⟨found, hplace, heq⟩ := map_ok hfound
      cases heq
      exact (Node.compilePlace_within _ (hbody _ List.mem_cons_self) place hplace).1
    · cases hfound
  | _ => cases h

variable {σ : Type} {host : Host σ} {S : World σ → World σ → Prop} {V : Value → Prop}

/-- **What steady contacts keep, evaluation keeps**, and so does assignment, if writing to the place
that is assigned to is an allowed contact as well. -/
theorem Expression.eval_steady (hsteady : (Access.standard host).Steady allowed S V)
    (h : ofTree registry source tree = .ok expression)
    (hparts : tree.AllPermitted registry allowed) :
    Agree S V (expression.eval host) (expression.eval host) := by
  obtain ⟨⟨body, hreading, hwithin⟩, -⟩ := ofTree_within h hparts
  have hagree := Code.evalStatementsBy_steady hsteady body hsteady.values.undefined hwithin
  rw [Code.evalStatementsBy_standard] at hagree
  rwa [eval, hreading]

@[inherit_doc Expression.eval_steady]
theorem Expression.assign_steady (hsteady : (Access.standard host).Steady allowed S V)
    (h : ofTree registry source tree = .ok expression)
    (hparts : tree.AllPermitted registry allowed)
    (hwrite : ∀ place, expression.place = some place → allowed place.root.contact)
    {value : Value} (hvalue : V value) :
    Agree S V (expression.assign host value) (expression.assign host value) := by
  rw [← assignBy_standard, assignBy]
  cases hplace : expression.place with
  | none => exact .throw _
  | some place =>
    obtain ⟨hroot, hpath⟩ := (ofTree_within h hparts).2 place hplace
    have hallowed := hwrite place hplace
    refine (Agree.guarded _).bind fun _ _ => ?_
    refine (Root.evalBy_steady hsteady place.root (Key.evalAllBy_steady hsteady place.path hpath)
      hroot).bind fun target htarget => ?_
    rw [← htarget] at hallowed
    exact (hsteady.write target value hallowed hvalue).bind fun _ _ => .pure hvalue

end

end TemplateExpr

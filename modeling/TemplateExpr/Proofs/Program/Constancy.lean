import Mathlib
import TemplateExpr.Command
import TemplateExpr.Proofs.Filter.Determinism
import TemplateExpr.Proofs.Program.Contact
import TemplateExpr.Proofs.Program.Inversion

/-!
# What a constant expression is good for

An expression that is flagged as constant can be evaluated once and for all: it comes out alike in
every scope and changes none (`Expression.constant_eval`). The flag is found in two halves. One is
computed on the tree and knows nothing of filters; the other looks for stateful filters in the code.
Together they leave code with two kinds of contacts: filters that are registered as keeping no
state, and writes to temporaries, whose effect nobody sees.
-/

namespace TemplateExpr

/-! ## From the flag to the contacts -/

/-- The contacts of a constant expression. -/
def Contact.Constant (registry : Registry) : Contact → Prop
  | .filter applied => (∃ key, registry.find? key = some applied) ∧ applied.stateful = false
  | .writeTemporary => True
  | .lookup _ | .context | .call | .callName _ | .writeName _ | .writeThis => False

section

variable {registry : Registry}

theorem Node.key_constant {key : Node} {computed : Bool} {key' : Key}
    (hkey : ∀ code, key.compile registry = .ok code → key.constant = true →
      code.isStateful = false → code.Within (Contact.Constant registry))
    (h : key.KeyCompiles registry computed key') (hconstant : !computed || key.constant)
    (hstateless : key'.isStateful = false) : key'.Within (Contact.Constant registry) := by
  cases h with
  | fixed => exact trivial
  | computed _ code hcode => exact hkey code hcode hconstant hstateless

theorem Key.anyStateful_append (keys keys' : List Key) :
    Key.anyStateful (keys ++ keys') = (Key.anyStateful keys || Key.anyStateful keys') := by
  induction keys with
  | nil => rfl
  | cons key keys ih =>
    rw [List.cons_append, Key.anyStateful, Key.anyStateful, ih, Bool.or_assoc]

/-- What is known of the place of a constant assignment: it starts in a temporary. -/
def Place.Constant (registry : Registry) (place : Place) : Prop :=
  place.root.contact = .writeTemporary ∧ place.root.Within (Contact.Constant registry) ∧
    Key.AllWithin (Contact.Constant registry) place.path

mutual
theorem Node.compile_constant : (node : Node) → ∀ code : Code,
    node.analyze.compile registry = .ok code → node.analyze.constant = true →
    code.isStateful = false → code.Within (Contact.Constant registry)
  | .program _ _, code, h, _, _ => by cases h
  | .literal _ value, code, h, _, _ => by
    cases h
    exact trivial
  | .array _ elements, code, h, hconstant, hstateless => by
    rw [Node.analyze] at h hconstant
    obtain ⟨codes, helements, hcode⟩ := bind_ok h
    cases hcode
    exact Node.compileAll_constant elements codes helements hconstant hstateless
  | .object _ properties, code, h, hconstant, hstateless => by
    rw [Node.analyze] at h hconstant
    obtain ⟨codes, hproperties, hcode⟩ := bind_ok h
    cases hcode
    exact Node.compileEntries_constant properties codes hproperties hconstant hstateless
  | .identifier _ name, _, _, hconstant, _ => by cases hconstant
  | .this _, _, _, hconstant, _ => by cases hconstant
  | .member _ target key computed, code, h, hconstant, hstateless => by
    rw [Node.analyze] at h hconstant
    obtain ⟨target', key', htarget, hkey, rfl⟩ := Node.member_ok h
    obtain ⟨hct, hck⟩ := Bool.and_eq_true_iff.mp hconstant
    obtain ⟨hst, hsk⟩ := Bool.or_eq_false_iff.mp hstateless
    exact ⟨Node.compile_constant target target' htarget hct hst,
      Node.key_constant (Node.compile_constant key) hkey hck hsk⟩
  | .call _ callee arguments true, code, h, hconstant, hstateless => by
    rw [Node.analyze] at h hconstant
    obtain ⟨filter, hfilter, h⟩ := bind_ok h
    obtain ⟨codes, harguments, hcode⟩ := bind_ok h
    cases hcode
    obtain ⟨_, name, -, hfind⟩ := Node.filter_ok hfilter
    obtain ⟨hsf, hsa⟩ := Bool.or_eq_false_iff.mp hstateless
    exact ⟨⟨⟨name, hfind⟩, hsf⟩,
      Node.compileAll_constant arguments codes harguments hconstant hsa⟩
  | .call _ callee arguments false, _, _, hconstant, _ => by cases hconstant
  | .assignment _ left right, code, h, hconstant, hstateless => by
    rw [Node.analyze] at h hconstant
    obtain ⟨place, value, hplace, hvalue, rfl⟩ := Node.assignment_ok h
    obtain ⟨hcl, hcr⟩ := Bool.and_eq_true_iff.mp hconstant
    obtain ⟨hsplace, hsv⟩ := Bool.or_eq_false_iff.mp hstateless
    obtain ⟨hsr, hsp⟩ := Bool.or_eq_false_iff.mp hsplace
    obtain ⟨hcontact, hroot, hpath⟩ := Node.compilePlace_constant left place hplace hcl hsr hsp
    refine ⟨?_, hroot, hpath, Node.compile_constant right value hvalue hcr hsv⟩
    rw [hcontact, Contact.Constant]
    exact trivial
  | .unary _ op argument, code, h, hconstant, hstateless => by
    rw [Node.analyze] at h hconstant
    obtain ⟨operand, hoperand, hcode⟩ := bind_ok h
    cases hcode
    exact Node.compile_constant argument operand hoperand hconstant hstateless
  | .binary _ op left right, code, h, hconstant, hstateless => by
    rw [Node.analyze] at h hconstant
    obtain ⟨left', hleft, h⟩ := bind_ok h
    obtain ⟨right', hright, hcode⟩ := bind_ok h
    cases hcode
    obtain ⟨hcl, hcr⟩ := Bool.and_eq_true_iff.mp hconstant
    obtain ⟨hsl, hsr⟩ := Bool.or_eq_false_iff.mp hstateless
    exact ⟨Node.compile_constant left left' hleft hcl hsl,
      Node.compile_constant right right' hright hcr hsr⟩
  | .logical _ op left right, code, h, hconstant, hstateless => by
    rw [Node.analyze] at h hconstant
    obtain ⟨left', hleft, h⟩ := bind_ok h
    obtain ⟨right', hright, hcode⟩ := bind_ok h
    cases hcode
    obtain ⟨hcl, hcr⟩ := Bool.and_eq_true_iff.mp hconstant
    obtain ⟨hsl, hsr⟩ := Bool.or_eq_false_iff.mp hstateless
    exact ⟨Node.compile_constant left left' hleft hcl hsl,
      Node.compile_constant right right' hright hcr hsr⟩
  | .conditional _ test consequent alternate, code, h, hconstant, hstateless => by
    rw [Node.analyze] at h hconstant
    obtain ⟨test', htest, h⟩ := bind_ok h
    obtain ⟨consequent', hconsequent, h⟩ := bind_ok h
    obtain ⟨alternate', halternate, hcode⟩ := bind_ok h
    cases hcode
    obtain ⟨hctc, hca⟩ := Bool.and_eq_true_iff.mp hconstant
    obtain ⟨hct, hcc⟩ := Bool.and_eq_true_iff.mp hctc
    obtain ⟨hstc, hsa⟩ := Bool.or_eq_false_iff.mp hstateless
    obtain ⟨hst, hsc⟩ := Bool.or_eq_false_iff.mp hstc
    exact ⟨Node.compile_constant test test' htest hct hst,
      Node.compile_constant consequent consequent' hconsequent hcc hsc,
      Node.compile_constant alternate alternate' halternate hca hsa⟩

theorem Node.compileAll_constant : (nodes : List Node) → ∀ codes : List Code,
    Node.compileAll registry (Node.analyzeAll nodes) = .ok codes →
    (Node.analyzeAll nodes).all Node.constant = true → Code.anyStateful codes = false →
    Code.AllWithin (Contact.Constant registry) codes
  | [], codes, h, _, _ => by
    cases h
    exact trivial
  | node :: nodes, codes, h, hconstant, hstateless => by
    rw [Node.analyzeAll] at h hconstant
    obtain ⟨code, hnode, h⟩ := bind_ok h
    obtain ⟨rest, hnodes, hcodes⟩ := bind_ok h
    cases hcodes
    obtain ⟨hcn, hcr⟩ := Bool.and_eq_true_iff.mp hconstant
    obtain ⟨hsn, hsr⟩ := Bool.or_eq_false_iff.mp hstateless
    exact ⟨Node.compile_constant node code hnode hcn hsn,
      Node.compileAll_constant nodes rest hnodes hcr hsr⟩

theorem Node.compileEntries_constant : (nodes : List (PropertyKey × Node)) →
    ∀ codes : List (String × Code),
    Node.compileEntries registry (Node.analyzeEntries nodes) = .ok codes →
    (Node.analyzeEntries nodes).all (·.2.constant) = true → Code.anyEntryStateful codes = false →
    Code.EntriesWithin (Contact.Constant registry) codes
  | [], codes, h, _, _ => by
    cases h
    exact trivial
  | (key, node) :: nodes, codes, h, hconstant, hstateless => by
    rw [Node.analyzeEntries] at h hconstant
    obtain ⟨code, hnode, h⟩ := bind_ok h
    obtain ⟨rest, hnodes, hcodes⟩ := bind_ok h
    cases hcodes
    obtain ⟨hcn, hcr⟩ := Bool.and_eq_true_iff.mp hconstant
    obtain ⟨hsn, hsr⟩ := Bool.or_eq_false_iff.mp hstateless
    exact ⟨Node.compile_constant node code hnode hcn hsn,
      Node.compileEntries_constant nodes rest hnodes hcr hsr⟩

/-- A name and the context are never constant, so a constant place starts in a temporary. -/
theorem Node.compilePlace_constant : (node : Node) → ∀ place : Place,
    node.analyze.compilePlace registry = .ok place → node.analyze.constant = true →
    place.root.isStateful = false → Key.anyStateful place.path = false →
    place.Constant registry
  | .identifier _ name, _, _, hconstant, _, _ => by cases hconstant
  | .member _ target key computed, place, h, hconstant, hsroot, hspath => by
    rw [Node.analyze] at h hconstant
    obtain ⟨before, key', hstart, hkey, rfl⟩ := Node.memberPlace_ok h
    obtain ⟨hct, hck⟩ := Bool.and_eq_true_iff.mp hconstant
    rw [Key.anyStateful_append, Bool.or_eq_false_iff] at hspath
    obtain ⟨hsb, hsk⟩ := hspath
    have hwithin := Node.key_constant (Node.compile_constant key) hkey hck
      (by simpa [Key.anyStateful] using hsk)
    have hbefore : before.Constant registry := by
      generalize hanalyzed : target.analyze = analyzed at hstart
      cases hstart with
      | name _ _ _ hplace | member _ _ _ _ _ hplace =>
        rw [← hanalyzed] at hplace
        exact Node.compilePlace_constant target before hplace hct hsroot hsb
      | this flag =>
        rw [hanalyzed] at hct
        cases target <;> cases hanalyzed
        cases hct
      | temporary _ code _ _ _ hcode =>
        rw [← hanalyzed] at hcode
        exact ⟨rfl, Node.compile_constant target code hcode hct hsroot, trivial⟩
    obtain ⟨hcontact, hroot, hpath⟩ := hbefore
    exact ⟨hcontact, hroot, Key.allWithin_append hpath ⟨hwithin, trivial⟩⟩
  | .program .., _, h, _, _, _ | .literal .., _, h, _, _, _ | .array .., _, h, _, _, _
  | .object .., _, h, _, _, _ | .this .., _, h, _, _, _ | .call .., _, h, _, _, _
  | .assignment .., _, h, _, _, _ | .unary .., _, h, _, _, _ | .binary .., _, h, _, _, _
  | .logical .., _, h, _, _, _ | .conditional .., _, h, _, _, _ => by cases h
end

end

/-! ## Two scopes at once -/

def World.InScopes {σ : Type} (scope₁ scope₂ : Scope) (w₁ w₂ : World σ) : Prop :=
  w₁.scope = scope₁ ∧ w₂.scope = scope₂

/-- Writing to a temporary has the same outcome in every scope, and changes none. -/
theorem Agree.writeTemporary {σ : Type} (host : Host σ) (scope₁ scope₂ : Scope)
    (container : Value) (path : List String) (value : Value) :
    Agree (World.InScopes scope₁ scope₂) Anything
      ((Access.standard host).write (.temporary container path) value)
      ((Access.standard host).write (.temporary container path) value) := by
  simp only [Access.write, Access.writePath_standard, pure_bind]
  cases (writePath value path container).1 with
  | ok => exact .pure trivial
  | error fault => exact .throw fault

/-- The contacts of a constant expression have nothing to do with the scope. -/
theorem Access.standard_constant {σ : Type} {host : Host σ} {registry : Registry}
    {P : Function → Prop} (hfilters : registry.Deterministic host P) (scope₁ scope₂ : Scope) :
    (Access.standard host).Steady (Contact.Constant registry) (World.InScopes scope₁ scope₂)
      (Value.FunctionsIn P) where
  values :=
    { undefined := .undefined
      literal := fun literal => by cases literal <;> constructor
      array := .array
      record := .record
      unary := fun op operand _ => Value.functionsIn_applyUnary op operand
      binary := fun op left right _ _ => Value.functionsIn_applyBinary op left right }
  lookup _ hallowed := hallowed.elim
  context hallowed := hallowed.elim
  getMember _ key hcontainer := .pure (Value.functionsIn_getMember key hcontainer)
  call _ receiver _ hallowed _ _ := by cases receiver <;> exact hallowed.elim
  filter filter arguments hallowed harguments := by
    obtain ⟨⟨name, hfind⟩, hstateless⟩ := hallowed
    obtain ⟨outcome, hvalue, houtcome⟩ := hfilters name filter hfind hstateless arguments harguments
    rintro w₁ w₂ ⟨rfl, rfl⟩
    refine ⟨(houtcome w₁.host).trans (houtcome w₂.host).symm, ⟨rfl, rfl⟩, fun value hresult => ?_⟩
    exact hvalue value ((houtcome w₁.host).symm.trans hresult)
  write target value hallowed _ := by
    cases target with
    | temporary container path => exact .writeTemporary host scope₁ scope₂ container path value
    | _ => exact hallowed.elim

/-! ## Constant expressions -/

theorem Expression.ofSource_constant {registry : Registry} {source : String}
    {expression : Expression} (h : ofSource registry source = .ok expression)
    (hconstant : expression.constant = true) :
    ∃ body, expression.reading = .statements body ∧
      Code.AllWithin (Contact.Constant registry) body := by
  obtain ⟨tree, htree, h⟩ := bind_ok h
  obtain ⟨tokens, -, htree⟩ := bind_ok htree
  obtain ⟨node, -, heq⟩ := bind_ok htree
  cases heq
  unfold ofTree at h
  cases node with
  | program flag body =>
    rw [Node.analyze] at h
    obtain ⟨code, hcode, h⟩ := bind_ok h
    obtain ⟨place, -, h⟩ := bind_ok h
    cases h
    obtain ⟨hflag, hstateless⟩ := Bool.and_eq_true_iff.mp hconstant
    rw [Bool.not_eq_true'] at hstateless
    exact ⟨code, rfl, Node.compileAll_constant body code hcode hflag hstateless⟩
  | _ => cases h

/-- **A constant expression is the same everywhere.** If the filters that are registered as keeping
no state are deterministic, an expression that is flagged as constant ends in the same value, or in
the same error, whatever the scope and the state of the host it is evaluated in, and it leaves the
scope as it was. Determinism is asked for on values whose functions are all in `P`: of every filter
outright if `P` holds of all functions, and of the filters that are built in not at all if it holds
of none. -/
theorem Expression.constant_eval {registry : Registry} {source : String} {expression : Expression}
    (h : ofSource registry source = .ok expression) (hconstant : expression.constant = true)
    {σ : Type} {host : Host σ} {P : Function → Prop} (hfilters : registry.Deterministic host P)
    (w₁ w₂ : World σ) :
    let after₁ := (expression.eval host).start w₁
    let after₂ := (expression.eval host).start w₂
    after₁.1 = after₂.1 ∧ after₁.2.scope = w₁.scope ∧ after₂.2.scope = w₂.scope := by
  obtain ⟨body, hreading, hwithin⟩ := ofSource_constant h hconstant
  have hsteady := Access.standard_constant hfilters w₁.scope w₂.scope
  have hagree := Code.evalStatementsBy_steady hsteady body .undefined hwithin
  rw [Code.evalStatementsBy_standard] at hagree
  have heval : expression.eval host = Code.evalStatements host .undefined body := by
    rw [eval, hreading]
  rw [heval]
  obtain ⟨hresult, hscopes, -⟩ := hagree w₁ w₂ ⟨rfl, rfl⟩
  exact ⟨hresult, hscopes.1, hscopes.2⟩

/-- An assignment of a computed member into a temporary, piped into a filter. -/
theorem Expression.temporary_assignment_constant : ∃ expression,
    ofSource .builtins "{}.a = [3][0] | json" = .ok expression ∧
      expression.constant = true ∧ ∀ w₁ w₂ : World Unit,
        let after₁ := (expression.eval Host.none).start w₁
        let after₂ := (expression.eval Host.none).start w₂
        after₁.1 = after₂.1 ∧ after₁.2.scope = w₁.scope ∧ after₂.2.scope = w₂.scope := by
  obtain ⟨expression, h, hconstant⟩ : ∃ expression,
      ofSource .builtins "{}.a = [3][0] | json" = .ok expression ∧
        expression.constant = true := ⟨_, by cbv, rfl⟩
  have hfilters := Registry.builtins_deterministic Host.none
  exact ⟨expression, h, hconstant, constant_eval h hconstant hfilters⟩

end TemplateExpr

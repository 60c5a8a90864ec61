import Mathlib.Tactic.ByContra
import TemplateExpr.Proofs.Program.Parts

/-!
# What compiling refuses

Compiling a tree fails at the first node, in the order of checking, that cannot be compiled whatever
stands below it (`Node.Fault`). So a fault that is reported is the fault of a part
(`Node.compile_error`), and a tree without faulty parts compiles (`Node.compiles_iff`). Places,
callees and keys are checked by routines of their own, which refuse what the check of any other node
would refuse, with the same error (`Node.compilePlace_verdict`, `Node.call_verdict`).

`Expression.ofTree_ok_iff` spells out what it takes: a tree is made into an expression exactly if it
is well-formed (`Node.WellFormed`).
-/

namespace TemplateExpr

/-! ## Verdicts -/

/-- That two compilations both succeed, or fail with the same error. -/
def SameVerdict {α β : Type} (x : Except CompileError α) (y : Except CompileError β) : Prop :=
  x.map (fun _ => ()) = y.map (fun _ => ())

namespace SameVerdict

variable {α β γ δ : Type} {x : Except CompileError α} {y : Except CompileError β}

theorem refl (x : Except CompileError α) : SameVerdict x x := rfl

theorem map (h : SameVerdict x y) (f : α → γ) : SameVerdict (f <$> x) y := by
  rw [SameVerdict, ← h]
  cases x <;> rfl

theorem bind_pure (h : SameVerdict x y) (f : α → γ) :
    SameVerdict (x >>= fun a => pure (f a)) y := by
  rw [SameVerdict, ← h]
  cases x <;> rfl

theorem bind (h : SameVerdict x y) {f : α → Except CompileError γ} {g : β → Except CompileError δ}
    (hnext : ∀ a b, SameVerdict (f a) (g b)) : SameVerdict (x >>= f) (y >>= g) := by
  cases x with
  | error fault =>
    cases y with
    | error fault' => exact congrArg _ (Except.error.inj h)
    | ok => cases h
  | ok a =>
    cases y with
    | error => cases h
    | ok b => exact hnext a b

theorem error_iff (h : SameVerdict x y) {fault : CompileError} :
    x = .error fault ↔ y = .error fault := by
  cases x <;> cases y <;> simp_all [SameVerdict, Except.map]

theorem ok_iff (h : SameVerdict x y) : (∃ a, x = .ok a) ↔ ∃ b, y = .ok b := by
  cases x <;> cases y <;> simp_all [SameVerdict, Except.map]

end SameVerdict

theorem bind_error {ε α β : Type} {x : Except ε α} {f : α → Except ε β} {fault : ε}
    (h : x >>= f = .error fault) :
    x = .error fault ∨ ∃ value, x = .ok value ∧ f value = .error fault := by
  cases x with
  | ok value => exact .inr ⟨value, rfl, h⟩
  | error fault' =>
    cases h
    exact .inl rfl

namespace Node

section

variable {registry : Registry}

theorem key_verdict {α β : Type} {key : Node} {computed : Bool} {f : Key → α} {g : Key → β} :
    SameVerdict
      (if computed then Key.computed <$> key.compile registry >>= fun k => pure (f k)
        else key.fixedKey >>= fun k => pure (f k))
      (if computed then Key.computed <$> key.compile registry >>= fun k => pure (g k)
        else key.fixedKey >>= fun k => (pure (g k) : Except CompileError β)) := by
  cases computed with
  | false => exact (SameVerdict.refl _).bind fun _ _ => rfl
  | true => exact (SameVerdict.refl _).bind fun _ _ => rfl

/-- That a tree is a name or a member, which is what can be assigned to. -/
def IsPlace : Node → Prop
  | .identifier .. | .member .. => True
  | _ => False

/-- **The check of a place** refuses what the check of a value refuses. -/
theorem compilePlace_verdict : (node : Node) → node.IsPlace →
    SameVerdict (node.compilePlace registry) (node.compile registry)
  | .identifier .., _ => (SameVerdict.refl _).bind fun _ _ => rfl
  | .member _ target key computed, _ => by
    cases target with
    | identifier flag name =>
      rw [compilePlace, compile]
      exact (compilePlace_verdict (.identifier flag name) trivial).bind fun _ _ => key_verdict
    | member flag target inner computed =>
      rw [compilePlace, compile]
      exact (compilePlace_verdict (.member flag target inner computed) trivial).bind
        fun _ _ => key_verdict
    | this =>
      rw [compilePlace, compile]
      exact SameVerdict.bind rfl fun _ _ => key_verdict
    | _ =>
      rw [compilePlace, compile]
      · exact ((SameVerdict.refl _).map _).bind fun _ _ => key_verdict
      all_goals simp

/-- **The check of a call** is that of its arguments and then of its callee, whatever form this
has. -/
theorem call_verdict (flag : Bool) (callee : Node) (arguments : List Node) :
    SameVerdict ((Node.call flag callee arguments false).compile registry)
      (compileAll registry arguments >>= fun _ => callee.compile registry) := by
  rw [compile]
  refine (SameVerdict.refl _).bind fun _ _ => ?_
  cases callee with
  | member =>
    rw [compile]
    exact (SameVerdict.refl _).bind fun _ _ => key_verdict
  | identifier => exact (SameVerdict.refl _).bind fun _ _ => rfl
  | _ => exact (SameVerdict.refl _).bind_pure _

theorem compileAll_error {nodes : List Node} {fault : CompileError}
    (h : compileAll registry nodes = .error fault) :
    ∃ node ∈ nodes, node.compile registry = .error fault := by
  induction nodes with
  | nil => cases h
  | cons node nodes ih =>
    rw [compileAll] at h
    rcases bind_error h with hnode | ⟨code, -, h⟩
    · exact ⟨node, List.mem_cons_self, hnode⟩
    rcases bind_error h with hnodes | ⟨codes, -, h⟩
    · obtain ⟨found, hmem, hfound⟩ := ih hnodes
      exact ⟨found, List.mem_cons_of_mem _ hmem, hfound⟩
    · cases h

theorem compileAll_ok {nodes : List Node} {codes : List Code}
    (h : compileAll registry nodes = .ok codes) :
    ∀ node ∈ nodes, ∃ code, node.compile registry = .ok code := by
  induction nodes generalizing codes with
  | nil => simp
  | cons node nodes ih =>
    rw [compileAll] at h
    obtain ⟨code, hnode, h⟩ := bind_ok h
    obtain ⟨rest, hnodes, -⟩ := bind_ok h
    exact List.forall_mem_cons.mpr ⟨⟨code, hnode⟩, ih hnodes⟩

theorem compileEntries_verdict (entries : List (PropertyKey × Node)) :
    SameVerdict (compileEntries registry entries)
      (compileAll registry (entries.map Prod.snd)) := by
  induction entries with
  | nil => rfl
  | cons entry entries ih =>
    obtain ⟨key, node⟩ := entry
    rw [compileEntries, List.map_cons, compileAll]
    exact (SameVerdict.refl _).bind fun _ _ => ih.bind fun _ _ => rfl

/-! ## Faults -/

/-- Why compiling refuses a node, whatever stands below it. -/
inductive Fault (registry : Registry) : Node → CompileError → Prop
  | nestedProgram {flag : Bool} {body : List Node} :
    Fault registry (.program flag body) (.generation .nestedProgram)
  | blockedName {flag : Bool} {name : String} (h : ¬ Unblocked name) :
    Fault registry (.identifier flag name) (.security (.blockedMember name))
  | blockedKey {flag flag' : Bool} {target : Node} {name : String} (h : ¬ Unblocked name) :
    Fault registry (.member flag target (.identifier flag' name) false)
      (.security (.blockedMember name))
  | keyNoName {flag : Bool} {target key : Node} (h : ∀ flag name, key ≠ .identifier flag name) :
    Fault registry (.member flag target key false) (.generation .memberKeyNotIdentifier)
  | filterNoName {flag : Bool} {callee : Node} {arguments : List Node}
    (h : ∀ flag name, callee ≠ .identifier flag name) :
    Fault registry (.call flag callee arguments true) (.generation .filterNameNotIdentifier)
  | filterUnknown {flag flag' : Bool} {name : String} {arguments : List Node}
    (h : registry.find? name = none) :
    Fault registry (.call flag (.identifier flag' name) arguments true) (.unknownFilter name)
  | noPlace {flag : Bool} {left right : Node} (h : ¬ left.IsPlace) :
    Fault registry (.assignment flag left right) (.parse .invalidAssignmentTarget)

theorem allowedName_error {name : String} {fault : CompileError}
    (h : allowedName name = .error fault) :
    ¬ Unblocked name ∧ fault = .security (.blockedMember name) := by
  unfold allowedName Guard.checkName at h
  split at h
  · cases h
  · next hcheck =>
    split at hcheck
    · next hblocked =>
      cases h
      cases hcheck
      exact ⟨fun hno => hno hblocked, rfl⟩
    · cases hcheck

theorem fixedKey_error {flag : Bool} {target key : Node} {fault : CompileError}
    (h : key.fixedKey = .error fault) : Fault registry (.member flag target key false) fault := by
  cases key with
  | identifier flag name =>
    rcases bind_error h with hname | ⟨given, -, h⟩
    · obtain ⟨hblocked, rfl⟩ := allowedName_error hname
      exact .blockedKey hblocked
    · cases h
  | _ =>
    cases h
    exact .keyNoName (by simp)

theorem filter_error {flag : Bool} {callee : Node} {arguments : List Node} {fault : CompileError}
    (h : callee.filterName >>= registry.lookup = .error fault) :
    Fault registry (.call flag callee arguments true) fault := by
  cases callee with
  | identifier flag name =>
    have hlookup : registry.lookup name = .error fault := h
    unfold Registry.lookup at hlookup
    split at hlookup
    · cases hlookup
    · next hfind =>
      cases hlookup
      exact .filterUnknown hfind
  | _ =>
    cases h
    exact .filterNoName (by simp)

theorem not_place_error {node : Node} (h : ¬ node.IsPlace) :
    node.compilePlace registry = .error (.parse .invalidAssignmentTarget) := by
  cases node with
  | identifier | member => exact absurd trivial h
  | _ => rfl

/-- A node fails by its own fault or by what is evaluated right below it. -/
theorem compile_fault {node : Node} {fault : CompileError}
    (h : node.compile registry = .error fault) :
    node.Fault registry fault ∨ ∃ child ∈ node.operands, child.compile registry = .error fault := by
  cases node with
  | program =>
    cases h
    exact .inl .nestedProgram
  | literal | this => cases h
  | identifier flag name =>
    rcases bind_error h with hname | ⟨given, -, h⟩
    · obtain ⟨hblocked, rfl⟩ := allowedName_error hname
      exact .inl (.blockedName hblocked)
    · cases h
  | array flag elements =>
    rcases bind_error h with helements | ⟨codes, -, h⟩
    · exact .inr (compileAll_error helements)
    · cases h
  | object flag properties =>
    rcases bind_error h with hproperties | ⟨codes, -, h⟩
    · exact .inr (compileAll_error ((compileEntries_verdict properties).error_iff.mp hproperties))
    · cases h
  | member flag target key computed =>
    rcases bind_error h with htarget | ⟨code, -, h⟩
    · exact .inr ⟨target, by cases computed <;> simp [operands], htarget⟩
    cases computed with
    | false =>
      rcases bind_error h with hkey | ⟨key', -, h⟩
      · exact .inl (fixedKey_error hkey)
      · cases h
    | true =>
      rcases bind_error h with hkey | ⟨key', -, h⟩
      · exact .inr ⟨key, by simp [operands], ((SameVerdict.refl _).map _).error_iff.mp hkey⟩
      · cases h
  | call flag callee arguments filter =>
    cases filter with
    | true =>
      rw [compile] at h
      rcases bind_error h with hfilter | ⟨filter, -, h⟩
      · exact .inl (filter_error hfilter)
      rcases bind_error h with harguments | ⟨codes, -, h⟩
      · exact .inr (compileAll_error harguments)
      · cases h
    | false =>
      rcases bind_error ((call_verdict flag callee arguments).error_iff.mp h) with
        harguments | ⟨codes, -, hcallee⟩
      · obtain ⟨argument, hmem, hargument⟩ := compileAll_error harguments
        exact .inr ⟨argument, List.mem_cons_of_mem _ hmem, hargument⟩
      · exact .inr ⟨callee, List.mem_cons_self, hcallee⟩
  | assignment flag left right =>
    rcases bind_error h with hplace | ⟨place, -, h⟩
    · by_cases hleft : left.IsPlace
      · have hcompile := (compilePlace_verdict left hleft).error_iff.mp hplace
        exact .inr ⟨left, by simp [operands, children], hcompile⟩
      · rw [not_place_error hleft] at hplace
        cases hplace
        exact .inl (.noPlace hleft)
    rcases bind_error h with hright | ⟨value, -, h⟩
    · exact .inr ⟨right, by simp [operands, children], hright⟩
    · cases h
  | unary flag op argument =>
    rcases bind_error h with hargument | ⟨code, -, h⟩
    · exact .inr ⟨argument, by simp [operands, children], hargument⟩
    · cases h
  | binary flag op left right | logical flag op left right =>
    rcases bind_error h with hleft | ⟨code, -, h⟩
    · exact .inr ⟨left, by simp [operands, children], hleft⟩
    rcases bind_error h with hright | ⟨code, -, h⟩
    · exact .inr ⟨right, by simp [operands, children], hright⟩
    · cases h
  | conditional flag test consequent alternate =>
    rcases bind_error h with htest | ⟨code, -, h⟩
    · exact .inr ⟨test, by simp [operands, children], htest⟩
    rcases bind_error h with hconsequent | ⟨code, -, h⟩
    · exact .inr ⟨consequent, by simp [operands, children], hconsequent⟩
    rcases bind_error h with halternate | ⟨code, -, h⟩
    · exact .inr ⟨alternate, by simp [operands, children], halternate⟩
    · cases h

/-- **Every error of compiling is the fault of a part.** -/
theorem compile_error {node : Node} {fault : CompileError}
    (h : node.compile registry = .error fault) :
    ∃ part ∈ node.parts, part.Fault registry fault := by
  induction node using induction with
  | step node ih =>
    rcases compile_fault h with hself | ⟨child, hchild, herror⟩
    · exact ⟨node, mem_parts_self node, hself⟩
    · obtain ⟨part, hpart, hfault⟩ := ih child (operands_subset_children node hchild) herror
      exact ⟨part, mem_parts_of_operand hchild hpart, hfault⟩

theorem compile_operands {node : Node} {code : Code} (h : node.compile registry = .ok code) :
    ∀ child ∈ node.operands, ∃ code, child.compile registry = .ok code := by
  cases node with
  | program => cases h
  | literal | this | identifier => simp [operands, children]
  | array flag elements =>
    obtain ⟨codes, helements, -⟩ := bind_ok h
    exact compileAll_ok helements
  | object flag properties =>
    obtain ⟨entries, hproperties, -⟩ := bind_ok h
    obtain ⟨codes, hall⟩ := (compileEntries_verdict properties).ok_iff.mp ⟨entries, hproperties⟩
    exact compileAll_ok hall
  | member flag target key computed =>
    obtain ⟨target', key', htarget, hkey, -⟩ := member_ok h
    cases hkey with
    | fixed flag name => exact List.forall_mem_singleton.mpr ⟨target', htarget⟩
    | computed key code hkey => exact forall_pair ⟨target', htarget⟩ ⟨code, hkey⟩
  | call flag callee arguments filter =>
    cases filter with
    | true =>
      rw [compile] at h
      obtain ⟨filter, -, h⟩ := bind_ok h
      obtain ⟨codes, harguments, -⟩ := bind_ok h
      exact compileAll_ok harguments
    | false =>
      obtain ⟨callee', h⟩ := (call_verdict flag callee arguments).ok_iff.mp ⟨code, h⟩
      obtain ⟨codes, harguments, hcallee⟩ := bind_ok h
      exact List.forall_mem_cons.mpr ⟨⟨callee', hcallee⟩, compileAll_ok harguments⟩
  | assignment flag left right =>
    obtain ⟨place, value, hplace, hright, -⟩ := assignment_ok h
    have hleft : left.IsPlace := by
      by_contra hno
      rw [not_place_error hno] at hplace
      cases hplace
    exact forall_pair ((compilePlace_verdict left hleft).ok_iff.mp ⟨place, hplace⟩)
      ⟨value, hright⟩
  | unary flag op argument =>
    obtain ⟨operand, hoperand, -⟩ := bind_ok h
    exact List.forall_mem_singleton.mpr ⟨operand, hoperand⟩
  | binary flag op left right | logical flag op left right =>
    obtain ⟨left', hleft, h⟩ := bind_ok h
    obtain ⟨right', hright, -⟩ := bind_ok h
    exact forall_pair ⟨left', hleft⟩ ⟨right', hright⟩
  | conditional flag test consequent alternate =>
    obtain ⟨test', htest, h⟩ := bind_ok h
    obtain ⟨consequent', hconsequent, h⟩ := bind_ok h
    obtain ⟨alternate', halternate, -⟩ := bind_ok h
    exact List.forall_mem_cons.mpr
      ⟨⟨test', htest⟩, forall_pair ⟨consequent', hconsequent⟩ ⟨alternate', halternate⟩⟩

theorem Fault.refused {node : Node} {fault : CompileError} (hfault : node.Fault registry fault)
    {code : Code} (h : node.compile registry = .ok code) : False := by
  cases hfault with
  | nestedProgram => cases h
  | blockedName hblocked =>
    obtain ⟨given, hname, -⟩ := bind_ok h
    exact hblocked (allowedName_ok hname).2
  | blockedKey hblocked =>
    obtain ⟨target, -, h⟩ := bind_ok h
    obtain ⟨key, hkey, -⟩ := bind_ok h
    obtain ⟨given, hname, -⟩ := bind_ok hkey
    exact hblocked (allowedName_ok hname).2
  | keyNoName hno =>
    obtain ⟨target, key, -, hkey, -⟩ := member_ok h
    cases hkey with
    | fixed flag name => exact hno flag name rfl
  | filterNoName hno =>
    rw [compile] at h
    obtain ⟨filter, hfilter, -⟩ := bind_ok h
    obtain ⟨flag, name, heq, -⟩ := filter_ok hfilter
    exact hno flag name heq
  | filterUnknown hunknown =>
    rw [compile] at h
    obtain ⟨filter, hfilter, -⟩ := bind_ok h
    obtain ⟨flag, name, heq, hfind⟩ := filter_ok hfilter
    cases heq
    rw [hunknown] at hfind
    cases hfind
  | noPlace hno =>
    obtain ⟨place, value, hplace, -, -⟩ := assignment_ok h
    rw [not_place_error hno] at hplace
    cases hplace

/-- **A tree compiles exactly if no part of it has a fault.** -/
theorem compiles_iff (node : Node) :
    (∃ code, node.compile registry = .ok code) ↔
      ∀ part ∈ node.parts, ∀ fault, ¬ part.Fault registry fault := by
  constructor
  · induction node using induction with
    | step node ih =>
      rintro ⟨code, hcode⟩ part hpart fault hfault
      rw [parts_eq, List.mem_cons, List.mem_flatMap] at hpart
      rcases hpart with rfl | ⟨child, hchild, hpart⟩
      · exact hfault.refused hcode
      · exact ih child (operands_subset_children node hchild) (compile_operands hcode child hchild)
          part hpart fault hfault
  · intro h
    cases hcode : node.compile registry with
    | ok code => exact ⟨code, rfl⟩
    | error fault =>
      obtain ⟨part, hpart, hfault⟩ := compile_error hcode
      exact (h part hpart fault hfault).elim

theorem compileAll_iff (nodes : List Node) :
    (∃ codes, compileAll registry nodes = .ok codes) ↔
      ∀ part ∈ nodes.flatMap parts, ∀ fault, ¬ part.Fault registry fault := by
  constructor
  · rintro ⟨codes, hcodes⟩ part hpart
    obtain ⟨node, hnode, hpart⟩ := List.mem_flatMap.mp hpart
    exact (compiles_iff node).mp (compileAll_ok hcodes node hnode) part hpart
  · intro h
    cases hcodes : compileAll registry nodes with
    | ok codes => exact ⟨codes, rfl⟩
    | error fault =>
      obtain ⟨node, hnode, herror⟩ := compileAll_error hcodes
      obtain ⟨part, hpart, hfault⟩ := compile_error herror
      exact (h part (List.mem_flatMap.mpr ⟨node, hnode, hpart⟩) fault hfault).elim

end

/-! ## Well-formed trees -/

/-- What it takes of a tree to be made into an expression. The parts of a tree are the nodes in
value position, the callees of calls that are not filters, and the targets of assignments. -/
structure WellFormed (registry : Registry) (tree : Node) : Prop where
  root : ∃ flag body, tree = .program flag body
  nested : ∀ flag body, .program flag body ∉ tree.operands.flatMap parts
  keys : ∀ flag target key, .member flag target key false ∈ tree.parts →
    ∃ flag name, key = .identifier flag name ∧ Unblocked name
  names : ∀ flag name, .identifier flag name ∈ tree.parts → Unblocked name
  targets : ∀ flag left right, .assignment flag left right ∈ tree.parts → left.IsPlace
  filters : ∀ flag callee arguments, .call flag callee arguments true ∈ tree.parts →
    ∃ flag name filter, callee = .identifier flag name ∧ registry.find? name = some filter

section

variable {registry : Registry}

/-- No part of a well-formed tree has a fault, the root apart, which may not stand elsewhere. -/
theorem WellFormed.faultless {tree : Node} (h : tree.WellFormed registry) :
    ∀ part ∈ tree.operands.flatMap parts, ∀ fault, ¬ part.Fault registry fault := by
  intro part hbelow fault hfault
  have hpart : part ∈ tree.parts := by
    rw [parts_eq]
    exact List.mem_cons_of_mem _ hbelow
  cases hfault with
  | nestedProgram => exact h.nested _ _ hbelow
  | blockedName hblocked => exact hblocked (h.names _ _ hpart)
  | blockedKey hblocked =>
    obtain ⟨flag, name, heq, hname⟩ := h.keys _ _ _ hpart
    cases heq
    exact hblocked hname
  | keyNoName hno =>
    obtain ⟨flag, name, heq, -⟩ := h.keys _ _ _ hpart
    exact hno flag name heq
  | filterNoName hno =>
    obtain ⟨flag, name, filter, heq, -⟩ := h.filters _ _ _ hpart
    exact hno flag name heq
  | filterUnknown hunknown =>
    obtain ⟨flag, name, filter, heq, hfind⟩ := h.filters _ _ _ hpart
    cases heq
    rw [hunknown] at hfind
    cases hfind
  | noPlace hno => exact hno (h.targets _ _ _ hpart)

theorem wellFormed_of_faultless {flag : Bool} {body : List Node}
    (h : ∀ part ∈ body.flatMap parts, ∀ fault, ¬ part.Fault registry fault) :
    (program flag body).WellFormed registry := by
  have hbelow : ∀ part ∈ (program flag body).parts, (∀ flag body, part ≠ .program flag body) →
      ∀ fault, ¬ part.Fault registry fault := by
    intro part hpart hno
    rw [parts_eq, List.mem_cons] at hpart
    rcases hpart with rfl | hpart
    · exact absurd rfl (hno flag body)
    · exact h part hpart
  constructor
  case root => exact ⟨flag, body, rfl⟩
  case nested => exact fun flag' body' hmem => h _ hmem _ .nestedProgram
  case keys =>
    intro flag' target key hmem
    have hkey := hbelow _ hmem (by simp)
    by_cases hname : ∃ flag name, key = .identifier flag name
    · obtain ⟨flag, name, rfl⟩ := hname
      refine ⟨flag, name, rfl, ?_⟩
      by_contra hblocked
      exact hkey _ (.blockedKey hblocked)
    · exact (hkey _ (.keyNoName fun flag name heq => hname ⟨flag, name, heq⟩)).elim
  case names =>
    intro flag' name hmem
    by_contra hblocked
    exact hbelow _ hmem (by simp) _ (.blockedName hblocked)
  case targets =>
    intro flag' left right hmem
    by_contra hno
    exact hbelow _ hmem (by simp) _ (.noPlace hno)
  case filters =>
    intro flag' callee arguments hmem
    have hcall := hbelow _ hmem (by simp)
    by_cases hname : ∃ flag name, callee = .identifier flag name
    · obtain ⟨flag, name, rfl⟩ := hname
      cases hfind : registry.find? name with
      | none => exact (hcall _ (.filterUnknown hfind)).elim
      | some filter => exact ⟨flag, name, filter, rfl, hfind⟩
    · exact (hcall _ (.filterNoName fun flag name heq => hname ⟨flag, name, heq⟩)).elim

end

end Node

namespace Expression

variable {registry : Registry}

theorem place?_verdict {body : List Node} {codes : List Code}
    (h : Node.compileAll registry body = .ok codes) :
    ∃ place, place? registry body = .ok place := by
  unfold place?
  split
  case h_1 flag name =>
    have hname := Node.compileAll_ok h (.identifier flag name) List.mem_cons_self
    obtain ⟨place, hplace⟩ :=
      (Node.compilePlace_verdict (.identifier flag name) trivial).ok_iff.mpr hname
    exact ⟨some place, by rw [hplace]; rfl⟩
  case h_2 flag target key computed =>
    have hmember := Node.compileAll_ok h (.member flag target key computed) List.mem_cons_self
    obtain ⟨place, hplace⟩ :=
      (Node.compilePlace_verdict (.member flag target key computed) trivial).ok_iff.mpr hmember
    exact ⟨some place, by rw [hplace]; rfl⟩
  case h_3 => exact ⟨none, rfl⟩

/-- **Exactly the well-formed trees are made into expressions**, whatever their flags and the
source they are said to have. The place of an expression is never what is refused. -/
theorem ofTree_ok_iff (registry : Registry) (source : String) (tree : Node) :
    ((∃ expression, ofTree registry source tree = .ok expression) ↔ tree.WellFormed registry) ∧
      ∀ body codes, Node.compileAll registry body = .ok codes →
        ∃ place, place? registry body = .ok place := by
  refine ⟨⟨?_, ?_⟩, fun body codes => place?_verdict⟩
  · rintro ⟨expression, h⟩
    cases tree with
    | program flag body =>
      obtain ⟨codes, hcodes, -⟩ := bind_ok h
      exact Node.wellFormed_of_faultless ((Node.compileAll_iff body).mp ⟨codes, hcodes⟩)
    | _ => cases h
  · intro h
    obtain ⟨flag, body, rfl⟩ := h.root
    obtain ⟨codes, hcodes⟩ := (Node.compileAll_iff body).mpr h.faultless
    obtain ⟨place, hplace⟩ := place?_verdict hcodes
    exact ⟨_, by rw [ofTree, hcodes, hplace]; rfl⟩

/-- A member whose names are not blocked, in a tree that says it is constant. -/
theorem ofTree_member_accepted :
    (Node.program true
      [.member true (.identifier true "a") (.identifier true "b") false]).WellFormed .empty ∧
      ∃ place, place? .empty [.member true (.identifier true "a") (.identifier true "b") false] =
        .ok place := by
  have hlaw := ofTree_ok_iff .empty "a.b"
    (.program true [.member true (.identifier true "a") (.identifier true "b") false])
  obtain ⟨codes, hcodes⟩ : ∃ codes, Node.compileAll .empty
      [.member true (.identifier true "a") (.identifier true "b") false] = .ok codes :=
    ⟨_, rfl⟩
  exact ⟨hlaw.1.mp ⟨_, rfl⟩, hlaw.2 _ codes hcodes⟩

end Expression

end TemplateExpr

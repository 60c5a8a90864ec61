import Mathlib
import TemplateExpr.Proofs.Program.Lens
import TemplateExpr.Proofs.Program.Parts
import TemplateExpr.Proofs.Program.Sandbox
import TemplateExpr.Proofs.Program.Shape
import TemplateExpr.Proofs.Value.Arithmetic
import TemplateExpr.Proofs.Value.Functions
import TemplateExpr.Proofs.Value.Member
import TemplateExpr.Proofs.Value.Parts

/-!
# Expressions over data

An expression without calls, filters and assignments is about data alone. Its evaluation changes
nothing, and ends in a value unless the guard refuses something: what a name stands for, what a
member is read of, the member itself, or the name that a computed key comes to
(`Node.Refused`). No operator and no member read fails, whatever the operands are
(`Expression.data_total`).

The induction is over the tree, with an assertion about runs in one world (`Run.Quiet`) that is
composed as runs are.
-/

namespace TemplateExpr

/-! ## Quiet runs -/

/-- That a run leaves its world as it was and ends in a value with `V`, or in a violation
with `P`. -/
def Run.Quiet {σ α : Type} (world : World σ) (V : α → Prop) (P : SecurityError → Prop)
    (run : Run σ α) : Prop :=
  (∃ value, V value ∧ run.start world = (.ok value, world)) ∨
    ∃ violation, P violation ∧ run.start world = (.error (.security violation), world)

namespace Run.Quiet

variable {σ α β : Type} {world : World σ} {V : α → Prop} {W : β → Prop} {P : SecurityError → Prop}

theorem pure {value : α} (h : V value) : Quiet world V P (Pure.pure value : Run σ α) :=
  .inl ⟨value, h, rfl⟩

theorem scope {V : Scope → Prop} (h : V world.scope) : Quiet world V P Run.scope :=
  .inl ⟨world.scope, h, rfl⟩

theorem guarded {check : Except SecurityError Unit} {V : Unit → Prop}
    (h : ∀ violation, check = .error violation → P violation) (hok : check = .ok () → V ()) :
    Quiet world V P (Run.guarded check) := by
  cases check with
  | ok => exact .inl ⟨(), hok rfl, rfl⟩
  | error violation => exact .inr ⟨violation, h violation rfl, rfl⟩

theorem safe {value : Value} {V : Value → Prop} (hvalue : V value)
    (h : ∀ violation, Guard.checkObject value = .error violation → P violation) :
    Quiet world V P (Run.safe value) := by
  rw [Quiet, Run.start_safe]
  cases hcheck : Guard.checkObject value with
  | ok => exact .inl ⟨value, hvalue, rfl⟩
  | error violation => exact .inr ⟨violation, h violation hcheck, rfl⟩

theorem bind {run : Run σ α} {next : α → Run σ β} (h : Quiet world V P run)
    (hnext : ∀ value, V value → run.start world = (.ok value, world) →
      Quiet world W P (next value)) : Quiet world W P (run >>= next) := by
  rw [Quiet, Run.start_bind]
  rcases h with ⟨value, hvalue, hrun⟩ | ⟨violation, hviolation, hrun⟩
  · rw [hrun]
    exact hnext value hvalue hrun
  · rw [hrun]
    exact .inr ⟨violation, hviolation, rfl⟩

theorem ite {condition : Prop} [Decidable condition] {first second : Run σ α}
    (hfirst : Quiet world V P first) (hsecond : Quiet world V P second) :
    Quiet world V P (if condition then first else second) := by
  split
  · exact hfirst
  · exact hsecond

end Run.Quiet

/-! ## What is refused -/

def Node.isObject : Node → Bool
  | .object .. => true
  | _ => false

def Node.isComputedMember : Node → Bool
  | .member _ _ _ computed => computed
  | _ => false

section

variable {σ : Type} (registry : Registry) (host : Host σ) (world : World σ)

/-- That the code of a node evaluates to a value, and changes nothing. -/
def Node.Yields (node : Node) (value : Value) : Prop :=
  ∃ code, node.compile registry = .ok code ∧ (code.eval host).start world = (.ok value, world)

/-- That the guard refuses, at a node, what it stands for, what it is read of or the name of its
computed key. -/
inductive Node.Refused : Node → SecurityError → Prop
  | name {flag : Bool} {name : String} {violation : SecurityError}
    (h : Guard.checkObject (world.scope.lookup name) = .error violation) :
    Node.Refused (.identifier flag name) violation
  | container {flag : Bool} {target key : Node} {computed : Bool} {container : Value}
    {violation : SecurityError} (htarget : target.Yields registry host world container)
    (h : Guard.checkObject container = .error violation) :
    Node.Refused (.member flag target key computed) violation
  | key {flag : Bool} {target key : Node} {value : Value} {violation : SecurityError}
    (hkey : key.Yields registry host world value)
    (h : Guard.checkName value.display = .error violation) :
    Node.Refused (.member flag target key true) violation
  | member {flag flag' : Bool} {target : Node} {name : String} {container : Value}
    {violation : SecurityError} (htarget : target.Yields registry host world container)
    (h : Guard.checkObject (container.getMember name) = .error violation) :
    Node.Refused (.member flag target (.identifier flag' name) false) violation
  | computedMember {flag : Bool} {target key : Node} {container value : Value}
    {violation : SecurityError} (htarget : target.Yields registry host world container)
    (hkey : key.Yields registry host world value)
    (h : Guard.checkObject (container.getMember value.display) = .error violation) :
    Node.Refused (.member flag target key true) violation

end

/-! ## Evaluation -/

namespace Value

theorem atomic_of_isNumber {value : Value} (h : value.isNumber) : value.Atomic := by
  cases value <;> simp_all [isNumber, Atomic, isContainer, kind]

theorem atomic_literal (literal : Literal) : literal.value.Atomic := by
  cases literal <;> simp [Literal.value, Atomic, isContainer, kind]

/-- **No operator fails**, and what it gives is an atom. -/
theorem atomic_applyUnary (op : UnaryOp) (operand : Value) : (operand.applyUnary op).Atomic := by
  cases op with
  | plus => exact atomic_of_isNumber (isNumber_signOperand operand)
  | minus => exact atomic_of_isNumber (isNumber_negate operand)
  | not => exact ⟨rfl, by simp [applyUnary, kind]⟩

@[inherit_doc atomic_applyUnary]
theorem atomic_applyBinary (op : BinaryOp) (left right : Value) :
    (left.applyBinary op right).Atomic := by
  have hboolean : ∀ b : Bool, (boolean b).Atomic := fun b => ⟨rfl, by simp [kind]⟩
  cases op with
  | add =>
    rw [applyBinary, sum]
    split
    · exact ⟨rfl, by simp [kind]⟩
    · exact atomic_of_isNumber (isNumber_arithmetic _ _ _)
  | subtract | multiply | divide | modulo => exact atomic_of_isNumber (isNumber_arithmetic _ _ _)
  | equal | notEqual | strictEqual | strictNotEqual | lessThan | greaterThan | lessEqual
  | greaterEqual => exact hboolean _

end Value

/-- That a set of values has all that evaluation over data comes across: what a scope holds, and
what is made of values, but for records. -/
structure Scope.Supplies (scope : Scope) (V : Value → Prop) : Prop where
  context : V scope.context
  lookup : ∀ name, V (scope.lookup name)
  atom : ∀ value : Value, value.Atomic → V value
  array : ∀ items, (∀ item ∈ items, V item) → V (.array items)
  member : ∀ container, V container → ∀ key, V (container.getMember key)

theorem Scope.Supplies.undefined {scope : Scope} {V : Value → Prop} (h : scope.Supplies V) :
    V .undefined :=
  h.atom _ ⟨rfl, by simp [Value.kind]⟩

/-- What is required of each node of an expression over data: that it is no call and no assignment,
that the record is in `V` if it makes one, and that what it is refused is in `P`. -/
structure Node.Plain {σ : Type} (registry : Registry) (host : Host σ) (world : World σ)
    (V : Value → Prop) (P : SecurityError → Prop) (node : Node) : Prop where
  no_call : node.isCall = false
  no_assignment : node.isAssignment = false
  record : node.isObject = true → ∀ entries : Entries Value, (∀ entry ∈ entries, V entry.2) →
    V (.record entries)
  refused : ∀ violation, node.Refused registry host world violation → P violation

section

variable {σ : Type} {registry : Registry} {host : Host σ} {world : World σ} {V : Value → Prop}
  {P : SecurityError → Prop}

theorem Node.compileAll_quiet {nodes : List Node}
    (hnodes : ∀ node ∈ nodes, ∀ code, node.compile registry = .ok code →
      Run.Quiet world V P (code.eval host)) :
    ∀ codes : List Code, Node.compileAll registry nodes = .ok codes →
      Run.Quiet world (fun values => ∀ value ∈ values, V value) P (Code.evalAll host codes) := by
  induction nodes with
  | nil =>
    rintro codes ⟨⟩
    exact .pure (by simp)
  | cons node nodes ih =>
    intro codes h
    obtain ⟨code, hnode, h⟩ := bind_ok h
    obtain ⟨rest, hrest, hcodes⟩ := bind_ok h
    cases hcodes
    obtain ⟨hfirst, hothers⟩ := List.forall_mem_cons.mp hnodes
    rw [Code.evalAll]
    refine (hfirst code hnode).bind fun value hvalue _ => ?_
    refine (ih hothers rest hrest).bind fun values hvalues _ => .pure ?_
    exact List.forall_mem_cons.mpr ⟨hvalue, hvalues⟩

theorem Node.compileEntries_quiet {nodes : List (PropertyKey × Node)}
    (hnodes : ∀ node ∈ nodes.map Prod.snd, ∀ code, node.compile registry = .ok code →
      Run.Quiet world V P (code.eval host)) :
    ∀ (codes : List (String × Code)) (before : Entries Value),
      Node.compileEntries registry nodes = .ok codes → (∀ entry ∈ before, V entry.2) →
      Run.Quiet world (fun entries => ∀ entry ∈ entries, V entry.2) P
        (Code.evalEntries host before codes) := by
  induction nodes with
  | nil =>
    rintro codes before ⟨⟩ hbefore
    exact .pure hbefore
  | cons entry nodes ih =>
    intro codes before h hbefore
    obtain ⟨key, node⟩ := entry
    obtain ⟨code, hnode, h⟩ := bind_ok h
    obtain ⟨rest, hrest, hcodes⟩ := bind_ok h
    cases hcodes
    obtain ⟨hfirst, hothers⟩ := List.forall_mem_cons.mp hnodes
    rw [Code.evalEntries]
    refine (hfirst code hnode).bind fun value hvalue _ => ?_
    exact ih hothers rest _ hrest (Entries.forall_insert hvalue hbefore)

/-- The key of a member is a name, which is blocked only where the member is refused. -/
theorem Node.key_quiet {flag : Bool} {target key : Node} {computed : Bool} {key' : Key}
    {container : Value} (hcompiles : key.KeyCompiles registry computed key')
    (hplain : (Node.member flag target key computed).Plain registry host world V P)
    (hkey : computed = true → ∀ code, key.compile registry = .ok code →
      Run.Quiet world V P (code.eval host))
    (htarget : target.Yields registry host world container) :
    Run.Quiet world (fun name => ∀ violation,
      Guard.checkObject (container.getMember name) = .error violation → P violation) P
        (key'.eval host) := by
  cases hcompiles with
  | fixed flag' name =>
    exact .pure fun violation h => hplain.refused violation (.member htarget h)
  | computed _ code hcode =>
    rw [Key.eval]
    refine (hkey rfl code hcode).bind fun value _ hvalue => ?_
    have hyields : key.Yields registry host world value := ⟨code, hcode, hvalue⟩
    refine (Run.Quiet.guarded (V := fun _ => True)
      (fun violation h => hplain.refused violation (.key hyields h)) fun _ => trivial).bind
        fun _ _ _ => .pure fun violation h => ?_
    exact hplain.refused violation (.computedMember htarget hyields h)

/-- **Evaluation over data is quiet.** It changes nothing, and it ends in an error only where a node
is refused something. -/
theorem Node.compile_quiet (hsupplies : world.scope.Supplies V) (tree : Node) :
    (∀ part ∈ tree.parts, part.Plain registry host world V P) →
      ∀ code, tree.compile registry = .ok code → Run.Quiet world V P (code.eval host) := by
  induction tree using Node.induction with
  | step tree ih =>
    intro hplain code h
    have hoperand : ∀ child ∈ tree.operands, ∀ code, child.compile registry = .ok code →
        Run.Quiet world V P (code.eval host) := fun child hchild =>
      ih child (operands_subset_children tree hchild) fun part hpart =>
        hplain part (mem_parts_of_operand hchild hpart)
    have hself := hplain tree (mem_parts_self tree)
    cases tree with
    | program => cases h
    | call => cases hself.no_call
    | assignment => cases hself.no_assignment
    | literal flag literal =>
      cases h
      exact .pure (hsupplies.atom _ (Value.atomic_literal literal))
    | array flag elements =>
      obtain ⟨codes, helements, hcode⟩ := bind_ok h
      cases hcode
      rw [Code.eval]
      exact (compileAll_quiet hoperand codes helements).bind fun values hvalues _ =>
        .pure (hsupplies.array values hvalues)
    | object flag properties =>
      obtain ⟨codes, hproperties, hcode⟩ := bind_ok h
      cases hcode
      rw [Code.eval]
      exact (compileEntries_quiet hoperand codes [] hproperties (by simp)).bind
        fun entries hentries _ => .pure (hself.record rfl entries hentries)
    | identifier flag name =>
      obtain ⟨given, hname, hcode⟩ := bind_ok h
      obtain ⟨rfl, -⟩ := allowedName_ok hname
      cases hcode
      rw [Code.eval]
      refine (Run.Quiet.scope (V := fun scope => scope = world.scope) rfl).bind ?_
      rintro _ rfl -
      exact .safe (hsupplies.lookup given) fun violation hviolation =>
        hself.refused violation (.name hviolation)
    | this flag =>
      cases h
      rw [Code.eval]
      refine (Run.Quiet.scope (V := fun scope => scope = world.scope) rfl).bind ?_
      rintro _ rfl -
      exact .pure hsupplies.context
    | member flag target key computed =>
      obtain ⟨target', key', htarget, hkey, rfl⟩ := Node.member_ok h
      have hchild : target ∈ (Node.member flag target key computed).operands := by
        cases computed <;> simp [operands]
      have hcomputed : computed = true → ∀ code, key.compile registry = .ok code →
          Run.Quiet world V P (code.eval host) := by
        rintro rfl
        exact hoperand key (by simp [operands])
      rw [Code.eval]
      refine (hoperand target hchild target' htarget).bind fun container hcontainer hrun => ?_
      have hyields : target.Yields registry host world container := ⟨target', htarget, hrun⟩
      refine .ite (.pure hsupplies.undefined) ?_
      refine (Run.Quiet.guarded (V := fun _ => True)
        (fun violation h => hself.refused violation (.container hyields h)) fun _ => trivial).bind
          fun _ _ _ => ?_
      refine (key_quiet hkey hself hcomputed hyields).bind fun name hname _ => ?_
      exact .safe (hsupplies.member container hcontainer name) hname
    | unary flag op argument =>
      obtain ⟨operand, hargument, hcode⟩ := bind_ok h
      cases hcode
      rw [Code.eval]
      exact (hoperand argument List.mem_cons_self operand hargument).bind fun value _ _ =>
        .pure (hsupplies.atom _ (Value.atomic_applyUnary op value))
    | binary flag op left right =>
      obtain ⟨left', hleft, h⟩ := bind_ok h
      obtain ⟨right', hright, hcode⟩ := bind_ok h
      cases hcode
      rw [Code.eval]
      refine (hoperand left (by simp [operands, children]) left' hleft).bind fun first _ _ => ?_
      exact (hoperand right (by simp [operands, children]) right' hright).bind fun second _ _ =>
        .pure (hsupplies.atom _ (Value.atomic_applyBinary op first second))
    | logical flag op left right =>
      obtain ⟨left', hleft, h⟩ := bind_ok h
      obtain ⟨right', hright, hcode⟩ := bind_ok h
      cases hcode
      rw [Code.eval]
      refine (hoperand left (by simp [operands, children]) left' hleft).bind
        fun value hvalue _ => ?_
      exact .ite (.pure hvalue) (hoperand right (by simp [operands, children]) right' hright)
    | conditional flag test consequent alternate =>
      obtain ⟨test', htest, h⟩ := bind_ok h
      obtain ⟨consequent', hconsequent, h⟩ := bind_ok h
      obtain ⟨alternate', halternate, hcode⟩ := bind_ok h
      cases hcode
      rw [Code.eval]
      refine (hoperand test (by simp [operands, children]) test' htest).bind fun value _ _ => ?_
      exact .ite (hoperand consequent (by simp [operands, children]) consequent' hconsequent)
        (hoperand alternate (by simp [operands, children]) alternate' halternate)

theorem Code.evalStatements_quiet {nodes : List Node} {codes : List Code} {last : Value}
    (hnodes : ∀ node ∈ nodes, ∀ code, node.compile registry = .ok code →
      Run.Quiet world V P (code.eval host))
    (hcodes : Node.compileAll registry nodes = .ok codes) (hlast : V last) :
    Run.Quiet world V P (Code.evalStatements host last codes) := by
  induction nodes generalizing codes last with
  | nil =>
    cases hcodes
    exact .pure hlast
  | cons node nodes ih =>
    obtain ⟨code, hnode, h⟩ := bind_ok hcodes
    obtain ⟨rest, hrest, heq⟩ := bind_ok h
    cases heq
    obtain ⟨hfirst, hothers⟩ := List.forall_mem_cons.mp hnodes
    rw [Code.evalStatements]
    exact (hfirst code hnode).bind fun value hvalue _ => ih hothers hrest hvalue

theorem Expression.eval_quiet {source : String} {tree : Node} {expression : Expression}
    (h : ofTree registry source tree = .ok expression) (hsupplies : world.scope.Supplies V)
    (hplain : ∀ part ∈ tree.parts, part.Plain registry host world V P) :
    Run.Quiet world V P (expression.eval host) := by
  cases tree with
  | program flag body =>
    obtain ⟨codes, hcodes, h⟩ := bind_ok h
    obtain ⟨_, -, heq⟩ := bind_ok h
    cases heq
    refine Code.evalStatements_quiet (fun node hnode => ?_) hcodes hsupplies.undefined
    exact Node.compile_quiet hsupplies node fun part hpart =>
      hplain part (Node.mem_parts_of_operand hnode hpart)
  | _ => cases h

end

/-! ## Safe data -/

/-- That the guard lets a value pass, and all that is in it. -/
def Value.SafeThroughout (value : Value) : Prop := ∀ part, Inside part value → Safe part

namespace Value

theorem safeThroughout_of_atomic {value : Value} (h : value.Atomic) : value.SafeThroughout := by
  obtain ⟨hcontainer, hfunction⟩ := h
  intro part hinside
  obtain rfl := (inside_atom hcontainer).mp hinside
  cases part with
  | array | record => cases hcontainer
  | function => exact absurd rfl hfunction
  | _ => rfl

theorem safeThroughout_array {items : List Value} :
    (array items).SafeThroughout ↔ ∀ item ∈ items, item.SafeThroughout := by
  simp only [SafeThroughout, inside_array]
  constructor
  · exact fun h item hitem part hinside => h part (.inr ⟨item, hitem, hinside⟩)
  · rintro h part (rfl | ⟨item, hitem, hinside⟩)
    · rfl
    · exact h item hitem part hinside

theorem safeThroughout_record {entries : Entries Value} :
    (record entries).SafeThroughout ↔
      Safe (record entries) ∧ ∀ entry ∈ entries, entry.2.SafeThroughout := by
  simp only [SafeThroughout, inside_record]
  constructor
  · exact fun h => ⟨h _ (.inl rfl), fun entry hentry part hinside =>
      h part (.inr ⟨entry, hentry, hinside⟩)⟩
  · rintro ⟨hself, h⟩ part (rfl | ⟨entry, hentry, hinside⟩)
    · exact hself
    · exact h entry hentry part hinside

theorem SafeThroughout.getMember {container : Value} (h : container.SafeThroughout)
    (key : String) : (container.getMember key).SafeThroughout := by
  rcases getMember_inside_or_atomic container key with hpart | hatomic
  · exact fun part hinside => h part (hinside.trans hpart)
  · exact safeThroughout_of_atomic hatomic

end Value

def Scope.SafeThroughout (scope : Scope) : Prop :=
  scope.context.SafeThroughout ∧ ∀ locals, scope.locals = some locals → locals.SafeThroughout

theorem Scope.SafeThroughout.supplies {scope : Scope} (h : scope.SafeThroughout) :
    scope.Supplies Value.SafeThroughout where
  context := h.1
  lookup name := by
    have howner : (scope.owner name).SafeThroughout := by
      rw [Scope.owner]
      cases hlocals : scope.locals with
      | none => exact h.1
      | some locals =>
        dsimp only
        split
        · exact h.2 locals hlocals
        · exact h.1
    exact howner.getMember name
  atom _ := Value.safeThroughout_of_atomic
  array _ := Value.safeThroughout_array.mpr
  member _ hcontainer := hcontainer.getMember

section

variable {σ : Type} {registry : Registry} {host : Host σ} {world : World σ}

/-- In a safe scope nothing is refused to a node whose parts make no records and compute no keys. -/
theorem Node.not_refused (hscope : world.scope.SafeThroughout) {tree : Node}
    (hdata : ∀ part ∈ tree.parts, part.isCall = false ∧ part.isAssignment = false)
    (hfixed : ∀ part ∈ tree.parts, part.isObject = false ∧ part.isComputedMember = false)
    (violation : SecurityError) : ¬tree.Refused registry host world violation := by
  have hyields : ∀ {target : Node} {value : Value}, target ∈ tree.operands →
      target.Yields registry host world value → value.SafeThroughout := by
    rintro target value hchild ⟨code, hcode, hrun⟩
    have hquiet : Run.Quiet world Value.SafeThroughout (fun _ => True) (code.eval host) := by
      refine compile_quiet hscope.supplies target (fun part hpart => ?_) code hcode
      have hmem := mem_parts_of_operand hchild hpart
      refine ⟨(hdata part hmem).1, (hdata part hmem).2, fun hobject => ?_, fun _ _ => trivial⟩
      rw [(hfixed part hmem).1] at hobject
      cases hobject
    rcases hquiet with ⟨found, hsafe, hfound⟩ | ⟨_, -, hfailed⟩
    · rw [hrun] at hfound
      cases hfound
      exact hsafe
    · rw [hrun] at hfailed
      cases hfailed
  have hsafe : ∀ {value : Value}, value.SafeThroughout →
      Guard.checkObject value ≠ .error violation := by
    intro value hvalue herror
    have hself : Guard.checkObject value = .ok () := hvalue value .here
    rw [hself] at herror
    cases herror
  have hself := (hfixed tree (mem_parts_self tree)).2
  intro h
  cases h with
  | name h => exact hsafe (hscope.supplies.lookup _) h
  | container htarget h =>
    refine hsafe (hyields ?_ htarget) h
    cases hself
    exact List.mem_cons_self
  | member htarget h => exact hsafe ((hyields List.mem_cons_self htarget).getMember _) h
  | key | computedMember => cases hself

end

/-! ## The law -/

namespace Value

theorem applyBinary_integers_cases (op : Arithmetic) (a b : Int64) :
    (∃ n : Int64, applyBinary op.operator (.integer a) (.integer b) = .integer n ∧
      op.value? a.toInt b.toInt = some (n.toInt : ℚ)) ∨
    ∃ x, applyBinary op.operator (.integer a) (.integer b) = .float x := by
  rw [applyBinary_integers]
  cases hword : op.onIntegers? a.toInt b.toInt with
  | none => exact .inr ⟨_, rfl⟩
  | some n => exact .inl ⟨n, rfl, (Arithmetic.onIntegers?_eq_some_iff.mp hword).1⟩

theorem getMember_behind {key : String} {place : Nat} (h : index? key = some place) :
    (∀ items : List Value, items.length ≤ place → (array items).getMember key = .undefined) ∧
      ∀ s : String, s.toList.length ≤ place → (text s).getMember key = .undefined := by
  have hkey : key ≠ "length" := by
    rintro rfl
    rw [index?_length] at h
    cases h
  constructor
  · intro items hplace
    rw [getMember, if_neg hkey, h, Option.bind_some, List.getElem?_eq_none hplace]
    rfl
  · intro s hplace
    rw [getMember, if_neg hkey, h, Option.bind_some, List.getElem?_eq_none hplace]

end Value

/-- **Expressions over data do not fail.** Without calls, filters and assignments an expression
changes nothing and ends in a value, or in a violation because something is refused to one of its
parts: what a name stands for, what a member is read of, the member, or the name of a computed key.
If it makes no records and computes no keys, and there is nothing unsafe in the scope, it ends in a
value. Operators and members have a value throughout: what is not exact in integers is a float, and
behind the end there is nothing. -/
theorem Expression.data_total {registry : Registry} {source : String} {tree : Node}
    {expression : Expression} (h : ofTree registry source tree = .ok expression)
    (hdata : ∀ part ∈ tree.parts, part.isCall = false ∧ part.isAssignment = false) {σ : Type}
    (host : Host σ) (world : World σ) :
    ((∃ value, (expression.eval host).start world = (.ok value, world)) ∨
      ∃ violation, (expression.eval host).start world = (.error (.security violation), world) ∧
        ∃ part ∈ tree.parts, part.Refused registry host world violation) ∧
    ((∀ part ∈ tree.parts, part.isObject = false ∧ part.isComputedMember = false) →
      world.scope.SafeThroughout →
        ∃ value, (expression.eval host).start world = (.ok value, world)) ∧
    (∀ (op : Arithmetic) (a b : Int64),
      (∃ n : Int64, Value.applyBinary op.operator (.integer a) (.integer b) = .integer n ∧
        op.value? a.toInt b.toInt = some (n.toInt : ℚ)) ∨
      ∃ x, Value.applyBinary op.operator (.integer a) (.integer b) = .float x) ∧
    ∀ key place, Value.index? key = some place →
      (∀ items : List Value, items.length ≤ place →
        (Value.array items).getMember key = .undefined) ∧
      ∀ s : String, s.toList.length ≤ place → (Value.text s).getMember key = .undefined := by
  have hquiet : Run.Quiet world (fun _ => True)
      (fun violation => ∃ part ∈ tree.parts, part.Refused registry host world violation)
      (expression.eval host) := by
    refine eval_quiet h ⟨trivial, fun _ => trivial, fun _ _ => trivial, fun _ _ => trivial,
      fun _ _ _ => trivial⟩ fun part hpart => ?_
    exact ⟨(hdata part hpart).1, (hdata part hpart).2, fun _ _ _ => trivial,
      fun violation hrefused => ⟨part, hpart, hrefused⟩⟩
  refine ⟨?_, fun hfixed hscope => ?_, Value.applyBinary_integers_cases,
    fun _ _ => Value.getMember_behind⟩
  · rcases hquiet with ⟨value, -, hrun⟩ | ⟨violation, hrefused, hrun⟩
    · exact .inl ⟨value, hrun⟩
    · exact .inr ⟨violation, hrun, hrefused⟩
  · rcases hquiet with ⟨value, -, hrun⟩ | ⟨violation, ⟨part, hpart, hrefused⟩, -⟩
    · exact ⟨value, hrun⟩
    · have hparts := Node.parts_subset hpart
      exact absurd hrefused (Node.not_refused hscope
        (fun inner hinner => hdata inner (hparts hinner))
        (fun inner hinner => hfixed inner (hparts hinner)) violation)

def sparseScope : Scope where
  context := .record [("n", .integer Int64.minValue), ("s", .text "ab"),
    ("list", .array [.record [("x", .null)]])]
  locals := some (.record [("gone", .undefined)])

theorem sparseScope_safe : sparseScope.SafeThroughout := by
  have hatoms : (Value.integer Int64.minValue).SafeThroughout ∧ (Value.text "ab").SafeThroughout ∧
      Value.null.SafeThroughout ∧ Value.undefined.SafeThroughout := by
    refine ⟨?_, ?_, ?_, ?_⟩ <;> exact Value.safeThroughout_of_atomic ⟨rfl, by simp [Value.kind]⟩
  constructor
  · have hitem : Safe (.record [("x", .null)]) := rfl
    have hcontext : Safe sparseScope.context := rfl
    refine Value.safeThroughout_record.mpr ⟨hcontext, ?_⟩
    simp [Value.safeThroughout_array, Value.safeThroughout_record, hatoms, hitem]
  · rintro locals ⟨⟩
    refine Value.safeThroughout_record.mpr ⟨rfl, ?_⟩
    simp [hatoms]

/-- An integer without an opposite, division by zero, members of what is absent, and operands of
kinds that do not fit. -/
theorem Expression.data_total_sparse : ∃ tree expression,
    treeOf "-n / 0 % n + gone.b.c; [n, this.list].length < s || n.x ? !list - s.y : -s" =
        .ok tree ∧
      ofTree .builtins "-n / 0 % n + gone.b.c; [n, this.list].length < s || n.x ? !list - s.y : -s"
          tree = .ok expression ∧
        (∀ part ∈ tree.parts, part.isCall = false ∧ part.isAssignment = false) ∧
          (∀ part ∈ tree.parts, part.isObject = false ∧ part.isComputedMember = false) ∧
            ∃ value, (expression.eval Host.none).start ⟨sparseScope, ()⟩ =
              (.ok value, ⟨sparseScope, ()⟩) := by
  obtain ⟨tree, expression, htree, h, hdata, hfixed⟩ : ∃ tree expression,
      treeOf "-n / 0 % n + gone.b.c; [n, this.list].length < s || n.x ? !list - s.y : -s" =
          .ok tree ∧
        ofTree .builtins
            "-n / 0 % n + gone.b.c; [n, this.list].length < s || n.x ? !list - s.y : -s" tree =
            .ok expression ∧
          (∀ part ∈ tree.parts, part.isCall = false ∧ part.isAssignment = false) ∧
            ∀ part ∈ tree.parts, part.isObject = false ∧ part.isComputedMember = false :=
    ⟨_, _, by cbv, by cbv, by decide, by decide⟩
  exact ⟨tree, expression, htree, h, hdata, hfixed,
    (data_total h hdata Host.none ⟨sparseScope, ()⟩).2.1 hfixed sparseScope_safe⟩

end TemplateExpr

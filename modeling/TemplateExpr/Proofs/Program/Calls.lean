import Mathlib
import TemplateExpr.Proofs.Program.Sandbox

/-!
# What is called, and with what

Two laws of the sandbox about functions of the host. The first is about the function: it is a plain
one, whichever way the call came about, and also where a filter asks it. The second is about what
the function is handed: every argument has passed the guard, and so has the receiver, unless the
callee is a bare name. What a bare name belongs to is handed over without a look at it, so it passes
the guard only if the context or the locals happen to.

Both are said of runs that keep notes. The notes stand beside the state of the host and change
nothing else (`Run.Notes`).
-/

namespace TemplateExpr

variable {σ ν α : Type}

/-! ## Notes -/

/-- A run of the host with notes beside its state. -/
def HostRun.beside (run : HostRun σ α) : HostRun (σ × ν) α :=
  ExceptT.mk fun state =>
    let (result, after) := run.start state.1
    (result, (after, state.2))

def Run.beside (run : Run σ α) : Run (σ × ν) α :=
  ExceptT.mk fun world =>
    let (result, after) := run.start ⟨world.scope, world.host.1⟩
    (result, ⟨after.scope, (after.host, world.host.2)⟩)

/-- A host with notes beside its state, which it does not touch. -/
def Host.beside (host : Host σ) : Host (σ × ν) where
  call f receiver arguments := (host.call f receiver arguments).beside
  filter name arguments := (host.filter name arguments).beside
  evaluator name := (host.evaluator name).beside

def HostRun.note (entry : ν) : HostRun (σ × List ν) Unit :=
  modify fun state => (state.1, state.2 ++ [entry])

/-- A state and the same state with notes beside it, of whose entries `P` is known. -/
def Noted (P : ν → Prop) (state : σ) (noted : σ × List ν) : Prop :=
  noted.1 = state ∧ ∀ entry ∈ noted.2, P entry

def Run.Notes (P : ν → Prop) (run : Run σ α) (noted : Run (σ × List ν) α) : Prop :=
  ∀ world : World σ,
    let after := noted.start ⟨world.scope, (world.host, [])⟩
    after.1 = (run.start world).1 ∧ after.2.scope = (run.start world).2.scope ∧
      after.2.host.1 = (run.start world).2.host ∧ ∀ entry ∈ after.2.host.2, P entry

namespace Agree

variable {P : ν → Prop}

theorem beside (run : HostRun σ α) : Agree (Noted P) Anything run run.beside := by
  rintro _ ⟨state, notes⟩ ⟨rfl, hnotes⟩
  exact ⟨rfl, ⟨rfl, hnotes⟩, fun _ _ => trivial⟩

theorem noting (entry : ν) (hentry : P entry) {run : HostRun σ α}
    {noted : HostRun (σ × List ν) α} (h : Agree (Noted P) Anything run noted) :
    Agree (Noted P) Anything run (HostRun.note entry >>= fun _ => noted) := by
  rintro _ ⟨state, notes⟩ ⟨rfl, hnotes⟩
  refine h state (state, notes ++ [entry]) ⟨rfl, fun other hmem => ?_⟩
  rcases List.mem_append.mp hmem with hmem | hmem
  · exact hnotes other hmem
  · rw [List.mem_singleton.mp hmem]
    exact hentry

theorem notes {run : Run σ α} {noted : Run (σ × List ν) α}
    (h : Agree (World.Related (Noted P)) Anything run noted) : Run.Notes P run noted := by
  intro world
  have hstart : World.Related (Noted P) world ⟨world.scope, (world.host, [])⟩ :=
    ⟨rfl, rfl, fun _ hmem => nomatch hmem⟩
  obtain ⟨hresult, ⟨hscope, hhost, hnotes⟩, -⟩ := h _ _ hstart
  exact ⟨hresult.symm, hscope.symm, hhost, hnotes⟩

end Agree

/-! ## Which functions are called -/

/-- A host that notes every function that it is asked to call. -/
def Host.noting (host : Host σ) : Host (σ × List Function) :=
  { host.beside with
    call f receiver arguments := do
      HostRun.note f
      (host.call f receiver arguments).beside }

theorem Host.noting_agree (host : Host σ) :
    host.Agree (Noted fun f : Function => f.kind = .plain) host.noting where
  call f hf _ _ := .noting f hf (.beside _)
  filter _ _ := .beside _

theorem Host.Agree.standard {τ₁ τ₂ : Type} {S : τ₁ → τ₂ → Prop} {host₁ : Host τ₁} {host₂ : Host τ₂}
    (h : host₁.Agree S host₂) : (Access.standard host₁).Agree S (Access.standard host₂) where
  lookup _ _ := Agree.scope.bind fun _ _ => .pure trivial
  owner _ _ := Agree.scope.bind fun _ _ => .pure trivial
  setOwner _ _ _ := Agree.scope.bind fun _ _ => Agree.setScope _
  getMember _ _ _ := .pure trivial
  openMember _ _ _ := .pure trivial
  setMember _ _ _ _ := .pure trivial
  call f hf _ _ arguments _ := Agree.scope.bind fun _ _ => .ofHost (h.call f hf _ arguments)
  filter filter arguments := .ofHost (Filter.apply_agree h filter arguments)

/-- Hosts that agree cannot be told apart by what compiles. -/
theorem Expression.eval_agree {τ₁ τ₂ : Type} {S : τ₁ → τ₂ → Prop} {host₁ : Host τ₁}
    {host₂ : Host τ₂} (hhost : host₁.Agree S host₂) {expression : Expression}
    (hallowed : expression.Allowed) :
    Agree (World.Related S) Anything (expression.eval host₁) (expression.eval host₂) ∧
      ∀ value, Agree (World.Related S) Anything (expression.assign host₁ value)
        (expression.assign host₂ value) := by
  constructor
  · rw [← evalBy_standard, ← evalBy_standard]
    exact evalBy_agree hhost.standard hallowed
  · intro value
    rw [← assignBy_standard, ← assignBy_standard]
    exact assignBy_agree hhost.standard hallowed value

/-- **Only plain functions are called.** Whatever the source, the registry, the scope and the
functions in it: evaluation and assignment ask the host to call plain functions only, be it as a
callee, as a criterion or as a comparator; and hosts that agree on plain functions and on the
filters of their own give the same results and leave the same worlds behind. -/
theorem Expression.only_plain_called {registry : Registry} {source : String}
    {expression : Expression} (h : ofSource registry source = .ok expression) (σ : Type) :
    (∀ host : Host σ,
      Run.Notes (fun f : Function => f.kind = .plain) (expression.eval host)
          (expression.eval host.noting) ∧
        ∀ value, Run.Notes (fun f : Function => f.kind = .plain) (expression.assign host value)
          (expression.assign host.noting value)) ∧
      ∀ host₁ host₂ : Host σ, (∀ f : Function, f.kind = .plain → host₁.call f = host₂.call f) →
        host₁.filter = host₂.filter →
        expression.eval host₁ = expression.eval host₂ ∧
          ∀ value, expression.assign host₁ value = expression.assign host₂ value := by
  have hallowed := ofSource_allowed h
  constructor
  · intro host
    obtain ⟨heval, hassign⟩ := eval_agree host.noting_agree hallowed
    exact ⟨heval.notes, fun value => (hassign value).notes⟩
  · intro host₁ host₂ hcall hfilter
    have hhost : host₁.Agree Eq host₂ :=
      { call := fun f hf receiver arguments => by
          rw [hcall f hf]
          exact .refl _
        filter := fun name arguments => by
          rw [hfilter]
          exact .refl _ }
    obtain ⟨heval, hassign⟩ := eval_agree hhost hallowed
    exact ⟨heval.run_eq, fun value => (hassign value).run_eq⟩

/-- Two hosts that differ on constructors and forwarders are not told apart by a filter that is
given functions. -/
theorem Expression.filter_asks_plain : ∃ expression,
    ofSource .builtins "items | filter:f:g" = .ok expression ∧
      expression.eval (Host.answering fun _ => .boolean true) =
        expression.eval (Host.answering fun f => .boolean (f.kind = .plain)) := by
  obtain ⟨expression, h⟩ : ∃ expression,
      ofSource .builtins "items | filter:f:g" = .ok expression := ⟨_, by cbv⟩
  have hcall : ∀ f : Function, f.kind = .plain →
      (Host.answering fun _ => .boolean true).call f =
        (Host.answering fun f => .boolean (f.kind = .plain)).call f := by
    intro f hf
    simp [Host.answering, hf]
  obtain ⟨heval, -⟩ := (only_plain_called h Unit).2 _ _ hcall rfl
  exact ⟨expression, h, heval⟩

/-! ## What functions are handed -/

/-- A call of a function, with the scope that it was made in. -/
structure Call where
  function : Function
  receiver : Receiver
  scope : Scope
  arguments : List Value

def Call.handed (call : Call) : Value := call.receiver.value call.scope

/-- That everything the function was handed passes the guard. -/
def Call.Checked (call : Call) : Prop :=
  Safe call.handed ∧ ∀ argument ∈ call.arguments, Safe argument

/-- The standard accesses, with notes of all calls. Filters are not calls. -/
def Access.noting (host : Host σ) : Access (σ × List Call) :=
  { Access.standard host.beside with
    call f receiver arguments := do
      let scope ← Run.scope
      -- The note comes first, so that a call that fails is noted too.
      Run.ofHost do
        HostRun.note ⟨f, receiver, scope, arguments⟩
        (host.call f (receiver.value scope) arguments).beside }

theorem Host.beside_agree (host : Host σ) {P : ν → Prop} : host.Agree (Noted P) host.beside where
  call _ _ _ _ := .beside _
  filter _ _ := .beside _

/-- What is known of every call: its arguments pass the guard, and everything handed over does so
exactly if, where the callee is a bare name, the locals or the context that it belongs to do. -/
def Call.Guarded (call : Call) : Prop :=
  (∀ argument ∈ call.arguments, Safe argument) ∧
    (call.Checked ↔ ∀ name, call.receiver = .owner name → Safe (call.scope.owner name))

theorem Call.guarded_of_permitted {call : Call} (hreceiver : call.receiver.Permitted)
    (harguments : ∀ argument ∈ call.arguments, Safe argument) : call.Guarded := by
  refine ⟨harguments, ?_⟩
  obtain ⟨f, receiver, scope, arguments⟩ := call
  constructor
  · rintro ⟨hhanded, -⟩ name rfl
    exact hhanded
  · intro howner
    refine ⟨?_, harguments⟩
    -- Only a bare name needs what is known of owners.
    cases receiver with
    | object value => exact hreceiver
    | owner name => exact howner name rfl
    | none => rfl

theorem Access.noting_agree (host : Host σ) :
    (Access.standard host).Agree (Noted Call.Guarded) (Access.noting host) :=
  { host.beside_agree.standard with
    call := fun f _ receiver hreceiver arguments harguments =>
      Agree.scope.bind fun scope _ => .ofHost
        (.noting ⟨f, receiver, scope, arguments⟩ (Call.guarded_of_permitted hreceiver harguments)
          (.beside _)) }

/-- **What functions are handed.** Of every call that an expression makes, the arguments have passed
the guard, and so has the receiver, unless it is what a bare name belongs to. Then nothing was
checked but the name, and the receiver passes the guard only if it happens to. -/
theorem Expression.calls_handed {registry : Registry} {source : String} {expression : Expression}
    (h : ofSource registry source = .ok expression) (host : Host σ) :
    Run.Notes Call.Guarded (expression.eval host) (expression.evalBy (Access.noting host)) ∧
      ∀ value, Run.Notes Call.Guarded (expression.assign host value)
        (expression.assignBy (Access.noting host) value) := by
  have hallowed := ofSource_allowed h
  constructor
  · rw [← evalBy_standard]
    exact (evalBy_agree (Access.noting_agree host) hallowed).notes
  · intro value
    rw [← assignBy_standard]
    exact (assignBy_agree (Access.noting_agree host) hallowed value).notes

/-- The argument of a call by a bare name has passed the guard. -/
theorem Expression.argument_handed : ∃ expression,
    ofSource .empty "f(x)" = .ok expression ∧
      Run.Notes Call.Guarded (expression.eval (Host.answering fun _ => .undefined))
        (expression.evalBy (Access.noting (Host.answering fun _ => .undefined))) := by
  obtain ⟨expression, h⟩ : ∃ expression, ofSource .empty "f(x)" = .ok expression := ⟨_, by cbv⟩
  exact ⟨expression, h, (calls_handed h (Host.answering fun _ => .undefined)).1⟩

def lookalikeScope : Scope where
  context := .record [("window", .null), ("document", .null), ("location", .null),
    ("f", .function ⟨"yes", .plain⟩)]
  locals := none

/-- A context that looks like the global object is handed to a function that is called by its bare
name. -/
theorem Expression.bare_callee_handed_global : ∃ expression,
    ofSource .empty "f()" = .ok expression ∧
      ¬ Run.Notes Call.Checked (expression.eval (Host.answering fun _ => .boolean true))
        (expression.evalBy (Access.noting (Host.answering fun _ => .boolean true))) := by
  refine ⟨⟨some "f()", .statements [.callName "f" []], none, false, false⟩, by cbv, ?_⟩
  intro hnotes
  obtain ⟨-, -, -, hchecked⟩ := hnotes ⟨lookalikeScope, ()⟩
  obtain ⟨hhanded, -⟩ :=
    hchecked ⟨⟨"yes", .plain⟩, .owner "f", lookalikeScope, []⟩ List.mem_cons_self
  have hrefused : Guard.checkObject lookalikeScope.context = .error .globalObject := rfl
  rw [Safe, Call.handed, Receiver.value] at hhanded
  cases hrefused.symm.trans hhanded

end TemplateExpr

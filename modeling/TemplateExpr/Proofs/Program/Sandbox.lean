import Mathlib
import TemplateExpr.Proofs.Filter.Agreement
import TemplateExpr.Proofs.Program.Access
import TemplateExpr.Proofs.Program.Allowed

/-!
# What code can ask for

A request of code is *permitted* when it names no blocked member, calls no function but a plain one,
and hands over only arguments and objects that the guard lets pass. Code that compiles makes
permitted requests only. This is said by agreement: two accesses that agree on permitted requests
cannot be told apart by any expression (`Expression.evalBy_agree`), however they differ on all the
others. The induction is over code; the checks of the guard that stand in front of a request are
what makes the request a permitted one.

For names this gives the law of the sandbox at once: what a blocked name would lead to never
matters.
-/

namespace TemplateExpr

def Safe (value : Value) : Prop := Guard.checkObject value = .ok ()

/-- That the guard has seen where a receiver comes from. What a bare name belongs to is handed over
as it is; only the name was looked at. -/
def Receiver.Permitted : Receiver → Prop
  | .object value => Safe value
  | .owner name => Unblocked name
  | .none => True

/-- That every name of a resolved place is one that the guard allows. -/
def Target.Permitted : Target → Prop
  | .name key path => Unblocked key ∧ ∀ name ∈ path, Unblocked name
  | .this path | .temporary _ path => ∀ name ∈ path, Unblocked name

/-- Accesses that agree on permitted requests. -/
structure Access.Agree {σ₁ σ₂ : Type} (S : σ₁ → σ₂ → Prop) (a : Access σ₁) (b : Access σ₂) :
    Prop where
  lookup : ∀ name, Unblocked name →
    TemplateExpr.Agree (World.Related S) Anything (a.lookup name) (b.lookup name)
  owner : ∀ name, Unblocked name →
    TemplateExpr.Agree (World.Related S) Anything (a.owner name) (b.owner name)
  setOwner : ∀ name, Unblocked name → ∀ value,
    TemplateExpr.Agree (World.Related S) Anything (a.setOwner name value) (b.setOwner name value)
  getMember : ∀ container key, Unblocked key →
    TemplateExpr.Agree (World.Related S) Anything (a.getMember container key)
      (b.getMember container key)
  openMember : ∀ container key, Unblocked key →
    TemplateExpr.Agree (World.Related S) Anything (a.openMember container key)
      (b.openMember container key)
  setMember : ∀ container key, Unblocked key → ∀ value,
    TemplateExpr.Agree (World.Related S) Anything (a.setMember container key value)
      (b.setMember container key value)
  call : ∀ f : Function, f.kind = .plain → ∀ receiver : Receiver, receiver.Permitted →
    ∀ arguments, (∀ argument ∈ arguments, Safe argument) →
      TemplateExpr.Agree (World.Related S) Anything (a.call f receiver arguments)
        (b.call f receiver arguments)
  filter : ∀ filter arguments,
    TemplateExpr.Agree (World.Related S) Anything (a.filter filter arguments)
      (b.filter filter arguments)

section

variable {σ₁ σ₂ : Type} {S : σ₁ → σ₂ → Prop}

theorem Access.settle_agree (outcome : Except EvalError Unit) :
    TemplateExpr.Agree (World.Related S) Anything (Access.settle outcome)
      (Access.settle outcome) := by
  cases outcome with
  | ok => exact .pure trivial
  | error fault => exact .throw _

/-! ## Calls and writes -/

variable {a : Access σ₁} {b : Access σ₂}

namespace Access.Agree

theorem invoke (h : a.Agree S b) {callee : Value} (hcallee : Guard.checkCallee callee = .ok ())
    (receiver : Receiver) (hreceiver : receiver.Permitted) {arguments : List Value}
    (harguments : ∀ argument ∈ arguments, Safe argument) :
    TemplateExpr.Agree (World.Related S) Anything (a.invoke callee receiver arguments)
      (b.invoke callee receiver arguments) := by
  cases callee with
  | function f =>
    have hf : f.kind = .plain := Filter.plain_of_checkCallee hcallee
    refine (h.call f hf receiver hreceiver arguments harguments).bind fun result _ => ?_
    exact (Agree.guarded _).bind fun _ _ => .pure trivial
  | _ => exact .throw _

theorem writePath (h : a.Agree S b) (value : Value) : ∀ (path : List String) (container : Value),
    (∀ name ∈ path, Unblocked name) →
      TemplateExpr.Agree (World.Related S) Anything (a.writePath value path container)
        (b.writePath value path container)
  | [], container, _ => .pure trivial
  | [last], container, hpath => by
    have hlast : Unblocked last := hpath last List.mem_cons_self
    refine (h.setMember container last hlast value).bind fun outcome _ => ?_
    cases outcome with
    | ok changed => exact .pure trivial
    | error fault => exact .pure trivial
  | key :: next :: path, container, hpath => by
    have hkey : Unblocked key := hpath key List.mem_cons_self
    have hrest : ∀ name ∈ next :: path, Unblocked name :=
      fun name hname => hpath name (List.mem_cons_of_mem _ hname)
    refine (h.openMember container key hkey).bind fun outcome _ => ?_
    cases outcome with
    | error fault => exact .pure trivial
    | ok opened =>
      simp only
      cases Guard.checkObject opened.2 with
      | error violation => exact .pure trivial
      | ok =>
        exact (h.writePath value (next :: path) opened.2 hrest).bind fun _ _ => .pure trivial

theorem write (h : a.Agree S b) {target : Target} (htarget : target.Permitted) (value : Value) :
    TemplateExpr.Agree (World.Related S) Anything (a.write target value)
      (b.write target value) := by
  cases target with
  | name key path =>
    obtain ⟨hkey, hpath⟩ := htarget
    have hall : ∀ name ∈ key :: path, Unblocked name := by simpa using ⟨hkey, hpath⟩
    refine (h.owner key hkey).bind fun owner _ => ?_
    refine (h.writePath value _ owner.orRecord hall).bind fun written _ => ?_
    exact (h.setOwner key hkey written.2).bind fun _ _ => Access.settle_agree written.1
  | this path =>
    refine Agree.scope.bind fun scope _ => ?_
    refine (h.writePath value path scope.context.orRecord htarget).bind fun written _ => ?_
    exact (Agree.setScope _).bind fun _ _ => Access.settle_agree written.1
  | temporary container path =>
    refine (h.writePath value path container htarget).bind fun written _ => ?_
    exact Access.settle_agree written.1

end Access.Agree

/-! ## Evaluation -/

mutual
theorem Code.evalBy_agree (h : a.Agree S b) : (code : Code) → code.Allowed →
    Agree (World.Related S) Anything (code.evalBy a) (code.evalBy b)
  | .literal value, _ => .pure trivial
  | .array elements, hallowed => by
    simp only [Code.evalBy]
    exact (Code.evalAllBy_agree h elements hallowed).bind fun _ _ => .pure trivial
  | .record entries, hallowed => by
    simp only [Code.evalBy]
    exact (Code.evalEntriesBy_agree h entries [] hallowed).bind fun _ _ => .pure trivial
  | .name name, hallowed => by
    simp only [Code.evalBy]
    refine (h.lookup name hallowed).bind fun value _ => ?_
    exact (Agree.safe value).weaken fun _ _ => trivial
  | .this, _ => by
    simp only [Code.evalBy]
    exact Agree.scope.bind fun _ _ => .pure trivial
  | .member target key, hallowed => by
    obtain ⟨htarget, hkey⟩ := hallowed
    simp only [Code.evalBy]
    refine (Code.evalBy_agree h target htarget).bind fun container _ => .ite (.pure trivial) ?_
    refine (Agree.guarded _).bind fun _ _ => ?_
    refine (Key.evalBy_agree h key hkey).bind fun name hname => ?_
    refine (h.getMember container name hname).bind fun value _ => ?_
    exact (Agree.safe value).weaken fun _ _ => trivial
  | .callMember target key arguments, hallowed => by
    obtain ⟨htarget, hkey, harguments⟩ := hallowed
    simp only [Code.evalBy]
    refine (Code.evalBy_agree h target htarget).bind fun receiver _ => .ite (.pure trivial) ?_
    refine (Agree.guarded _).bind fun _ hreceiver => ?_
    refine (Key.evalBy_agree h key hkey).bind fun name hname => ?_
    refine (h.getMember receiver name hname).bind fun callee _ => .ite (.pure trivial) ?_
    refine (Agree.guarded _).bind fun _ hcallee => ?_
    refine (Code.evalArgumentsBy_agree h arguments harguments).bind fun given hgiven => ?_
    -- Three checks have been passed, one for each part of the request.
    exact h.invoke hcallee (.object receiver) hreceiver hgiven
  | .callName name arguments, hallowed => by
    obtain ⟨hname, harguments⟩ := hallowed
    simp only [Code.evalBy]
    refine (h.lookup name hname).bind fun callee _ => .ite (.pure trivial) ?_
    refine (Agree.guarded _).bind fun _ hcallee => ?_
    refine (Code.evalArgumentsBy_agree h arguments harguments).bind fun given hgiven => ?_
    -- Of the receiver nothing is known here but the name that leads to it.
    exact h.invoke hcallee (.owner name) hname hgiven
  | .callValue callee arguments, hallowed => by
    obtain ⟨hcode, harguments⟩ := hallowed
    simp only [Code.evalBy]
    refine (Code.evalBy_agree h callee hcode).bind fun callee _ => .ite (.pure trivial) ?_
    refine (Agree.guarded _).bind fun _ hcallee => ?_
    refine (Code.evalArgumentsBy_agree h arguments harguments).bind fun given hgiven => ?_
    exact h.invoke hcallee .none trivial hgiven
  | .filter filter arguments, hallowed => by
    simp only [Code.evalBy]
    refine (Code.evalAllBy_agree h arguments hallowed).bind fun given _ => ?_
    refine (h.filter filter given).bind fun value _ => ?_
    exact (Agree.safe value).weaken fun _ _ => trivial
  | .assign root path value, hallowed => by
    obtain ⟨hroot, hpath, hvalue⟩ := hallowed
    simp only [Code.evalBy]
    refine (Root.evalBy_agree h root (Key.evalAllBy_agree h path hpath) hroot).bind
      fun target htarget => ?_
    refine (Code.evalBy_agree h value hvalue).bind fun value _ => ?_
    refine (Agree.safe value).bind fun value _ => ?_
    exact (h.write htarget value).bind fun _ _ => .pure trivial
  | .unary op operand, hallowed => by
    simp only [Code.evalBy]
    exact (Code.evalBy_agree h operand hallowed).bind fun _ _ => .pure trivial
  | .binary op left right, hallowed => by
    obtain ⟨hleft, hright⟩ := hallowed
    simp only [Code.evalBy]
    refine (Code.evalBy_agree h left hleft).bind fun _ _ => ?_
    exact (Code.evalBy_agree h right hright).bind fun _ _ => .pure trivial
  | .logical op left right, hallowed => by
    obtain ⟨hleft, hright⟩ := hallowed
    simp only [Code.evalBy]
    refine (Code.evalBy_agree h left hleft).bind fun _ _ => ?_
    exact .ite (.pure trivial) (Code.evalBy_agree h right hright)
  | .conditional test consequent alternate, hallowed => by
    obtain ⟨htest, hconsequent, halternate⟩ := hallowed
    simp only [Code.evalBy]
    refine (Code.evalBy_agree h test htest).bind fun _ _ => .ite ?_ ?_
    · exact Code.evalBy_agree h consequent hconsequent
    · exact Code.evalBy_agree h alternate halternate

theorem Code.evalAllBy_agree (h : a.Agree S b) : (codes : List Code) → Code.AllAllowed codes →
    Agree (World.Related S) Anything (Code.evalAllBy a codes) (Code.evalAllBy b codes)
  | [], _ => .pure trivial
  | code :: codes, hallowed => by
    obtain ⟨hcode, hcodes⟩ := hallowed
    simp only [Code.evalAllBy]
    refine (Code.evalBy_agree h code hcode).bind fun _ _ => ?_
    exact (Code.evalAllBy_agree h codes hcodes).bind fun _ _ => .pure trivial

/-- Every argument of a call has passed the guard. -/
theorem Code.evalArgumentsBy_agree (h : a.Agree S b) : (codes : List Code) → Code.AllAllowed codes →
    Agree (World.Related S) (fun given => ∀ argument ∈ given, Safe argument)
      (Code.evalArgumentsBy a codes) (Code.evalArgumentsBy b codes)
  | [], _ => .pure (by simp)
  | code :: codes, hallowed => by
    obtain ⟨hcode, hcodes⟩ := hallowed
    simp only [Code.evalArgumentsBy]
    refine (Code.evalBy_agree h code hcode).bind fun value _ => ?_
    refine (Agree.safe value).bind fun first hfirst => ?_
    refine (Code.evalArgumentsBy_agree h codes hcodes).bind fun rest hrest => .pure ?_
    intro argument hmem
    rcases List.mem_cons.mp hmem with rfl | hmem
    · exact hfirst
    · exact hrest argument hmem

theorem Code.evalEntriesBy_agree (h : a.Agree S b) : (codes : List (String × Code)) →
    (before : List (String × Value)) → Code.EntriesAllowed codes →
    Agree (World.Related S) Anything (Code.evalEntriesBy a before codes)
      (Code.evalEntriesBy b before codes)
  | [], before, _ => .pure trivial
  | (key, code) :: codes, before, hallowed => by
    obtain ⟨hcode, hcodes⟩ := hallowed
    simp only [Code.evalEntriesBy]
    exact (Code.evalBy_agree h code hcode).bind fun _ _ => Code.evalEntriesBy_agree h codes _ hcodes

/-- The name that a computed key is checked as is the name that the key stands for. -/
theorem Key.evalBy_agree (h : a.Agree S b) : (key : Key) → key.Allowed →
    Agree (World.Related S) Unblocked (key.evalBy a) (key.evalBy b)
  | .fixed name, hallowed => .pure hallowed
  | .computed code, hallowed => by
    simp only [Key.evalBy]
    refine (Code.evalBy_agree h code hallowed).bind fun value _ => ?_
    exact (Agree.guarded _).bind fun _ hname => .pure (unblocked_of_checkName hname)

theorem Key.evalAllBy_agree (h : a.Agree S b) : (keys : List Key) → Key.AllAllowed keys →
    Agree (World.Related S) (fun names => ∀ name ∈ names, Unblocked name)
      (Key.evalAllBy a keys) (Key.evalAllBy b keys)
  | [], _ => .pure (by simp)
  | key :: keys, hallowed => by
    obtain ⟨hkey, hkeys⟩ := hallowed
    simp only [Key.evalAllBy]
    refine (Key.evalBy_agree h key hkey).bind fun first hfirst => ?_
    refine (Key.evalAllBy_agree h keys hkeys).bind fun rest hrest => .pure ?_
    intro name hmem
    rcases List.mem_cons.mp hmem with rfl | hmem
    · exact hfirst
    · exact hrest name hmem

theorem Root.evalBy_agree (h : a.Agree S b) : (root : Root) → {path₁ : Run σ₁ (List String)} →
    {path₂ : Run σ₂ (List String)} →
    Agree (World.Related S) (fun names => ∀ name ∈ names, Unblocked name) path₁ path₂ →
    root.Allowed →
    Agree (World.Related S) Target.Permitted (root.evalBy a path₁) (root.evalBy b path₂)
  | .name name, _, _, hpath, hallowed => by
    simp only [Root.evalBy]
    exact hpath.bind fun names hnames => .pure ⟨hallowed, hnames⟩
  | .this, _, _, hpath, _ => by
    simp only [Root.evalBy]
    exact hpath.bind fun names hnames => .pure hnames
  | .temporary code, _, _, hpath, hallowed => by
    simp only [Root.evalBy]
    refine (Code.evalBy_agree h code hallowed).bind fun value _ => ?_
    refine (Agree.safe value).bind fun value _ => ?_
    exact hpath.bind fun names hnames => .pure hnames
end

theorem Code.evalStatementsBy_agree (h : a.Agree S b) (codes : List Code) (last : Value)
    (hallowed : Code.AllAllowed codes) :
    Agree (World.Related S) Anything (Code.evalStatementsBy a last codes)
      (Code.evalStatementsBy b last codes) := by
  induction codes generalizing last with
  | nil => exact .pure trivial
  | cons code codes ih =>
    obtain ⟨hcode, hcodes⟩ := hallowed
    exact (Code.evalBy_agree h code hcode).bind fun value _ => ih value hcodes

theorem Place.assignBy_agree (h : a.Agree S b) {place : Place} (hplace : place.Allowed)
    (value : Value) :
    Agree (World.Related S) Anything (place.assignBy a value) (place.assignBy b value) := by
  obtain ⟨hroot, hpath⟩ := hplace
  refine (Agree.guarded _).bind fun _ _ => ?_
  refine (Root.evalBy_agree h place.root (Key.evalAllBy_agree h place.path hpath) hroot).bind
    fun target htarget => ?_
  exact (h.write htarget value).bind fun _ _ => .pure trivial

/-- **Compiled code makes permitted requests only.** Accesses that agree on these cannot be told
apart by evaluating an expression. -/
theorem Expression.evalBy_agree (h : a.Agree S b) {expression : Expression}
    (hallowed : expression.Allowed) :
    Agree (World.Related S) Anything (expression.evalBy a) (expression.evalBy b) := by
  obtain ⟨hreading, -⟩ := hallowed
  unfold evalBy
  cases hread : expression.reading with
  | statements body =>
    rw [hread] at hreading
    exact Code.evalStatementsBy_agree h body .undefined hreading
  | handWritten name =>
    rw [hread] at hreading
    exact hreading.elim

@[inherit_doc Expression.evalBy_agree]
theorem Expression.assignBy_agree (h : a.Agree S b) {expression : Expression}
    (hallowed : expression.Allowed) (value : Value) :
    Agree (World.Related S) Anything (expression.assignBy a value)
      (expression.assignBy b value) := by
  obtain ⟨-, hplaces⟩ := hallowed
  unfold assignBy
  cases hplace : expression.place with
  | some place => exact Place.assignBy_agree h (hplaces place hplace) value
  | none => exact .throw _

end

/-! ## Blocked names -/

/-- Accesses that are the standard ones wherever no blocked name is used. What they do with a
blocked name is left open: they may answer anything, change anything or fail. -/
structure Access.StandardOffBlocked {σ : Type} (host : Host σ) (access : Access σ) : Prop where
  lookup : ∀ name, Unblocked name → access.lookup name = (Access.standard host).lookup name
  owner : ∀ name, Unblocked name → access.owner name = (Access.standard host).owner name
  setOwner : ∀ name, Unblocked name → access.setOwner name = (Access.standard host).setOwner name
  getMember : ∀ container key, Unblocked key →
    access.getMember container key = (Access.standard host).getMember container key
  openMember : ∀ container key, Unblocked key →
    access.openMember container key = (Access.standard host).openMember container key
  setMember : ∀ container key, Unblocked key →
    access.setMember container key = (Access.standard host).setMember container key
  call : ∀ f (receiver : Receiver), (∀ name, receiver = .owner name → Unblocked name) →
    access.call f receiver = (Access.standard host).call f receiver
  filter : access.filter = (Access.standard host).filter

theorem Access.StandardOffBlocked.agree {σ : Type} {host : Host σ} {access : Access σ}
    (h : access.StandardOffBlocked host) : access.Agree Eq (Access.standard host) where
  lookup name hname := .of_eq (h.lookup name hname)
  owner name hname := .of_eq (h.owner name hname)
  setOwner name hname value := .of_eq (congrFun (h.setOwner name hname) value)
  getMember container key hkey := .of_eq (h.getMember container key hkey)
  openMember container key hkey := .of_eq (h.openMember container key hkey)
  setMember container key hkey value := .of_eq (congrFun (h.setMember container key hkey) value)
  call f _ receiver hreceiver arguments _ := by
    have hnamed : ∀ name, receiver = .owner name → Unblocked name := by
      rintro name rfl
      exact hreceiver
    exact .of_eq (congrFun (h.call f receiver hnamed) arguments)
  filter filter arguments := .of_eq (congrFun (congrFun h.filter filter) arguments)

/-- **No blocked name is ever used.** Whatever an expression that compiles is evaluated or assigned
in, it looks up, reads, calls, opens and writes no member of a blocked name: accesses that treat
these names in any other way give the same results and leave the same worlds behind. -/
theorem Expression.blocked_names_unused {registry : Registry} {source : String}
    {expression : Expression} (h : ofSource registry source = .ok expression) {σ : Type}
    {host : Host σ} {access : Access σ} (haccess : access.StandardOffBlocked host) :
    expression.evalBy access = expression.eval host ∧
      ∀ value, expression.assignBy access value = expression.assign host value := by
  have hallowed := ofSource_allowed h
  constructor
  · rw [← evalBy_standard]
    exact (evalBy_agree haccess.agree hallowed).run_eq
  · intro value
    rw [← assignBy_standard]
    exact (assignBy_agree haccess.agree hallowed value).run_eq

def Run.trap {σ α : Type} (fault : EvalError) (name : String) (run : Run σ α) : Run σ α :=
  if name ∈ Guard.blockedMembers then throw fault else run

def Access.trapping {σ : Type} (host : Host σ) (fault : EvalError) : Access σ :=
  { Access.standard host with
    lookup name := Run.trap fault name ((Access.standard host).lookup name)
    owner name := Run.trap fault name ((Access.standard host).owner name)
    setOwner name value := Run.trap fault name ((Access.standard host).setOwner name value)
    getMember container key :=
      Run.trap fault key ((Access.standard host).getMember container key)
    openMember container key :=
      Run.trap fault key ((Access.standard host).openMember container key)
    setMember container key value :=
      Run.trap fault key ((Access.standard host).setMember container key value) }

theorem Access.trapping_standardOffBlocked {σ : Type} (host : Host σ) (fault : EvalError) :
    (Access.trapping host fault).StandardOffBlocked host where
  lookup _ hname := if_neg hname
  owner _ hname := if_neg hname
  setOwner _ hname := funext fun _ => if_neg hname
  getMember _ _ hkey := if_neg hkey
  openMember _ _ hkey := if_neg hkey
  setMember _ _ hkey := funext fun _ => if_neg hkey
  call _ _ _ := rfl
  filter := rfl

def Host.answering (answer : Function → Value) : Host Unit where
  call f _ _ := pure (answer f)
  filter _ _ := pure .undefined
  evaluator _ := pure .undefined

/-- A computed key springs no trap, whatever it is. -/
theorem Expression.computed_key_trapped : ∃ expression,
    ofSource .empty "a[b].c" = .ok expression ∧
      expression.evalBy (Access.trapping (Host.answering fun _ => .undefined) (.filter "trap")) =
        expression.eval (Host.answering fun _ => .undefined) := by
  obtain ⟨expression, h⟩ : ∃ expression, ofSource .empty "a[b].c" = .ok expression := ⟨_, by cbv⟩
  have htrapping :=
    Access.trapping_standardOffBlocked (Host.answering fun _ => .undefined) (.filter "trap")
  exact ⟨expression, h, (blocked_names_unused h htrapping).1⟩

end TemplateExpr

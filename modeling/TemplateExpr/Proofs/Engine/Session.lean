import TemplateExpr.Engine

/-!
# Sessions

A client uses one engine over and over. It parses and compiles texts, hands evaluators back to be
parsed, empties the cache, and evaluates and assigns with any evaluator it was ever given. A session
is what stands between two operations (`Session.step`); what an operation can do to the engine is
said once (`Session.Move`), and the invariants of sessions follow from that.
-/

namespace TemplateExpr

/-- What a client can ask for. The evaluators that it was given are its handles, numbered in the
order in which it got them. Scopes have names, and keep what is written into them. -/
inductive Operation where
  | parse (text : String)
  /-- Parses an evaluator that the client has. -/
  | parseHandle (handle : Nat)
  /-- Parses a source with nothing in it. -/
  | parseEmpty
  /-- Compiles a text without the cache. -/
  | compile (text : String)
  /-- Makes an expression by hand. -/
  | handWrite (name : String)
  | clear
  /-- Puts a value under the name of a scope. -/
  | put (scope : String) (value : Value)
  | eval (handle : Nat) (context : String) (locals : Option String)
  | assign (handle : Nat) (value : Value) (context : String) (locals : Option String)

def Operation.uncached : Operation → Operation
  | .parse text => .compile text
  | other => other

inductive Answer where
  | obtained (evaluator : Evaluator)
  | refused (fault : CompileError)
  /-- How an evaluation or an assignment ended, and the scope it left. -/
  | ended (result : Except EvalError Value) (left : Scope)
  | done
  /-- There is no such handle. -/
  | noHandle

def Answer.evaluators : Answer → List Evaluator
  | .obtained evaluator => [evaluator]
  | _ => []

/-- An answer, as far as it does not depend on identities. -/
def Answer.anonymous : Answer → Answer
  | .obtained evaluator => .obtained { evaluator with identity := 0 }
  | other => other

/-- What stands between two operations: the engine, and what the client holds. -/
structure Session (σ : Type) where
  engine : Engine
  handles : List Evaluator
  scopes : Entries Value
  host : σ

def Engine.compileNew (engine : Engine) (text : String) :
    Except CompileError Evaluator × Engine :=
  match engine.compile text with
  | .error fault => (.error fault, engine)
  | .ok expression =>
    let (evaluator, engine) := engine.share expression
    (.ok evaluator, engine)

namespace Session

variable {σ : Type}

def new (filters : Registry) (host : σ) : Session σ := ⟨.new filters, [], [], host⟩

def receive (session : Session σ) (made : Except CompileError Evaluator × Engine) :
    Answer × Session σ :=
  match made with
  | (.ok evaluator, engine) =>
    (.obtained evaluator, { session with engine, handles := session.handles ++ [evaluator] })
  | (.error fault, engine) => (.refused fault, { session with engine })

def scope (session : Session σ) (name : String) : Value :=
  (Entries.get? name session.scopes).getD .undefined

def runIn (session : Session σ) (context : String) (locals : Option String) (run : Run σ Value) :
    Answer × Session σ :=
  let (result, after) :=
    run.start ⟨⟨session.scope context, locals.map session.scope⟩, session.host⟩
  let scopes := Entries.insert context after.scope.context session.scopes
  let scopes := match locals, after.scope.locals with
    | some name, some value => Entries.insert name value scopes
    | _, _ => scopes
  (.ended result after.scope, { session with scopes, host := after.host })

def withHandle (session : Session σ) (handle : Nat) (act : Evaluator → Answer × Session σ) :
    Answer × Session σ :=
  match session.handles[handle]? with
  | some evaluator => act evaluator
  | none => (.noHandle, session)

/-- One operation: its answer, and the session after it. -/
def step (host : Host σ) (session : Session σ) : Operation → Answer × Session σ
  | .parse text => session.receive (session.engine.parse (.text text))
  | .parseHandle handle => session.withHandle handle fun evaluator =>
    session.receive (session.engine.parse (.evaluator evaluator))
  | .parseEmpty => session.receive (session.engine.parse .empty)
  | .compile text => session.receive (session.engine.compileNew text)
  | .handWrite name =>
    let (evaluator, engine) := session.engine.share (.handWritten name)
    session.receive (.ok evaluator, engine)
  | .clear => (.done, { session with engine := session.engine.clear })
  | .put scope value =>
    (.done, { session with scopes := Entries.insert scope value session.scopes })
  | .eval handle context locals => session.withHandle handle fun evaluator =>
    session.runIn context locals (evaluator.expression.eval host)
  | .assign handle value context locals => session.withHandle handle fun evaluator =>
    session.runIn context locals (evaluator.expression.assign host value)

def play (host : Host σ) (session : Session σ) (operations : List Operation) : Session σ :=
  operations.foldl (fun session operation => (session.step host operation).2) session

def answer (host : Host σ) (session : Session σ) (operations : List Operation)
    (next : Operation) : Answer :=
  ((session.play host operations).step host next).1

theorem play_append (host : Host σ) (session : Session σ) (before after : List Operation) :
    session.play host (before ++ after) = (session.play host before).play host after :=
  List.foldl_append

theorem play_snoc (host : Host σ) (session : Session σ) (operations : List Operation)
    (next : Operation) :
    session.play host (operations ++ [next]) =
      ((session.play host operations).step host next).2 :=
  play_append host session operations [next]

/-! ## What an operation can do -/

/-- What an operation can do to the engine and to the handles of a session, with the answer that it
gives. Only a text that is parsed and was not in the cache is added to it. -/
inductive Move (session : Session σ) : Operation → Answer → Session σ → Prop
  /-- Nothing: a failure, an evaluation, or a change of a scope. -/
  | rest (operation : Operation) (given : Answer) (after : Session σ)
    (hclear : operation ≠ .clear) (hgiven : ∀ evaluator, given ≠ .obtained evaluator)
    (hengine : after.engine = session.engine) (hhandles : after.handles = session.handles) :
    Move session operation given after
  /-- An evaluator is given back. -/
  | passed (handle : Nat) (evaluator : Evaluator) (after : Session σ)
    (hhandle : session.handles[handle]? = some evaluator) (hengine : after.engine = session.engine)
    (hhandles : after.handles = session.handles ++ [evaluator]) :
    Move session (.parseHandle handle) (.obtained evaluator) after
  /-- A text is found in the cache. -/
  | found (text : String) (evaluator : Evaluator) (after : Session σ)
    (hcached : Entries.get? text session.engine.cache = some evaluator)
    (hengine : after.engine = session.engine)
    (hhandles : after.handles = session.handles ++ [evaluator]) :
    Move session (.parse text) (.obtained evaluator) after
  /-- An evaluator is made and not cached. -/
  | made (operation : Operation) (expression : Expression) (after : Session σ)
    (hclear : operation ≠ .clear) (hparse : ∀ text, operation ≠ .parse text)
    (hengine : after.engine = { session.engine with issued := session.engine.issued + 1 })
    (hhandles : after.handles = session.handles ++ [⟨session.engine.issued, expression⟩]) :
    Move session operation (.obtained ⟨session.engine.issued, expression⟩) after
  /-- A text is compiled and cached. -/
  | cached (text : String) (expression : Expression) (after : Session σ)
    (hmissed : Entries.get? text session.engine.cache = none)
    (hcompile : session.engine.compile text = .ok expression)
    (hengine : after.engine =
      { session.engine with
        issued := session.engine.issued + 1
        cache := Entries.insert text ⟨session.engine.issued, expression⟩ session.engine.cache })
    (hhandles : after.handles = session.handles ++ [⟨session.engine.issued, expression⟩]) :
    Move session (.parse text) (.obtained ⟨session.engine.issued, expression⟩) after
  | cleared (after : Session σ) (hengine : after.engine = session.engine.clear)
    (hhandles : after.handles = session.handles) : Move session .clear .done after

theorem withHandle_move {session : Session σ} {handle : Nat} {operation : Operation}
    {act : Evaluator → Answer × Session σ} (hclear : operation ≠ .clear)
    (h : ∀ evaluator, session.handles[handle]? = some evaluator →
      session.Move operation (act evaluator).1 (act evaluator).2) :
    session.Move operation (session.withHandle handle act).1 (session.withHandle handle act).2 := by
  rw [withHandle]
  cases hhandle : session.handles[handle]? with
  | some evaluator => exact h evaluator hhandle
  | none => exact .rest _ _ _ hclear nofun rfl rfl

theorem step_move (host : Host σ) (session : Session σ) (operation : Operation) :
    session.Move operation (session.step host operation).1 (session.step host operation).2 := by
  cases operation with
  | parse text =>
    rw [step, Engine.parse]
    cases hcached : Entries.get? text session.engine.cache with
    | some evaluator => exact .found text evaluator _ hcached rfl rfl
    | none =>
      cases hcompile : session.engine.compile text with
      | error fault =>
        exact .rest _ _ _ nofun nofun rfl rfl
      | ok expression => exact .cached text expression _ hcached hcompile rfl rfl
  | parseHandle handle =>
    exact withHandle_move nofun fun evaluator hhandle =>
      .passed handle evaluator _ hhandle rfl rfl
  | parseEmpty =>
    exact .made _ .noop _ nofun nofun rfl rfl
  | compile text =>
    rw [step, Engine.compileNew]
    cases session.engine.compile text with
    | error fault => exact .rest _ _ _ nofun nofun rfl rfl
    | ok expression =>
      exact .made _ expression _ nofun nofun rfl rfl
  | handWrite name =>
    exact .made _ (.handWritten name) _ nofun nofun rfl rfl
  | clear => exact .cleared _ rfl rfl
  | put scope value =>
    exact .rest _ _ _ nofun nofun rfl rfl
  | eval handle context locals =>
    exact withHandle_move nofun fun evaluator _ =>
      .rest _ _ _ nofun nofun rfl rfl
  | assign handle value context locals =>
    exact withHandle_move nofun fun evaluator _ =>
      .rest _ _ _ nofun nofun rfl rfl

end Session

end TemplateExpr

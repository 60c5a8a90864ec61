import Mathlib
import TemplateExpr.Command
import TemplateExpr.Proofs.Program.Agreement
import TemplateExpr.Proofs.Program.Frame
import TemplateExpr.Proofs.Program.Inversion
import TemplateExpr.Proofs.Program.Literal

/-!
# Assignment is a lens

An expression that names a place by keys that are written out reads what was assigned to it, and
assigning twice is assigning the second time only (`Expression.assign_lens`).

Reading and writing are compiled apart, and meet here: the code that an expression is read by is the
place that it is written to, spelt out as code (`Node.compile_place`). What may come between the two
is the guard. It looks at a container when it is written through and again when it is read, and the
write may just have given it the last entry that it must not have.
-/

namespace TemplateExpr

/-! ## The code of a place -/

def Root.code : Root → Code
  | .name key => .name key
  | .this => .this
  | .temporary given => given

def Place.code (place : Place) : Code := place.path.foldl Code.member place.root.code

section

variable {registry : Registry}

theorem Node.KeyCompiles.unique {node : Node} {computed : Bool} {key key' : Key}
    (h : node.KeyCompiles registry computed key) (h' : node.KeyCompiles registry computed key') :
    key = key' := by
  cases h with
  | fixed flag name =>
    cases h'
    rfl
  | computed _ code hcode =>
    cases h' with
    | computed _ code' hcode' =>
      rw [hcode] at hcode'
      cases hcode'
      rfl

/-- **Reading and writing have one place.** A tree that is compiled both to a place and to code is
read by the code of the place. -/
theorem Node.compile_place : (node : Node) → ∀ {place : Place} {code : Code},
    node.compilePlace registry = .ok place → node.compile registry = .ok code → code = place.code
  | .identifier flag name, place, code, hplace, hcode => by
    rw [Node.identifierPlace_ok hplace]
    obtain ⟨given, hname, heq⟩ := bind_ok hcode
    obtain ⟨rfl, -⟩ := allowedName_ok hname
    cases heq
    rfl
  | .member flag target key computed, place, code, hplace, hcode => by
    obtain ⟨before, key', hstart, hkey, rfl⟩ := Node.memberPlace_ok hplace
    obtain ⟨target', key'', htarget, hkey', rfl⟩ := Node.member_ok hcode
    obtain rfl := hkey.unique hkey'
    have hbefore : target' = before.code := by
      generalize hroot : target = root at hstart
      cases hstart with
      | name _ _ _ hbefore | member _ _ _ _ _ hbefore =>
        rw [← hroot] at hbefore
        exact Node.compile_place target hbefore htarget
      | this flag =>
        rw [hroot] at htarget
        cases htarget
        rfl
      | temporary _ code _ _ _ hcode =>
        rw [← hroot, htarget] at hcode
        cases hcode
        rfl
    rw [hbefore, Place.code, Place.code, List.foldl_append]
    rfl
  | .program .., _, _, h, _ | .literal .., _, _, h, _ | .array .., _, _, h, _
  | .object .., _, _, h, _ | .this .., _, _, h, _ | .call .., _, _, h, _
  | .assignment .., _, _, h, _ | .unary .., _, _, h, _ | .binary .., _, _, h, _
  | .logical .., _, _, h, _ | .conditional .., _, _, h, _ => by cases h

theorem Expression.reading_place {source : String} {tree : Node} {expression : Expression}
    {place : Place} (h : ofTree registry source tree = .ok expression)
    (hplace : expression.place = some place) : expression.reading = .statements [place.code] := by
  unfold ofTree at h
  cases tree with
  | program flag body =>
    obtain ⟨codes, hcodes, h⟩ := bind_ok h
    obtain ⟨found, hfound, heq⟩ := bind_ok h
    cases heq
    obtain rfl : found = some place := hplace
    obtain ⟨single, rfl, hsingle⟩ : ∃ single, body = [single] ∧
        single.compilePlace registry = .ok place := by
      unfold place? at hfound
      split at hfound
      · obtain ⟨_, hcompile, heq⟩ := map_ok hfound
        cases heq
        exact ⟨_, rfl, hcompile⟩
      · obtain ⟨_, hcompile, heq⟩ := map_ok hfound
        cases heq
        exact ⟨_, rfl, hcompile⟩
      · cases hfound
    obtain ⟨code, hcode, hrest⟩ := bind_ok hcodes
    obtain rfl := Node.compile_place single hsingle hcode
    cases hrest
    rfl
  | _ => cases h

end

/-! ## Keys that are written out -/

/-- That a key is a name that is written out: as a name, or as code that is a literal. -/
inductive Key.Spells : Key → String → Prop where
  | fixed (name : String) : Key.Spells (.fixed name) name
  | computed {code : Code} {value : Value} (h : code.literalValue? = some value) :
      Key.Spells (.computed code) value.display

inductive Place.Spells : Place → Target → Prop where
  | name {name : String} {keys : List Key} {path : List String}
      (h : List.Forall₂ Key.Spells keys path) : Place.Spells ⟨.name name, keys⟩ (.name name path)
  | this {keys : List Key} {path : List String} (h : List.Forall₂ Key.Spells keys path)
      (hmember : path ≠ []) : Place.Spells ⟨.this, keys⟩ (.this path)

namespace Target

/-- The value that a target's path leads on from, as reading finds it. -/
def head (target : Target) (scope : Scope) : Value :=
  match target with
  | .name key _ => scope.lookup key
  | .this _ => scope.context
  | .temporary value _ => value

def path : Target → List String
  | .name _ names | .this names | .temporary _ names => names

end Target

section

variable {σ : Type} {host : Host σ}

theorem Run.start_guarded (check : Except SecurityError Unit) (world : World σ) :
    (Run.guarded check : Run σ Unit).start world = (check.mapError .security, world) := by
  cases check <;> rfl

theorem Run.start_safe (value : Value) (world : World σ) :
    (Run.safe value : Run σ Value).start world =
      (((Guard.checkObject value).map fun _ => value).mapError .security, world) := by
  cases h : Guard.checkObject value <;> rw [Run.safe, h] <;> rfl

/-- A key that is written out is its name, or a name that is blocked. -/
theorem Key.Spells.eval (host : Host σ) {key : Key} {name : String} (h : key.Spells name) :
    key.eval host = pure name ∨ ∃ violation, key.eval host = throw (.security violation) := by
  cases h with
  | fixed => exact .inl rfl
  | @computed code value hvalue =>
    rw [Key.eval, Code.eval_of_literalValue? host code hvalue, pure_bind]
    dsimp only
    cases hcheck : Guard.checkName value.display with
    | ok => exact .inl rfl
    | error violation => exact .inr ⟨violation, rfl⟩

theorem Key.evalAll_spells (host : Host σ) {keys : List Key} {path : List String}
    (h : List.Forall₂ Key.Spells keys path) :
    (Key.evalAll host keys = pure path ∧
      List.Forall₂ (fun key name => key.eval host = pure name) keys path) ∨
    ∃ violation, Key.evalAll host keys = throw (.security violation) := by
  induction h with
  | nil => exact .inl ⟨rfl, .nil⟩
  | @cons key name keys path hkey hkeys ih =>
    rcases hkey.eval host with hname | ⟨violation, hblocked⟩
    · rcases ih with ⟨hpath, hall⟩ | ⟨violation, hblocked⟩
      · rw [Key.evalAll, hname, pure_bind, hpath, pure_bind]
        exact .inl ⟨rfl, .cons hname hall⟩
      · rw [Key.evalAll, hname, pure_bind, hblocked]
        exact .inr ⟨violation, rfl⟩
    · rw [Key.evalAll, hblocked]
      exact .inr ⟨violation, rfl⟩

namespace Place.Spells

variable {place : Place} {target : Target}

theorem lasting (h : place.Spells target) : target.Lasting := by
  cases h <;> trivial

theorem keys_ne_nil (h : place.Spells target) : target.keys ≠ [] := by
  cases h with
  | name => exact List.cons_ne_nil _ _
  | this _ hmember => exact hmember

/-- A place whose keys are written out is the target that it spells, unless a name in it is
blocked. -/
theorem target_eq (host : Host σ) (h : place.Spells target) :
    (place.target host = pure target ∧
      List.Forall₂ (fun key name => key.eval host = pure name) place.path target.path) ∨
    ∃ violation, place.target host = throw (.security violation) := by
  cases h with
  | name h | this h =>
    rcases Key.evalAll_spells host h with ⟨hpath, hall⟩ | ⟨violation, hblocked⟩
    · refine .inl ⟨?_, hall⟩
      rw [Place.target, Root.eval, hpath]
      rfl
    · refine .inr ⟨violation, ?_⟩
      rw [Place.target, Root.eval, hblocked]
      rfl

end Place.Spells

/-! ## Reading along a path -/

/-- What the guard says of the containers that a path leads through, the outermost first. -/
def Guard.checkWay : List String → Value → Except SecurityError Unit
  | [], _ => .ok ()
  | key :: path, container => do
    Guard.checkObject container
    Guard.checkWay path (container.getMember key)

def Guard.checkPath (path : List String) (container : Value) : Except SecurityError Unit := do
  Guard.checkWay path container
  Guard.checkObject (container.reach path)

theorem Guard.checkPath_nil (container : Value) :
    Guard.checkPath [] container = Guard.checkObject container := rfl

theorem Guard.checkPath_cons (key : String) (path : List String) (container : Value) :
    Guard.checkPath (key :: path) container =
      (Guard.checkObject container >>= fun _ =>
        Guard.checkPath path (container.getMember key)) := by
  rw [Guard.checkPath, Guard.checkWay, bind_assoc]
  rfl

theorem Guard.checkPath_of_last {path : List String} {container : Value}
    (h : Guard.checkObject (container.reach path) = .ok ()) :
    Guard.checkPath path container = Guard.checkWay path container := by
  rw [Guard.checkPath, h]
  cases Guard.checkWay path container <;> rfl

theorem Guard.checkObject_of_isNullish {value : Value} (h : value.isNullish = true) :
    Guard.checkObject value = .ok () := by
  cases value <;> first | rfl | cases h

namespace Code

variable {code : Code} {container : Value} {keys : List Key} {names : List String}
  {world after : World σ}

theorem eval_members_error {fault : EvalError}
    (h : (code.eval host).start world = (.error fault, after)) :
    ((keys.foldl Code.member code).eval host).start world = (.error fault, after) := by
  induction keys generalizing code with
  | nil => exact h
  | cons key keys ih =>
    apply ih
    rw [Code.eval, Run.start_bind, h]

/-- A member is handed out only if its container and the member are safe. Where no container is, the
member is undefined, and that is safe. -/
theorem eval_member {key : Key} {name : String} (hkey : key.eval host = pure name)
    (h : (code.eval host).start world = (.ok container, after)) :
    ((Code.member code key).eval host).start world =
      match Guard.checkObject container with
      | .ok () => (Run.safe (container.getMember name)).start after
      | .error violation => (.error (.security violation), after) := by
  rw [Code.eval, Run.start_bind, h]
  dsimp only
  by_cases hthere : container.isNullish
  · rw [if_pos hthere, Guard.checkObject_of_isNullish hthere, Value.getMember_of_isNullish hthere]
    rfl
  · rw [if_neg hthere, hkey, pure_bind, Run.start_bind, Run.start_guarded]
    cases Guard.checkObject container <;> rfl

/-- **Members of a value that is handed out only if it is safe.** The last member is what is read,
unless something on the way or the member itself is not safe. -/
theorem eval_members (hkeys : List.Forall₂ (fun key name => key.eval host = pure name) keys names)
    (h : (code.eval host).start world = (Run.safe container).start world) :
    ((keys.foldl Code.member code).eval host).start world =
      (((Guard.checkPath names container).map fun _ => container.reach names).mapError .security,
        world) := by
  induction hkeys generalizing code container with
  | nil => rw [List.foldl_nil, h, Run.start_safe, Guard.checkPath_nil, Value.reach_nil]
  | @cons key name keys names hkey hkeys ih =>
    rw [Run.start_safe] at h
    rw [List.foldl_cons, Guard.checkPath_cons]
    cases hcheck : Guard.checkObject container with
    | error violation =>
      rw [hcheck] at h
      apply eval_members_error
      rw [Code.eval, Run.start_bind, h]
      rfl
    | ok =>
      rw [hcheck] at h
      have hmember := eval_member hkey h
      rw [hcheck] at hmember
      exact ih hmember

/-- Members of a value that is handed out unseen by the guard. It is looked at when its first member
is read. -/
theorem eval_members_unseen
    (hkeys : List.Forall₂ (fun key name => key.eval host = pure name) keys names)
    (hnames : names ≠ []) (h : (code.eval host).start world = (.ok container, world)) :
    ((keys.foldl Code.member code).eval host).start world =
      (((Guard.checkPath names container).map fun _ => container.reach names).mapError .security,
        world) := by
  cases hkeys with
  | nil => exact absurd rfl hnames
  | @cons key name keys names hkey hkeys =>
    have hmember := eval_member hkey h
    rw [List.foldl_cons, Guard.checkPath_cons]
    cases hcheck : Guard.checkObject container with
    | error violation =>
      rw [hcheck] at hmember
      exact eval_members_error hmember
    | ok =>
      rw [hcheck] at hmember
      exact eval_members hkeys hmember

end Code

/-! ## The laws -/

/-- What an assignment to a resolved place comes to when it succeeds. -/
theorem Place.assign_ok_iff {place : Place} {target : Target} {value given : Value}
    {before after : World σ} (htarget : place.target host = pure target) :
    (place.assign host value).start before = (.ok given, after) ↔
      given = value ∧ Guard.checkObject value = .ok () ∧ after.host = before.host ∧
        target.write value before.scope = (.ok (), after.scope) := by
  rw [Place.assign, htarget, pure_bind, Run.start_bind, Run.start_guarded]
  cases Guard.checkObject value with
  | error violation => simp [Except.mapError]
  | ok =>
    dsimp only [Except.mapError]
    rw [Run.start_bind, Run.start_write]
    obtain ⟨scope, state⟩ := after
    rcases target.write value before.scope with ⟨_ | _, written⟩
    · simp
    · show ((Except.ok value, (⟨written, before.host⟩ : World σ)) = (_, _)) ↔ _
      simp [eq_comm, and_comm]

theorem Place.assign_blocked {place : Place} {value given : Value} {before after : World σ}
    {violation : SecurityError} (hblocked : place.target host = throw (.security violation)) :
    (place.assign host value).start before ≠ (.ok given, after) := by
  rw [Place.assign, hblocked, Run.start_bind, Run.start_guarded]
  cases Guard.checkObject value with
  | error fault => simp [Except.mapError]
  | ok =>
    show (Except.error (EvalError.security violation), before) ≠ _
    simp

/-- The code of a place reads along its path. What is there is handed out if the guard lets all on
the way and the end of it pass. -/
theorem Place.Spells.eval_code {place : Place} {target : Target} (h : place.Spells target)
    (hkeys : List.Forall₂ (fun key name => key.eval host = pure name) place.path target.path)
    (world : World σ) :
    (place.code.eval host).start world =
      (((Guard.checkPath target.path (target.head world.scope)).map fun _ =>
        (target.head world.scope).reach target.path).mapError .security, world) := by
  cases h with
  | name => exact Code.eval_members hkeys rfl
  | this _ hmember => exact Code.eval_members_unseen hkeys hmember rfl

/-- After a write to a place, its code reads what was written, if the guard lets it pass. -/
theorem Place.Spells.eval_written {place : Place} {target : Target} {value : Value}
    {before : Scope} {after : World σ} (h : place.Spells target)
    (hkeys : List.Forall₂ (fun key name => key.eval host = pure name) place.path target.path)
    (hsafe : Guard.checkObject value = .ok ())
    (hwrite : target.write value before = (.ok (), after.scope)) :
    (place.code.eval host).start after =
      (((Guard.checkWay target.path (target.head after.scope)).map fun _ => value).mapError
        .security, after) := by
  obtain ⟨hwritten, -, -⟩ := Target.write_ok h.lasting hwrite
  have hself := (writePath_written hwritten h.keys_ne_nil).reach_self
  have hvalue : (target.head after.scope).reach target.path = value := by
    cases h <;> exact hself
  rw [h.eval_code hkeys, Guard.checkPath_of_last (hvalue ▸ hsafe), hvalue]

/-- **Assignment is a lens.** Let an expression be a name or a member of the context with a path of
keys that are written out, and let a value have been assigned to it.

Then evaluating it gives that value and changes nothing, unless the guard now refuses a container
that it is read from; the first such violation, from the outermost container on, is the error. An
assignment that succeeds after it ends as it would have ended without the first. And the value that
was written into, which is that of the locals if these had an entry of the name already and the
context otherwise, is the one that the name belongs to afterwards. -/
theorem Expression.assign_lens {registry : Registry} {source : String} {tree : Node}
    {expression : Expression} {place : Place} {target : Target}
    (h : ofTree registry source tree = .ok expression) (hplace : expression.place = some place)
    (hspells : place.Spells target) {value given : Value} {before after : World σ}
    (hassign : (expression.assign host value).start before = (.ok given, after)) :
    (expression.eval host).start after =
        (((Guard.checkWay target.path (target.head after.scope)).map fun _ => value).mapError
          .security, after) ∧
      (∀ (second given' : Value) (last : World σ),
        (expression.assign host second).start after = (.ok given', last) →
          (expression.assign host second).start before = (.ok given', last)) ∧
      target.inLocals after.scope = target.inLocals before.scope ∧
      after.scope =
        if target.inLocals before.scope then
          ⟨before.scope.context, some (target.base after.scope)⟩
        else ⟨target.base after.scope, before.scope.locals⟩ := by
  have hassigns : ∀ value, expression.assign host value = place.assign host value := by
    intro value
    rw [assign, hplace]
  simp only [hassigns] at hassign ⊢
  rcases hspells.target_eq host with ⟨htarget, hkeys⟩ | ⟨violation, hblocked⟩
  · obtain ⟨-, hsafe, hhost, hwrite⟩ := (Place.assign_ok_iff htarget).mp hassign
    refine ⟨?putGet, ?putPut, (Target.write_ok hspells.lasting hwrite).2⟩
    case putGet =>
      rw [eval, reading_place h hplace]
      show (place.code.eval host >>= pure).start after = _
      rw [bind_pure]
      exact hspells.eval_written hkeys hsafe hwrite
    case putPut =>
      intro second given' last hsecond
      obtain ⟨rfl, hsafe', hhost', hwrite'⟩ := (Place.assign_ok_iff htarget).mp hsecond
      exact (Place.assign_ok_iff htarget).mpr ⟨rfl, hsafe', hhost'.trans hhost,
        Target.write_again hspells.lasting hspells.keys_ne_nil hwrite hwrite'⟩
  · exact (Place.assign_blocked hblocked hassign).elim

def almostGlobal : Scope where
  context := .record [("a", .null)]
  locals := some (.record [("a", .array [.record [("document", .null), ("location", .null)]])])

/-- A record is written into, and is not read from any more. -/
theorem Expression.refused_after_assignment : ∃ tree expression after,
    treeOf "a[0].window" = .ok tree ∧ ofTree .empty "a[0].window" tree = .ok expression ∧
      (expression.assign Host.none (.integer 1)).start ⟨almostGlobal, ()⟩ =
        (.ok (.integer 1), after) ∧
      (expression.eval Host.none).start after = (.error (.security .globalObject), after) ∧
      after.scope.context = almostGlobal.context := by
  obtain ⟨tree, expression, htree, h, hplace⟩ : ∃ tree expression,
      treeOf "a[0].window" = .ok tree ∧ ofTree .empty "a[0].window" tree = .ok expression ∧
        expression.place = some ⟨.name "a", [.computed (.literal (.integer 0)), .fixed "window"]⟩ :=
    ⟨_, _, by cbv, by cbv, rfl⟩
  have hzero : Key.Spells (.computed (.literal (.integer 0))) "0" :=
    .computed (show Code.literalValue? _ = some (.integer 0) from rfl)
  have hspells : Place.Spells ⟨.name "a", [.computed (.literal (.integer 0)), .fixed "window"]⟩
      (.name "a" ["0", "window"]) := .name (.cons hzero (.cons (.fixed "window") .nil))
  obtain ⟨after, hassign, hway⟩ : ∃ after,
      (expression.assign Host.none (.integer 1)).start ⟨almostGlobal, ()⟩ =
        (.ok (.integer 1), after) ∧
      Guard.checkWay ["0", "window"] (after.scope.lookup "a") = .error .globalObject := by
    rw [assign, hplace]
    exact ⟨_, rfl, rfl⟩
  obtain ⟨hread, -, -, hscope⟩ := assign_lens h hplace hspells hassign
  refine ⟨tree, expression, after, htree, h, hassign, ?_, ?_⟩
  · rw [hread, Target.path, Target.head, hway]
    rfl
  · rw [hscope]
    rfl

end

end TemplateExpr

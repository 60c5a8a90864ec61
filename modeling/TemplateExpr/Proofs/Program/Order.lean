import TemplateExpr.Proofs.Program.Calls
import TemplateExpr.Proofs.Program.Interpreter

/-!
# The order of calls

Evaluation makes the calls of a tree in post-order, and may leave some out. Here the interpreter
notes where it makes a call (`Calls.noting`), and its notes turn out to be a part of the listing of
the tree, in the same order (`Node.interpret_traces`). As nothing is listed twice, nothing is called
twice.

What is left out is what the data makes needless: each law of `Node.Skips` says that a node ends
exactly as a part of it does, notes included, so that the rest of it made no call.
-/

namespace TemplateExpr

variable {σ ν α β : Type}

/-! ## Noting where calls are made -/

/-- A host that notes an address for every function that it calls. The note comes first, so that a
call that fails is noted too. -/
def Host.notingAt (host : Host σ) (here : Address) : Host (σ × List Address) :=
  { host.beside with
    call f receiver arguments := do
      HostRun.note here
      (host.call f receiver arguments).beside }

/-- Calls as a host makes them, with notes of where they are made. What a filter calls is no call of
the tree. -/
def Calls.noting (host : Host σ) : Calls (σ × List Address) where
  call here := (host.notingAt here).invoke
  filter here filter arguments := Run.ofHost do
    HostRun.note here
    filter.apply host.beside arguments

def World.beside (world : World σ) (notes : ν) : World (σ × ν) :=
  ⟨world.scope, (world.host, notes)⟩

/-- That `noted` is `run` with notes, and that what it adds to the notes is a part of `listing`. -/
def Run.Traces (listing : List ν) (run : Run σ α) (noted : Run (σ × List ν) α) : Prop :=
  ∀ (world : World σ) (notes : List ν), ∃ trace, trace.Sublist listing ∧
    noted.start (world.beside notes) =
      ((run.start world).1, (run.start world).2.beside (notes ++ trace))

namespace Run.Traces

variable {listing listing' : List ν} {run : Run σ α} {noted : Run (σ × List ν) α}

theorem silent (h : ∀ (world : World σ) (notes : List ν),
    noted.start (world.beside notes) = ((run.start world).1, (run.start world).2.beside notes)) :
    Traces listing run noted := by
  intro world notes
  refine ⟨[], List.nil_sublist listing, ?_⟩
  rw [List.append_nil]
  exact h world notes

theorem pure (value : α) :
    Traces listing (Pure.pure value : Run σ α) (Pure.pure value : Run (σ × List ν) α) :=
  silent fun _ _ => rfl

theorem throw (fault : EvalError) :
    Traces listing (throw fault : Run σ α) (throw fault : Run (σ × List ν) α) :=
  silent fun _ _ => rfl

theorem scope : Traces listing (Run.scope : Run σ Scope) (Run.scope : Run (σ × List ν) Scope) :=
  silent fun _ _ => rfl

theorem guarded (check : Except SecurityError Unit) :
    Traces listing (Run.guarded check : Run σ Unit)
      (Run.guarded check : Run (σ × List ν) Unit) := by
  cases check with
  | ok => exact .pure ()
  | error violation => exact .throw _

theorem weaken (h : Traces listing run noted) (hlisting : listing.Sublist listing') :
    Traces listing' run noted := by
  intro world notes
  obtain ⟨trace, hsub, hend⟩ := h world notes
  exact ⟨trace, hsub.trans hlisting, hend⟩

theorem bind {next : α → Run σ β} {notedNext : α → Run (σ × List ν) β}
    (h : Traces listing run noted)
    (hnext : ∀ value, Traces listing' (next value) (notedNext value)) :
    Traces (listing ++ listing') (run >>= next) (noted >>= notedNext) := by
  intro world notes
  obtain ⟨trace, hsub, hend⟩ := h world notes
  rw [Run.start_bind, Run.start_bind, hend]
  rcases run.start world with ⟨fault | value, after⟩
  · exact ⟨trace, hsub.trans (List.sublist_append_left listing listing'), rfl⟩
  · obtain ⟨trace', hsub', hend'⟩ := hnext value after (notes ++ trace)
    refine ⟨trace ++ trace', hsub.append hsub', ?_⟩
    rw [← List.append_assoc]
    exact hend'

theorem after {next : α → Run σ β} {notedNext : α → Run (σ × List ν) β}
    (h : Traces [] run noted) (hnext : ∀ value, Traces listing (next value) (notedNext value)) :
    Traces listing (run >>= next) (noted >>= notedNext) :=
  h.bind hnext

theorem before {next : α → Run σ β} {notedNext : α → Run (σ × List ν) β}
    (h : Traces listing run noted) (hnext : ∀ value, Traces [] (next value) (notedNext value)) :
    Traces listing (run >>= next) (noted >>= notedNext) := by
  rw [← List.append_nil listing]
  exact h.bind hnext

theorem map (h : Traces listing run noted) (f : α → β) :
    Traces listing (f <$> run) (f <$> noted) := by
  rw [map_eq_pure_bind, map_eq_pure_bind]
  exact h.before fun value => .pure (f value)

theorem ite {c : Prop} [Decidable c] {run' : Run σ α} {noted' : Run (σ × List ν) α}
    (h : Traces listing run noted) (h' : Traces listing run' noted') :
    Traces listing (if c then run else run') (if c then noted else noted') := by
  split
  · exact h
  · exact h'

theorem safe (value : Value) :
    Traces listing (Run.safe value : Run σ Value) (Run.safe value : Run (σ × List ν) Value) :=
  (guarded (Guard.checkObject value)).after fun _ => .pure value

theorem write (target : Target) (value : Value) :
    Traces listing (Run.write target value : Run σ Unit)
      (Run.write target value : Run (σ × List ν) Unit) := by
  refine silent fun world notes => ?_
  rw [Run.start_write, Run.start_write]
  rfl

end Run.Traces

/-! ## The calls of a host -/

theorem Agree.beside_at (notes : ν) (run : HostRun σ α) :
    Agree (fun state noted => noted = (state, notes)) Anything run run.beside := by
  rintro state _ rfl
  exact ⟨rfl, rfl, fun _ _ => trivial⟩

theorem Host.beside_agree_at (host : Host σ) (notes : ν) :
    host.Agree (fun state noted => noted = (state, notes)) host.beside where
  call _ _ _ _ := .beside_at notes _
  filter _ _ := .beside_at notes _

/-- Where a note is made and then something done that notes nothing. -/
theorem Run.Traces.noted {here : ν} {run : HostRun σ α} {noted : HostRun (σ × List ν) α}
    (h : ∀ notes, Agree (fun state noted => noted = (state, notes)) Anything run noted) :
    Run.Traces [here] (Run.ofHost run)
      (Run.ofHost (HostRun.note here >>= fun _ => noted)) := by
  intro world notes
  refine ⟨[here], .refl _, ?_⟩
  obtain ⟨hresult, hstate, -⟩ := h (notes ++ [here]) world.host _ rfl
  show ((noted.start (world.host, notes ++ [here])).1,
      (⟨world.scope, (noted.start (world.host, notes ++ [here])).2⟩ : World (σ × List ν))) = _
  rw [← hresult, hstate]
  rfl

theorem Calls.noting_filter (host : Host σ) (here : Address) (filter : Filter)
    (given : List Value) :
    Run.Traces [here] ((Calls.standard host).filter here filter given)
      ((Calls.noting host).filter here filter given) :=
  .noted fun notes => Filter.apply_agree (host.beside_agree_at notes) filter given

theorem Calls.noting_call (host : Host σ) (here : Address) (callee receiver : Value)
    (given : List Value) :
    Run.Traces [here] ((Calls.standard host).call here callee receiver given)
      ((Calls.noting host).call here callee receiver given) := by
  cases callee with
  | function f =>
    have hcall : Run.Traces [here] (Run.ofHost (host.call f receiver given))
        (Run.ofHost ((host.notingAt here).call f receiver given)) :=
      .noted fun notes => .beside_at notes _
    exact hcall.before fun result => (Run.Traces.guarded _).after fun _ => .pure result
  | _ => exact .throw _

/-! ## The calls of a tree -/

section

variable (host : Host σ) (registry : Registry)

theorem Node.memberName_traces {here : Address} {key : Node} (computed : Bool) {value : Run σ Value}
    {noted : Run (σ × List Address) Value} (h : Run.Traces (key.calls here) value noted) :
    Run.Traces (key.calls here) (Node.memberName computed key value)
      (Node.memberName computed key noted) := by
  cases computed with
  | true => exact h.before fun value => (Run.Traces.guarded _).after fun _ => .pure _
  | false => cases key <;> exact .pure _

theorem Run.memberCallee_traces {listing listing' : List ν} {object : Run σ Value}
    {notedObject : Run (σ × List ν) Value} {key : Run σ String} {notedKey : Run (σ × List ν) String}
    (hobject : Run.Traces listing object notedObject) (hkey : Run.Traces listing' key notedKey) :
    Run.Traces (listing ++ listing') (Run.memberCallee object key)
      (Run.memberCallee notedObject notedKey) :=
  hobject.bind fun _ => .ite (.pure _) <|
    (Run.Traces.guarded _).after fun _ => hkey.before fun _ => .pure _

theorem Node.placeStart_traces {listing : List ν} (target : Node) {place : Run σ Target}
    {notedPlace : Run (σ × List ν) Target} {value : Run σ Value}
    {notedValue : Run (σ × List ν) Value} (hplace : Run.Traces listing place notedPlace)
    (hvalue : Run.Traces listing value notedValue) :
    Run.Traces listing (target.placeStart place value)
      (target.placeStart notedPlace notedValue) := by
  cases target with
  | identifier | member => exact hplace
  | this => exact .pure _
  | _ => exact hvalue.before fun value => (Run.Traces.safe value).after fun _ => .pure _

mutual
/-- **Calls are made in the order of the listing.** The calls that a tree makes are a part of those
that are listed for it, in the same order. -/
theorem Node.interpret_traces : (node : Node) → ∀ here : Address,
    Run.Traces (node.calls here) (node.interpret registry (.standard host) here)
      (node.interpret registry (.noting host) here)
  | .program _ body, here => Node.interpretStatements_traces body here 0 .undefined
  | .literal _ value, here => .pure _
  | .array _ elements, here => (Node.interpretAll_traces elements here 0).before fun _ => .pure _
  | .object _ properties, here =>
    (Node.interpretEntries_traces properties here 0 []).before fun _ => .pure _
  | .identifier _ name, here => Run.Traces.scope.after fun scope => .safe _
  | .this _, here => Run.Traces.scope.after fun scope => .pure _
  | .member _ target key computed, here => by
    refine (Node.interpret_traces target (0 :: here)).bind fun container => ?_
    refine .ite (.pure _) ((Run.Traces.guarded _).after fun _ => ?_)
    exact (Node.memberName_traces computed (Node.interpret_traces key (1 :: here))).before
      fun name => .safe _
  | .call _ callee arguments true, here => by
    rw [Node.calls, List.append_assoc]
    refine Run.Traces.weaken ?_ (List.sublist_append_right _ _)
    refine (Node.interpretAll_traces arguments here 1).bind fun given => ?_
    cases callee.filterName >>= registry.lookup with
    | ok filter =>
      exact (Calls.noting_filter host here filter given).before fun value => .safe value
    | error fault => exact .throw _
  | .call _ callee arguments false, here => by
    have hcallee : Run.Traces (callee.calls (0 :: here))
        (callee.interpretCallee registry (.standard host) (0 :: here))
        (callee.interpretCallee registry (.noting host) (0 :: here)) := by
      cases callee with
      | member _ target key computed =>
        exact Run.memberCallee_traces (Node.interpret_traces target (0 :: 0 :: here))
          (Node.memberName_traces computed (Node.interpret_traces key (1 :: 0 :: here)))
      | identifier _ name => exact Run.Traces.scope.after fun scope => .pure _
      | _ => exact (Node.interpret_traces _ (0 :: here)).map _
    rw [Node.interpret_call, Node.interpret_call, Node.calls, List.append_assoc]
    refine hcallee.bind fun ⟨function, receiver⟩ => .ite (.pure _) ?_
    refine (Run.Traces.guarded _).after fun _ => ?_
    refine (Node.interpretArguments_traces arguments here 1).bind fun given => ?_
    exact Run.Traces.scope.after fun scope => Calls.noting_call host here function _ given
  | .assignment _ left right, here => by
    refine (Node.interpretTarget_traces left (0 :: here)).bind fun target => ?_
    refine (Node.interpret_traces right (1 :: here)).before fun value => ?_
    refine (Run.Traces.safe value).after fun value => ?_
    exact (Run.Traces.write target value).after fun _ => .pure value
  | .unary _ op argument, here =>
    (Node.interpret_traces argument (0 :: here)).before fun _ => .pure _
  | .binary _ op left right, here => by
    refine (Node.interpret_traces left (0 :: here)).bind fun left => ?_
    exact (Node.interpret_traces right (1 :: here)).before fun right => .pure _
  | .logical _ op left right, here => by
    refine (Node.interpret_traces left (0 :: here)).bind fun left => ?_
    exact .ite (.pure left) (Node.interpret_traces right (1 :: here))
  | .conditional _ test consequent alternate, here => by
    rw [Node.calls, List.append_assoc]
    refine (Node.interpret_traces test (0 :: here)).bind fun test => .ite ?_ ?_
    · exact (Node.interpret_traces consequent (1 :: here)).weaken (List.sublist_append_left _ _)
    · exact (Node.interpret_traces alternate (2 :: here)).weaken (List.sublist_append_right _ _)

theorem Node.interpretAll_traces : (nodes : List Node) → ∀ (here : Address) (first : Nat),
    Run.Traces (Node.callsAll here first nodes)
      (Node.interpretAll registry (.standard host) here first nodes)
      (Node.interpretAll registry (.noting host) here first nodes)
  | [], _, _ => .pure _
  | node :: nodes, here, first => by
    refine (Node.interpret_traces node (first :: here)).bind fun value => ?_
    exact (Node.interpretAll_traces nodes here (first + 1)).before fun values => .pure _

theorem Node.interpretArguments_traces : (nodes : List Node) → ∀ (here : Address) (first : Nat),
    Run.Traces (Node.callsAll here first nodes)
      (Node.interpretArguments registry (.standard host) here first nodes)
      (Node.interpretArguments registry (.noting host) here first nodes)
  | [], _, _ => .pure _
  | node :: nodes, here, first => by
    refine (Node.interpret_traces node (first :: here)).bind fun value => ?_
    refine (Run.Traces.safe value).after fun value => ?_
    exact (Node.interpretArguments_traces nodes here (first + 1)).before fun values => .pure _

theorem Node.interpretEntries_traces : (entries : List (PropertyKey × Node)) →
    ∀ (here : Address) (first : Nat) (before : List (String × Value)),
    Run.Traces (Node.callsEntries here first entries)
      (Node.interpretEntries registry (.standard host) here first before entries)
      (Node.interpretEntries registry (.noting host) here first before entries)
  | [], _, _, _ => .pure _
  | (key, node) :: entries, here, first, before => by
    refine (Node.interpret_traces node (first :: here)).bind fun value => ?_
    exact Node.interpretEntries_traces entries here (first + 1) _

theorem Node.interpretStatements_traces : (nodes : List Node) →
    ∀ (here : Address) (first : Nat) (last : Value),
    Run.Traces (Node.callsAll here first nodes)
      (Node.interpretStatements registry (.standard host) here first last nodes)
      (Node.interpretStatements registry (.noting host) here first last nodes)
  | [], _, _, _ => .pure _
  | node :: nodes, here, first, last => by
    refine (Node.interpret_traces node (first :: here)).bind fun value => ?_
    exact Node.interpretStatements_traces nodes here (first + 1) value

/-- The left side of an assignment makes its calls while the target is resolved. -/
theorem Node.interpretTarget_traces : (node : Node) → ∀ here : Address,
    Run.Traces (node.calls here) (node.interpretTarget registry (.standard host) here)
      (node.interpretTarget registry (.noting host) here)
  | .identifier _ name, here => .pure _
  | .member _ target key computed, here => by
    refine (Node.placeStart_traces target (Node.interpretTarget_traces target (0 :: here))
      (Node.interpret_traces target (0 :: here))).bind fun before => ?_
    exact (Node.memberName_traces computed (Node.interpret_traces key (1 :: here))).before
      fun name => .pure _
  | .program .., _ | .literal .., _ | .array .., _ | .object .., _ | .this .., _ | .call .., _
  | .assignment .., _ | .unary .., _ | .binary .., _ | .logical .., _ | .conditional .., _ =>
    .throw _
end

end

/-! ## What is left out -/

/-- What evaluation does not look at. In each law a part of a node has ended in `after`, and what is
left out of the node makes no call, as the node ends in `after` too, or goes on from there. -/
structure Node.Skips (registry : Registry) (calls : Calls σ) : Prop where
  /-- The second operand of a logical operator that the first settles. -/
  operand : ∀ (here : Address) (flag : Bool) (op : LogicalOp) (left right : Node)
    (world after : World σ) (value : Value),
    (left.interpret registry calls (0 :: here)).start world = (.ok value, after) →
    op.settledBy value = true →
    ((Node.logical flag op left right).interpret registry calls here).start world =
      (.ok value, after)
  /-- The branch of a conditional that is not taken. -/
  branch : ∀ (here : Address) (flag : Bool) (test consequent alternate : Node)
    (world after : World σ) (value : Value),
    (test.interpret registry calls (0 :: here)).start world = (.ok value, after) →
    ((Node.conditional flag test consequent alternate).interpret registry calls here).start world =
      if value.isTruthy then (consequent.interpret registry calls (1 :: here)).start after
      else (alternate.interpret registry calls (2 :: here)).start after
  /-- The arguments of an absent callee. -/
  arguments : ∀ (here : Address) (flag : Bool) (callee : Node) (arguments : List Node)
    (world after : World σ) (function : Value) (receiver : Receiver),
    (callee.interpretCallee registry calls (0 :: here)).start world =
      (.ok (function, receiver), after) →
    function.isNullish = true →
    ((Node.call flag callee arguments false).interpret registry calls here).start world =
      (.ok .undefined, after)
  /-- The key of an absent object. -/
  key : ∀ (here : Address) (flag : Bool) (object key : Node) (computed : Bool)
    (world after : World σ) (value : Value),
    (object.interpret registry calls (0 :: here)).start world = (.ok value, after) →
    value.isNullish = true →
    ((Node.member flag object key computed).interpret registry calls here).start world =
      (.ok .undefined, after)
  /-- The key of an absent object, where the member is called: there is no callee. -/
  calleeKey : ∀ (here : Address) (flag : Bool) (object key : Node) (computed : Bool)
    (world after : World σ) (value : Value),
    (object.interpret registry calls (0 :: here)).start world = (.ok value, after) →
    value.isNullish = true →
    ((Node.member flag object key computed).interpretCallee registry calls here).start world =
      (.ok (.undefined, .none), after)
  /-- The right side of an assignment whose target cannot be resolved. -/
  right : ∀ (here : Address) (flag : Bool) (left right : Node) (world after : World σ)
    (fault : EvalError),
    (left.interpretTarget registry calls (0 :: here)).start world = (.error fault, after) →
    ((Node.assignment flag left right).interpret registry calls here).start world =
      (.error fault, after)

theorem Node.skips (registry : Registry) (calls : Calls σ) : Node.Skips registry calls where
  operand here flag op left right world after value hleft hsettled := by
    rw [Node.interpret, Run.start_bind, hleft]
    simp only [if_pos hsettled]
    rfl
  branch here flag test consequent alternate world after value htest := by
    rw [Node.interpret, Run.start_bind, htest]
    dsimp only
    split <;> rfl
  arguments here flag callee arguments world after function receiver hcallee habsent := by
    rw [Node.interpret_call, Run.start_bind, hcallee]
    simp only [if_pos habsent]
    rfl
  key here flag object key computed world after value hobject habsent := by
    rw [Node.interpret, Run.start_bind, hobject]
    simp only [if_pos habsent]
    rfl
  calleeKey here flag object key computed world after value hobject habsent := by
    rw [Node.interpretCallee, Run.memberCallee, Run.start_bind, hobject]
    simp only [if_pos habsent]
    rfl
  right here flag left right world after fault hleft := by
    rw [Node.interpret, Run.start_bind, hleft]

/-! ## The order of calls -/

/-- **Calls are made in post-order, and none is made twice.** The listing of a tree holds the
addresses of its calls, each of them once. Whatever tree an expression was compiled from, and
whatever the world: interpreting the tree is evaluating the expression, and the calls that are made
on the way are a part of the listing, in the order of the listing. So no call is made twice, and
what evaluation does not look at makes none. -/
theorem Expression.calls_in_order {registry : Registry} {source : String} {tree : Node}
    {expression : Expression} (h : ofTree registry source tree = .ok expression) (host : Host σ) :
    (tree.calls []).Nodup ∧ (∀ address, address ∈ tree.calls [] ↔ tree.CallAt address) ∧
      (∀ world : World σ, ∃ trace : List Address,
        trace.Sublist (tree.calls []) ∧ trace.Nodup ∧
          (tree.interpret registry (.noting host) []).start (world.beside []) =
            (((expression.eval host).start world).1,
              ((expression.eval host).start world).2.beside trace)) ∧
      Node.Skips registry (.noting host) := by
  refine ⟨tree.calls_nodup [], fun _ => Node.mem_calls, fun world => ?_, Node.skips registry _⟩
  obtain ⟨trace, hsub, hend⟩ := Node.interpret_traces host registry tree [] world []
  refine ⟨trace, hsub, (tree.calls_nodup []).sublist hsub, ?_⟩
  rw [eval_interpret host h, hend, List.nil_append]

/-- The calls in the key of a target come before those on the right of the assignment. -/
theorem Expression.key_called_first : ∃ tree expression,
    treeOf "a[f()] = g() || h()" = .ok tree ∧
      ofTree .empty "a[f()] = g() || h()" tree = .ok expression ∧
        ∀ world : World Unit, ∃ trace : List Address,
          trace.Sublist [[1, 0, 0], [0, 1, 0], [1, 1, 0]] ∧
            (tree.interpret .empty (.noting (Host.answering fun f => .text f.name)) []).start
                (world.beside []) =
              (((expression.eval (Host.answering fun f => .text f.name)).start world).1,
                ((expression.eval (Host.answering fun f => .text f.name)).start world).2.beside
                  trace) := by
  obtain ⟨tree, expression, htree, h, hcalls⟩ : ∃ tree expression,
      treeOf "a[f()] = g() || h()" = .ok tree ∧
        ofTree .empty "a[f()] = g() || h()" tree = .ok expression ∧
          tree.calls [] = [[1, 0, 0], [0, 1, 0], [1, 1, 0]] := ⟨_, _, by cbv, by cbv, rfl⟩
  obtain ⟨-, -, htrace, -⟩ := calls_in_order h (Host.answering fun f => .text f.name)
  refine ⟨tree, expression, htree, h, fun world => ?_⟩
  obtain ⟨trace, hsub, -, hend⟩ := htrace world
  rw [hcalls] at hsub
  exact ⟨trace, hsub, hend⟩

end TemplateExpr

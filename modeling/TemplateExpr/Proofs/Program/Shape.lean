import Mathlib
import TemplateExpr.Proofs.Program.Frame
import TemplateExpr.Proofs.Program.Parts
import TemplateExpr.Proofs.Program.Rollback
import TemplateExpr.Proofs.Program.Sandbox

/-!
# What evaluation leaves of its scope

Without assignments a scope is left as it was (`Expression.eval_unassigned`). With them its shape is
kept (`Expression.scope_shape`): the locals keep their names, all of them and no others, a context
loses none, and what was an array or a number stays one. Assignments stand anywhere in an
expression, and each chooses only when it writes which of the two scopes it writes to; so the law is
one of a single write (`Target.write_keeps`), and every run has it because it composes.
-/

namespace TemplateExpr

/-! ## Without assignments -/

def Node.isAssignment : Node → Bool
  | .assignment .. => true
  | _ => false

theorem Node.permitted_reading {registry : Registry} {tree : Node}
    (h : ∀ part ∈ tree.parts, part.isAssignment = false) :
    tree.AllPermitted registry Contact.Reading := by
  intro part hpart
  have hfree := h part hpart
  cases part with
  | assignment flag left right => cases hfree
  | call flag callee arguments filter =>
    cases filter with
    | true => exact fun _ _ _ => trivial
    | false => cases callee <;> exact trivial
  | _ => exact trivial

/-- **Only assignments change anything.** An expression in whose tree no assignment occurs leaves
the scope as it was, whatever it ends in, and whatever the functions and filters do that it
calls. -/
theorem Expression.eval_unassigned {registry : Registry} {source : String} {tree : Node}
    {expression : Expression} (h : ofTree registry source tree = .ok expression)
    (hfree : ∀ part ∈ tree.parts, part.isAssignment = false) {σ : Type} (host : Host σ)
    (world : World σ) : ((expression.eval host).start world).2.scope = world.scope := by
  have hagree := eval_steady (Access.standard_reading host world.scope) h
    (Node.permitted_reading hfree)
  obtain ⟨-, ⟨-, hscope⟩, -⟩ := hagree world world ⟨rfl, rfl⟩
  exact hscope

/-- Functions are called, on a member and on what an array holds, and nothing is assigned. -/
theorem Expression.calls_assign_nothing : ∃ tree expression,
    treeOf "o.f(a[k]) || b[0](this) | json" = .ok tree ∧
      ofTree .builtins "o.f(a[k]) || b[0](this) | json" tree = .ok expression ∧
        (∀ part ∈ tree.parts, part.isAssignment = false) ∧
          ∀ (answer : Function → Value) (world : World Unit),
            ((expression.eval (Host.answering answer)).start world).2.scope = world.scope := by
  obtain ⟨tree, expression, htree, h, hfree⟩ : ∃ tree expression,
      treeOf "o.f(a[k]) || b[0](this) | json" = .ok tree ∧
        ofTree .builtins "o.f(a[k]) || b[0](this) | json" tree = .ok expression ∧
          ∀ part ∈ tree.parts, part.isAssignment = false := ⟨_, _, by cbv, by cbv, by decide⟩
  exact ⟨tree, expression, htree, h, hfree, fun answer world => eval_unassigned h hfree _ world⟩

/-! ## Shapes -/

/-- What may become of a context: it stays as it is; or a record gets more names, an array gets more
items, and a record takes the place of what is absent. -/
inductive Value.Grows : Value → Value → Prop where
  | same (value : Value) : Grows value value
  | record {before after : Entries Value}
      (h : ∀ key, before.contains key = true → after.contains key = true) :
      Grows (.record before) (.record after)
  | array {before after : List Value} (h : before.length ≤ after.length) :
      Grows (.array before) (.array after)
  | made {before : Value} (entries : Entries Value) (h : before.isNullish = true) :
      Grows before (.record entries)

/-- What may become of the locals: they stay as they are, or are a record with entries of the same
names. -/
inductive Value.SameNames : Value → Value → Prop where
  | same (value : Value) : SameNames value value
  | record {before after : Entries Value} (h : ∀ key, after.contains key = before.contains key) :
      SameNames (.record before) (.record after)

structure Scope.Keeps (before after : Scope) : Prop where
  context : before.context.Grows after.context
  locals : Option.Rel Value.SameNames before.locals after.locals

namespace Value

theorem Grows.trans {first second third : Value} (h : first.Grows second)
    (h' : second.Grows third) : first.Grows third := by
  cases h with
  | same => exact h'
  | record hfirst =>
    cases h' with
    | same => exact .record hfirst
    | record hsecond => exact .record fun key hkey => hsecond key (hfirst key hkey)
    | made entries hnullish => cases hnullish
  | array hfirst =>
    cases h' with
    | same => exact .array hfirst
    | array hsecond => exact .array (hfirst.trans hsecond)
    | made entries hnullish => cases hnullish
  | made entries hnullish =>
    cases h' with
    | same => exact .made entries hnullish
    | record hsecond => exact .made _ hnullish
    | made entries' hnullish' => cases hnullish'

theorem SameNames.trans {first second third : Value} (h : first.SameNames second)
    (h' : second.SameNames third) : first.SameNames third := by
  cases h with
  | same => exact h'
  | record hfirst =>
    cases h' with
    | same => exact .record hfirst
    | record hsecond => exact .record fun key => (hsecond key).trans (hfirst key)

theorem grows_orRecord (value : Value) : value.Grows value.orRecord := by
  unfold orRecord
  split
  · next hnullish => exact .made [] hnullish
  · exact .same value

theorem grows_setMember {container changed member : Value} {key : String}
    (h : container.setMember key member = .ok changed) : container.Grows changed := by
  rcases setMember_ok h with ⟨entries, rfl, rfl⟩ | ⟨items, index, rfl, -, -, rfl⟩
  · refine .record fun other hother => ?_
    rw [Entries.contains, Entries.get?_insert]
    split
    · rfl
    · exact hother
  · refine .array ?_
    rw [length_setItem]
    exact le_max_left _ _

theorem sameNames_setMember {container changed member : Value} {key : String}
    (h : container.setMember key member = .ok changed) (hkey : container.hasKey key = true) :
    container.SameNames changed := by
  rcases setMember_ok h with ⟨entries, rfl, rfl⟩ | ⟨items, index, rfl, -, -, -⟩
  · refine .record fun other => ?_
    rw [Entries.contains, Entries.get?_insert]
    split
    · next heq =>
      subst heq
      exact hkey.symm
    · rfl
  · cases hkey

end Value

namespace Scope.Keeps

theorem refl (scope : Scope) : scope.Keeps scope where
  context := .same _
  locals := by
    cases scope.locals with
    | none => exact .none
    | some locals => exact .some (.same locals)

theorem trans {first second third : Scope} (h : first.Keeps second) (h' : second.Keeps third) :
    first.Keeps third where
  context := h.context.trans h'.context
  locals := by
    obtain ⟨-, hfirst⟩ := h
    obtain ⟨-, hsecond⟩ := h'
    revert hfirst hsecond
    generalize first.locals = a
    generalize second.locals = b
    generalize third.locals = c
    rintro (⟨hfirst⟩ | _) (⟨hsecond⟩ | _)
    · exact .some (hfirst.trans hsecond)
    · exact .none

end Scope.Keeps

/-! ## One write -/

theorem writePath_grows {value container after : Value} {path : List String}
    (h : writePath value path container.orRecord = (.ok (), after)) : container.Grows after := by
  cases path with
  | nil =>
    cases h
    exact container.grows_orRecord
  | cons key path =>
    obtain ⟨child, hset⟩ := (writePath_written h (List.cons_ne_nil key path)).set
    exact container.grows_orRecord.trans (Value.grows_setMember hset)

theorem Value.orRecord_of_hasKey {value : Value} {key : String} (h : value.hasKey key = true) :
    value.orRecord = value := by
  cases value with
  | record entries => rfl
  | _ => cases h

theorem Scope.locals_of_inLocals {name : String} {scope : Scope} (h : scope.inLocals name = true) :
    ∃ locals, scope.locals = some locals ∧ scope.owner name = locals ∧
      locals.hasKey name = true := by
  obtain ⟨context, locals⟩ := scope
  cases locals with
  | none => cases h
  | some locals => exact ⟨locals, rfl, if_pos h, h⟩

theorem Target.base_of_not_inLocals {target : Target} {scope : Scope} (hlasting : target.Lasting)
    (h : target.inLocals scope = false) : target.base scope = scope.context := by
  cases target with
  | name key path =>
    have hlocal : scope.inLocals key = false := h
    rw [base, Scope.owner_eq, hlocal]
    rfl
  | this path => rfl
  | temporary container path => exact hlasting.elim

theorem Target.write_ok_keeps {target : Target} {value : Value} {scope after : Scope}
    (hlasting : target.Lasting) (h : target.write value scope = (.ok (), after)) :
    scope.Keeps after := by
  obtain ⟨hwalk, -, hafter⟩ := write_ok hlasting h
  cases hlocal : target.inLocals scope with
  | false =>
    rw [base_of_not_inLocals hlasting hlocal] at hwalk
    rw [hlocal, if_neg Bool.false_ne_true] at hafter
    rw [hafter]
    exact ⟨writePath_grows hwalk, (Scope.Keeps.refl scope).locals⟩
  | true =>
    cases target with
    | name key path =>
      obtain ⟨locals, hlocals, howner, hkey⟩ := Scope.locals_of_inLocals hlocal
      obtain ⟨child, hset⟩ := (writePath_written hwalk (List.cons_ne_nil key path)).set
      rw [base, howner, Value.orRecord_of_hasKey hkey] at hset
      rw [hlocal, if_pos rfl] at hafter
      rw [hafter]
      refine ⟨.same _, ?_⟩
      rw [hlocals]
      exact .some (Value.sameNames_setMember hset hkey)
    | this path | temporary container path => cases hlocal

/-- **A write keeps the shape of the scope.** -/
theorem Target.write_keeps (target : Target) (value : Value) (scope : Scope) :
    scope.Keeps (target.write value scope).2 := by
  rcases hwrite : target.write value scope with ⟨fault | _, after⟩
  · have hundone := Target.write_failed (congrArg Prod.fst hwrite)
    rw [hwrite] at hundone
    rw [hundone]
    exact .refl scope
  · cases target with
    | name key path => exact write_ok_keeps (by trivial) hwrite
    | this path => exact write_ok_keeps (by trivial) hwrite
    | temporary container path =>
      obtain ⟨-, rfl⟩ := Prod.mk.inj hwrite
      exact .refl scope

/-! ## All runs -/

def World.Keeping {σ : Type} (scope : Scope) (w₁ w₂ : World σ) : Prop :=
  w₁ = w₂ ∧ scope.Keeps w₁.scope

theorem Agree.keeping {σ α : Type} {run : Run σ α} (scope : Scope)
    (h : ∀ world : World σ, world.scope.Keeps (run.start world).2.scope) :
    Agree (World.Keeping scope) Anything run run := by
  rintro world _ ⟨rfl, hkeeps⟩
  exact ⟨rfl, ⟨rfl, hkeeps.trans (h world)⟩, fun _ _ => trivial⟩

theorem Access.standard_keeping {σ : Type} (host : Host σ) (scope : Scope) :
    (Access.standard host).Steady (fun _ => True) (World.Keeping scope) Anything where
  values := Value.closed_anything
  lookup _ _ := .keeping scope fun world => .refl world.scope
  context _ := .keeping scope fun world => .refl world.scope
  getMember _ _ _ := .pure trivial
  call _ _ _ _ _ _ := .keeping scope fun world => .refl world.scope
  filter _ _ _ _ := .keeping scope fun world => .refl world.scope
  write target value _ _ := by
    rw [Access.write_standard]
    refine .keeping scope fun world => ?_
    rw [Run.start_write]
    exact target.write_keeps value world.scope

theorem Node.allPermitted_anything (registry : Registry) (tree : Node) :
    tree.AllPermitted registry fun _ => True := by
  rintro (_ | _ | _ | _ | _ | _ | _ | ⟨_, callee, _, filter⟩ | _ | _ | _ | _ | _) -
  case call =>
    cases filter with
    | true => exact fun _ _ _ => trivial
    | false => cases callee <;> exact trivial
  all_goals exact trivial

/-- **The shape of the scope is kept.** Evaluation and assignment, also when they end in an error,
leave locals with entries of the same names as before, and without a change if they are no record.
A context that is a record stays one and loses no name, an array stays one and gets no shorter, what
is absent or null stays so or becomes a record, and any other context stays as it is. -/
theorem Expression.scope_shape {registry : Registry} {source : String} {tree : Node}
    {expression : Expression} (h : ofTree registry source tree = .ok expression) {σ : Type}
    (host : Host σ) (world : World σ) :
    world.scope.Keeps ((expression.eval host).start world).2.scope ∧
      ∀ value, world.scope.Keeps ((expression.assign host value).start world).2.scope := by
  have hsteady := Access.standard_keeping host world.scope
  have hparts := Node.allPermitted_anything registry tree
  have hstart : World.Keeping world.scope world world := ⟨rfl, .refl world.scope⟩
  constructor
  · obtain ⟨-, ⟨-, hkeeps⟩, -⟩ := eval_steady hsteady h hparts world world hstart
    exact hkeeps
  · intro value
    have hagree : Agree _ Anything (expression.assign host value) (expression.assign host value) :=
      assign_steady hsteady h hparts (fun _ _ => trivial) trivial
    obtain ⟨-, ⟨-, hkeeps⟩, -⟩ := hagree world world hstart
    exact hkeeps

def emptyContext : Scope where
  context := .undefined
  locals := some (.record [("list", .array [.null])])

/-- Both scopes are written to before a third write fails. -/
theorem Expression.both_scopes_written : ∃ tree expression fault after,
    treeOf "list[2] = 1; n.k = 1; list.last = n" = .ok tree ∧
      ofTree .empty "list[2] = 1; n.k = 1; list.last = n" tree = .ok expression ∧
        (expression.eval Host.none).start ⟨emptyContext, ()⟩ = (.error fault, after) ∧
          emptyContext.Keeps after.scope := by
  obtain ⟨tree, expression, fault, after, htree, h, heval⟩ : ∃ tree expression fault after,
      treeOf "list[2] = 1; n.k = 1; list.last = n" = .ok tree ∧
        ofTree .empty "list[2] = 1; n.k = 1; list.last = n" tree = .ok expression ∧
          (expression.eval Host.none).start ⟨emptyContext, ()⟩ = (.error fault, after) :=
    ⟨_, _, _, _, by cbv, by cbv, rfl⟩
  have hkeeps := (scope_shape h Host.none ⟨emptyContext, ()⟩).1
  rw [heval] at hkeeps
  exact ⟨tree, expression, fault, after, htree, h, heval, hkeeps⟩

end TemplateExpr

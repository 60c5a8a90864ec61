import Mathlib
import TemplateExpr.Command
import TemplateExpr.Proofs.Program.Contact
import TemplateExpr.Proofs.Value.Member

/-!
# A failed write leaves no trace

A write changes containers while it walks, and can fail at any step of the walk. Nothing is undone
then, and yet nothing has changed. The reason is that the walk has two parts. In the first it passes
through members that are there, and putting back a member as it was is no change. The second begins
with the first member that has to be made; below it all is new and empty, and in an empty record
every write succeeds (`writePath_emptyRecord`). So a walk that fails has not left the first part
(`writePath_failed`).

Around the write stands the evaluation of the place. It changes nothing either, if there is no
assignment in it (`Place.target_scope`).
-/

namespace TemplateExpr

/-! ## Walks -/

theorem writePath_emptyRecord (value : Value) : ∀ path : List String,
    (writePath value path .emptyRecord).1 = .ok ()
  | [] => rfl
  | [_] => rfl
  | _ :: next :: path => writePath_emptyRecord value (next :: path)

/-- **A walk that fails leaves its container as it was.** -/
theorem writePath_failed {value : Value} {path : List String} {container : Value}
    {fault : EvalError} (h : (writePath value path container).1 = .error fault) :
    (writePath value path container).2 = container := by
  fun_induction writePath value path container with
  | case1 container => cases h
  | case2 last container changed hset => cases h
  | case3 last container fault hset => rfl
  | case4 key next path container fault hopen => rfl
  | case5 key next path container opened child hopen violation hcheck =>
    rcases Value.openMember_ok hopen with ⟨-, heq⟩ | heq
    · exact heq
    · -- The guard lets an empty record pass.
      rw [heq] at hcheck
      cases hcheck
  | case6 key next path container opened child hopen hcheck outcome after hwrite ih =>
    rw [hwrite] at ih
    rcases Value.openMember_ok hopen with ⟨hown, heq⟩ | heq
    · have hafter : after = child := ih h
      rw [heq, hafter]
      exact Value.putBack_of_ownMember? hown
    · have hok : outcome = .ok () := by
        rw [heq] at hwrite
        rw [← writePath_emptyRecord value (next :: path), hwrite]
      rw [hok] at h
      cases h

/-! ## Targets -/

/-- Where a write fails, the root was there. -/
theorem writePath_orRecord_failed {value root : Value} {path : List String} {fault : EvalError}
    (h : (writePath value path root.orRecord).1 = .error fault) :
    (writePath value path root.orRecord).2 = root := by
  by_cases hnullish : root.isNullish
  · rw [Value.orRecord, if_pos hnullish, writePath_emptyRecord] at h
    cases h
  · rw [Value.orRecord, if_neg hnullish] at h ⊢
    exact writePath_failed h

theorem Scope.setOwner_owner (name : String) (scope : Scope) :
    scope.setOwner name (scope.owner name) = scope := by
  obtain ⟨context, locals⟩ := scope
  cases locals with
  | none => rfl
  | some locals =>
    by_cases hkey : locals.hasKey name <;> simp [setOwner, owner, inLocals, hkey]

theorem Target.write_failed {target : Target} {value : Value} {scope : Scope} {fault : EvalError}
    (h : (target.write value scope).1 = .error fault) : (target.write value scope).2 = scope := by
  cases target with
  | name key path =>
    show scope.setOwner key (writePath value (key :: path) (scope.owner key).orRecord).2 = scope
    rw [writePath_orRecord_failed h]
    exact Scope.setOwner_owner key scope
  | this path =>
    show { scope with context := (writePath value path scope.context.orRecord).2 } = scope
    rw [writePath_orRecord_failed h]
  | temporary container path => rfl

/-! ## Places without assignments -/

/-- The contacts that write nothing. -/
def Contact.Reading : Contact → Prop
  | .lookup _ | .context | .call | .callName _ | .filter _ => True
  | .writeName _ | .writeThis | .writeTemporary => False

/-- That no assignment occurs in the root or in a computed key of a place. -/
def Place.AssignmentFree (place : Place) : Prop :=
  place.root.Within Contact.Reading ∧ Key.AllWithin Contact.Reading place.path

def World.Standing {σ : Type} (scope : Scope) (w₁ w₂ : World σ) : Prop :=
  w₁ = w₂ ∧ w₁.scope = scope

section

variable {σ α : Type} (host : Host σ)

theorem Agree.standing {run : Run σ α} (scope : Scope)
    (h : ∀ world : World σ, (run.start world).2.scope = world.scope) :
    Agree (World.Standing scope) Anything run run := by
  rintro world _ ⟨rfl, rfl⟩
  exact ⟨rfl, ⟨rfl, h world⟩, fun _ _ => trivial⟩

theorem Access.standard_reading (scope : Scope) :
    (Access.standard host).Steady Contact.Reading (World.Standing scope) Anything where
  values := Value.closed_anything
  lookup _ _ := .standing scope fun _ => rfl
  context _ := .standing scope fun _ => rfl
  getMember _ _ _ := .pure trivial
  call _ _ _ _ _ _ := .standing scope fun _ => rfl
  filter _ _ _ _ := .standing scope fun _ => rfl
  write target _ hallowed _ := by cases target <;> exact hallowed.elim

theorem Place.target_scope {place : Place} (h : place.AssignmentFree) (world : World σ) :
    ((place.target host).start world).2.scope = world.scope := by
  obtain ⟨hroot, hpath⟩ := h
  have hsteady := Access.standard_reading host world.scope
  have hagree := Root.evalBy_steady hsteady place.root
    (Key.evalAllBy_steady hsteady place.path hpath) hroot
  rw [Key.evalAllBy_standard, Root.evalBy_standard] at hagree
  obtain ⟨-, hstanding, -⟩ := hagree world world ⟨rfl, rfl⟩
  exact hstanding.2

theorem Run.write_failed {target : Target} {value : Value} {world : World σ} {fault : EvalError}
    (h : ((Run.write target value).start world).1 = .error fault) :
    ((Run.write target value).start world).2.scope = world.scope := by
  rw [Run.start_write] at h ⊢
  exact Target.write_failed h

/-- Where the first part of a run leaves the scope alone and the second undoes what fails, the whole
undoes what fails. -/
theorem Run.bind_failed {β : Type} {run : Run σ α} {next : α → Run σ β}
    (hrun : ∀ world : World σ, (run.start world).2.scope = world.scope)
    (hnext : ∀ (value : α) (world : World σ) (fault : EvalError),
      ((next value).start world).1 = .error fault →
        ((next value).start world).2.scope = world.scope)
    {world : World σ} {fault : EvalError} (h : ((run >>= next).start world).1 = .error fault) :
    ((run >>= next).start world).2.scope = world.scope := by
  rw [Run.start_bind] at h ⊢
  have hafter := hrun world
  rcases hresult : run.start world with ⟨failure | value, after⟩
  · rw [hresult] at hafter
    exact hafter
  · rw [hresult] at h hafter
    exact (hnext value after fault h).trans hafter

theorem Place.assign_failed {place : Place} (hfree : place.AssignmentFree) {value : Value}
    {world : World σ} {fault : EvalError}
    (h : ((place.assign host value).start world).1 = .error fault) :
    ((place.assign host value).start world).2.scope = world.scope := by
  refine Run.bind_failed ?checked ?resolved h
  case checked =>
    intro world
    cases Guard.checkObject value <;> rfl
  case resolved =>
    intro _ world fault h
    refine Run.bind_failed (Place.target_scope host hfree) ?written h
    intro target world fault h
    rw [Run.start_bind] at h ⊢
    -- Giving the value back cannot fail, so it was the write that did.
    rcases hwrite : (Run.write target value).start world with ⟨_ | _, after⟩
    · have hundone := Run.write_failed (congrArg Prod.fst hwrite)
      rw [hwrite] at hundone
      exact hundone
    · rw [hwrite] at h
      cases h

end

/-- **A failed write leaves no trace.** A write to a resolved place that ends in an error leaves the
context and the locals as they were, whatever it had made on its way. So does an assignment to an
expression, also when it fails before the write, provided that no assignment occurs in the root and
in the keys of the place that it names. -/
theorem Expression.failed_assign_undone :
    (∀ (target : Target) (value : Value) (scope after : Scope) (fault : EvalError),
      target.write value scope = (.error fault, after) → after = scope) ∧
    ∀ (expression : Expression) (place : Place), expression.place = some place →
      place.AssignmentFree → ∀ (σ : Type) (host : Host σ) (value : Value) (world after : World σ)
        (fault : EvalError), (expression.assign host value).start world = (.error fault, after) →
          after.scope = world.scope := by
  constructor
  · intro target value scope after fault h
    have hoverall : (target.write value scope).2 = scope := Target.write_failed (by rw [h])
    rw [h] at hoverall
    exact hoverall
  · intro expression place hplace hfree σ host value world after fault h
    rw [assign, hplace] at h
    have hundone := Place.assign_failed host hfree (congrArg Prod.fst h)
    rw [h] at hundone
    exact hundone

def numberScope : Scope where
  context := .record [("a", .integer 1), ("b", .text "x")]
  locals := none

/-- Neither a write into a number nor an assignment behind a computed key leaves a trace. -/
theorem Expression.number_not_written : ∃ expression fault after,
    ofSource .empty "a[b].c" = .ok expression ∧
      (expression.assign Host.none .null).start ⟨numberScope, ()⟩ = (.error fault, after) ∧
      after.scope = numberScope ∧ ∃ scope,
        (Target.name "a" ["x", "c"]).write .null numberScope = (.error fault, scope) ∧
          scope = numberScope := by
  obtain ⟨undone, assign_undone⟩ := failed_assign_undone
  obtain ⟨expression, h, hplace⟩ : ∃ expression, ofSource .empty "a[b].c" = .ok expression ∧
      expression.place = some ⟨.name "a", [.computed (.name "b"), .fixed "c"]⟩ :=
    ⟨_, by cbv, rfl⟩
  obtain ⟨fault, after, hassign, hwrite⟩ : ∃ fault after,
      (expression.assign Host.none .null).start ⟨numberScope, ()⟩ = (.error fault, after) ∧
        ∃ scope, (Target.name "a" ["x", "c"]).write .null numberScope = (.error fault, scope) := by
    rw [assign, hplace]
    exact ⟨_, _, by cbv, _, by cbv⟩
  obtain ⟨scope, hwrite⟩ := hwrite
  have hfree : Place.AssignmentFree ⟨.name "a", [.computed (.name "b"), .fixed "c"]⟩ :=
    ⟨trivial, trivial, trivial, trivial⟩
  exact ⟨expression, fault, after, h, hassign,
    assign_undone expression _ hplace hfree Unit Host.none .null _ after fault hassign,
    scope, hwrite, undone _ _ _ scope fault hwrite⟩

end TemplateExpr

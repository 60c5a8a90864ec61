import TemplateExpr.Program.Eval

/-!
# Runs that agree

Two runs agree when they end in the same result and leave related states behind, whatever related
states they start in (`Agree`). Agreement is what a change of the surroundings cannot be told by:
the hosts may differ, and so may the types of their states.

An agreement also says what is known of the result (`Q`). This carries the checks of the guard from
where a value was checked to where it is used.
-/

namespace TemplateExpr

variable {τ τ₁ τ₂ α β : Type}

def HostRun.start (run : HostRun τ α) (state : τ) : Except EvalError α × τ :=
  (ExceptT.run run).run state

namespace HostRun

theorem start_bind (run : HostRun τ α) (next : α → HostRun τ β) (state : τ) :
    start (run >>= next) state =
      match start run state with
      | (.ok value, after) => start (next value) after
      | (.error fault, after) => (.error fault, after) := by
  simp only [start, ExceptT.run_bind, StateT.run_bind]
  rcases h : (ExceptT.run run).run state with ⟨_ | _, after⟩ <;> rfl

theorem ext_start {a b : HostRun τ α} (h : ∀ state, a.start state = b.start state) : a = b :=
  funext h

end HostRun

theorem Run.start_bind {σ : Type} (run : Run σ α) (next : α → Run σ β) (world : World σ) :
    (run >>= next).start world =
      match run.start world with
      | (.ok value, after) => (next value).start after
      | (.error fault, after) => (.error fault, after) := by
  simp only [start, ExceptT.run_bind, StateT.run_bind]
  rcases h : (ExceptT.run run).run world with ⟨_ | _, after⟩ <;> rfl

/-- A write changes the scope, whatever its outcome, and leaves the host alone. -/
theorem Run.start_write {σ : Type} (target : Target) (value : Value) (world : World σ) :
    (Run.write target value).start world =
      ((target.write value world.scope).1,
        { world with scope := (target.write value world.scope).2 }) := by
  have hscope : Run.scope.start world = (.ok world.scope, world) := rfl
  rw [Run.write, Run.start_bind, hscope]
  rcases hwrite : target.write value world.scope with ⟨_ | _, after⟩
  all_goals
    dsimp only
    rw [hwrite]
    rfl

/-- Runs with equal results and related states. Of a value that they end in, `Q` is known. -/
def Agree (S : τ₁ → τ₂ → Prop) (Q : α → Prop) (a : HostRun τ₁ α) (b : HostRun τ₂ α) : Prop :=
  ∀ s₁ s₂, S s₁ s₂ →
    (a.start s₁).1 = (b.start s₂).1 ∧ S (a.start s₁).2 (b.start s₂).2 ∧
      ∀ value, (a.start s₁).1 = .ok value → Q value

abbrev Anything (_ : α) : Prop := True

namespace Agree

variable {S : τ₁ → τ₂ → Prop} {Q : α → Prop}

theorem pure {value : α} (h : Q value) : Agree S Q (pure value) (pure value) := by
  intro s₁ s₂ hs
  refine ⟨rfl, hs, fun other heq => ?_⟩
  cases heq
  exact h

theorem throw (fault : EvalError) : Agree S Q (throw fault) (throw fault) := by
  intro s₁ s₂ hs
  exact ⟨rfl, hs, fun other heq => nomatch heq⟩

theorem bind {P : α → Prop} {R : β → Prop} {a : HostRun τ₁ α} {b : HostRun τ₂ α}
    {f : α → HostRun τ₁ β} {g : α → HostRun τ₂ β} (h : Agree S P a b)
    (hnext : ∀ value, P value → Agree S R (f value) (g value)) :
    Agree S R (a >>= f) (b >>= g) := by
  intro s₁ s₂ hs
  obtain ⟨hresult, hstate, hP⟩ := h s₁ s₂ hs
  rw [HostRun.start_bind, HostRun.start_bind]
  rcases ha : a.start s₁ with ⟨result, t₁⟩
  rcases hb : b.start s₂ with ⟨result', t₂⟩
  rw [ha, hb] at hresult hstate
  rw [ha] at hP
  obtain rfl : result = result' := hresult
  cases result with
  | ok value => exact hnext value (hP value rfl) t₁ t₂ hstate
  | error fault => exact ⟨rfl, hstate, fun other heq => nomatch heq⟩

theorem weaken {P : α → Prop} {a : HostRun τ₁ α} {b : HostRun τ₂ α} (h : Agree S P a b)
    (hPQ : ∀ value, P value → Q value) : Agree S Q a b := by
  intro s₁ s₂ hs
  obtain ⟨hresult, hstate, hP⟩ := h s₁ s₂ hs
  exact ⟨hresult, hstate, fun value heq => hPQ value (hP value heq)⟩

theorem ite {c : Prop} [Decidable c] {a a' : HostRun τ₁ α} {b b' : HostRun τ₂ α}
    (h : Agree S Q a b) (h' : Agree S Q a' b') :
    Agree S Q (if c then a else a') (if c then b else b') := by
  split
  · exact h
  · exact h'

theorem refl (a : HostRun τ α) : Agree Eq Anything a a := by
  rintro state _ rfl
  exact ⟨rfl, rfl, fun _ _ => trivial⟩

theorem eq {a b : HostRun τ α} {P : α → Prop} (h : Agree Eq P a b) : a = b := by
  apply HostRun.ext_start
  intro state
  obtain ⟨hresult, hstate, -⟩ := h state state rfl
  exact Prod.ext hresult hstate

end Agree

/-! ## Worlds -/

structure World.Related {σ₁ σ₂ : Type} (S : σ₁ → σ₂ → Prop) (w₁ : World σ₁) (w₂ : World σ₂) :
    Prop where
  scope : w₁.scope = w₂.scope
  host : S w₁.host w₂.host

theorem World.related_eq {σ : Type} : World.Related (Eq : σ → σ → Prop) = Eq := by
  funext w₁ w₂
  apply propext
  constructor
  · rintro ⟨hscope, hhost⟩
    cases w₁
    cases w₂
    simp_all
  · rintro rfl
    exact ⟨rfl, rfl⟩

namespace Agree

theorem of_eq {σ : Type} {a b : Run σ α} (h : a = b) : Agree (World.Related Eq) Anything a b := by
  subst h
  rw [World.related_eq]
  exact .refl a

theorem run_eq {σ : Type} {a b : Run σ α} {P : α → Prop} (h : Agree (World.Related Eq) P a b) :
    a = b := by
  rw [World.related_eq] at h
  exact h.eq

variable {σ₁ σ₂ : Type} {S : σ₁ → σ₂ → Prop} {Q : α → Prop}

theorem scope : Agree (World.Related S) Anything Run.scope Run.scope := by
  intro w₁ w₂ hw
  refine ⟨?_, hw, fun _ _ => trivial⟩
  exact congrArg Except.ok hw.scope

theorem setScope (scope : Scope) :
    Agree (World.Related S) Anything (Run.setScope scope) (Run.setScope scope) := by
  intro w₁ w₂ hw
  exact ⟨rfl, ⟨rfl, hw.host⟩, fun _ _ => trivial⟩

theorem ofHost {a : HostRun σ₁ α} {b : HostRun σ₂ α} (h : Agree S Q a b) :
    Agree (World.Related S) Q (Run.ofHost a) (Run.ofHost b) := by
  intro w₁ w₂ hw
  obtain ⟨hresult, hstate, hQ⟩ := h w₁.host w₂.host hw.host
  exact ⟨hresult, ⟨hw.scope, hstate⟩, hQ⟩

variable {T : World σ₁ → World σ₂ → Prop}

/-- Behind a check of the guard it is known that the check was passed. -/
theorem guarded (check : Except SecurityError Unit) :
    Agree T (fun _ => check = .ok ()) (Run.guarded check) (Run.guarded check) := by
  cases check with
  | ok => exact .pure rfl
  | error violation => exact .throw _

theorem safe (value : Value) :
    Agree T (fun given => Guard.checkObject given = .ok ()) (Run.safe value) (Run.safe value) :=
  (guarded (Guard.checkObject value)).bind fun _ hsafe => .pure hsafe

theorem handedOn {value : Value} {P : Value → Prop} (h : P value) :
    Agree T P (Run.safe value) (Run.safe value) :=
  (guarded (Guard.checkObject value)).bind fun _ _ => .pure h

end Agree

end TemplateExpr

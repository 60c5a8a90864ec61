import TemplateExpr.Filter.Registry
import TemplateExpr.Proofs.Filter.Search
import TemplateExpr.Proofs.Program.Agreement
import TemplateExpr.Proofs.Value.Functions

/-!
# Deterministic filters

A filter is deterministic when its result is a function of its arguments: the state of the host has
no say in it. Only functions could bring that state in, so for the filters that are built in it is
enough that the arguments hold none (`Registry.builtins_deterministic`); then they do not even ask
the host. For filters of the host it is a matter of the host.

The definition speaks of arguments whose functions all have a property `P`. With every function
admitted it is determinism outright. With fewer it is weaker, and then the results must not bring in
any other function either.
-/

namespace TemplateExpr

variable {σ : Type}

/-- On arguments whose functions are in `P` the result depends on the arguments alone, and the
functions in it are in `P` again. -/
def Filter.Deterministic (host : Host σ) (P : Function → Prop) (filter : Filter) : Prop :=
  ∀ arguments, (∀ argument ∈ arguments, argument.FunctionsIn P) →
    ∃ outcome, (∀ value, outcome = .ok value → value.FunctionsIn P) ∧
      ∀ state, ((filter.apply host arguments).start state).1 = outcome

/-- That all filters of a registry that claim to keep no state are deterministic. -/
def Registry.Deterministic (host : Host σ) (P : Function → Prop) (registry : Registry) : Prop :=
  ∀ name filter, registry.find? name = some filter → filter.stateful = false →
    filter.Deterministic host P

/-! ## The filters that are built in -/

namespace Filter

variable (host : Host σ)

theorem functionsIn_argument {P : Function → Prop} {arguments : List Value}
    (h : ∀ argument ∈ arguments, argument.FunctionsIn P) (place : Nat) :
    (argument arguments place).FunctionsIn P :=
  Value.functionsIn_getD fun value hvalue => h value (List.mem_of_getElem? hvalue)

theorem kind_of_functionFree {value : Value} (h : value.FunctionFree) : value.kind ≠ .function := by
  cases h with
  | function _ hnone => exact hnone.elim
  | _ => simp [Value.kind]

/-- Without functions a selection keeps some of the items, and asks nobody. -/
theorem select_pure {value criterion comparator : Value} (hvalue : value.FunctionFree)
    (hcriterion : criterion.FunctionFree) (hcomparator : comparator.FunctionFree) :
    ∃ result, select host value criterion comparator = pure result ∧ result.FunctionFree := by
  have hkind := kind_of_functionFree hcriterion
  have hbuiltin := kind_of_functionFree hcomparator
  cases value with
  | array items =>
    by_cases hpattern : criterion.kind ∈ [Kind.function, .undefined, .array]
    · refine ⟨.array items, ?_, hvalue⟩
      cases criterion with
      | function => exact absurd rfl hkind
      | undefined | array =>
        rw [select, checkCallee_of_kind hkind, checkCallee_of_kind hbuiltin]
        rfl
      | _ => simp [Value.kind] at hpattern
    · cases hvalue with
      | array _ hitems =>
        exact ⟨_, select_items host hbuiltin hpattern items, .array _ fun item hmem =>
          hitems item (List.mem_of_mem_filter hmem)⟩
  | _ => exact ⟨_, rfl, hvalue⟩

theorem functionsIn_limitTo {P : Function → Prop} {value : Value} (h : value.FunctionsIn P)
    (limit begin : Value) : (limitTo value limit begin).FunctionsIn P := by
  unfold limitTo
  split
  · exact h
  · cases h with
    | array items hitems =>
      refine .array _ fun item hmem => ?_
      exact hitems item (List.mem_of_mem_take (List.mem_of_mem_drop hmem))
    | text | integer | float => exact .text _
    | undefined => exact .undefined
    | null => exact .null
    | boolean b => exact .boolean b
    | record entries hentries => exact .record entries hentries
    | function f hf => exact .function f hf

theorem functionsIn_json {P : Function → Prop} (arguments : List Value) :
    (json arguments).FunctionsIn P := by
  unfold json
  simp only
  split
  · exact .undefined
  · split <;> exact .text _

theorem functionsIn_mapText {P : Function → Prop} (f : List Char → List Char) {value : Value}
    (h : value.FunctionsIn P) : (mapText f value).FunctionsIn P := by
  unfold mapText
  split
  · exact .text _
  · exact h

theorem Deterministic.of_pure {P : Function → Prop} {filter : Filter}
    (h : ∀ arguments, (∀ argument ∈ arguments, argument.FunctionsIn P) →
      ∃ result, filter.apply host arguments = pure result ∧ result.FunctionsIn P) :
    filter.Deterministic host P := by
  intro arguments harguments
  obtain ⟨result, hpure, hresult⟩ := h arguments harguments
  refine ⟨.ok result, ?_, fun state => ?_⟩
  · rintro value ⟨⟩
    exact hresult
  · rw [hpure]
    rfl

theorem deterministic_of_builtin {filter : Filter} (h : ∀ name, filter.transform ≠ .host name) :
    filter.Deterministic host fun _ => False := by
  refine .of_pure host fun arguments harguments => ?_
  have hargument := functionsIn_argument harguments
  unfold apply
  cases htransform : filter.transform with
  | select => exact select_pure host (hargument 0) (hargument 1) (hargument 2)
  | limitTo => exact ⟨_, rfl, functionsIn_limitTo (hargument 0) _ _⟩
  | json => exact ⟨_, rfl, functionsIn_json _⟩
  | uppercase => exact ⟨_, rfl, functionsIn_mapText _ (hargument 0)⟩
  | lowercase => exact ⟨_, rfl, functionsIn_mapText _ (hargument 0)⟩
  | host name => exact (h name htransform).elim

end Filter

/-- **The filters that are built in are deterministic** on values without functions, whatever the
host. -/
theorem Registry.builtins_deterministic (host : Host σ) :
    Registry.builtins.Deterministic host fun _ => False := by
  intro name filter hfind _
  have hmem : (name, filter) ∈ Registry.builtins := by
    obtain ⟨before, after, heq, -⟩ := List.lookup_eq_some_iff.mp hfind
    rw [heq]
    exact List.mem_append_right _ List.mem_cons_self
  apply Filter.deterministic_of_builtin
  simp only [builtins, List.mem_cons, Prod.mk.injEq, List.not_mem_nil, or_false] at hmem
  rcases hmem with ⟨-, rfl⟩ | ⟨-, rfl⟩ | ⟨-, rfl⟩ | ⟨-, rfl⟩ | ⟨-, rfl⟩ <;> simp

end TemplateExpr

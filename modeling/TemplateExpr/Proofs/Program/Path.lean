import Mathlib
import TemplateExpr.Proofs.Program.Fault
import TemplateExpr.Proofs.Program.Interpreter
import TemplateExpr.Proofs.Program.Lens
import TemplateExpr.Proofs.Program.Rollback

/-!
# Paths of members

A name or the context with members of it, one behind the other, is a walk through data. Reading it
shows every value on the way to the guard, and stops at the first that is refused; where nothing is,
nothing more is found and nothing is refused (`Expression.path_read`).

Writing walks the same way, and looks at the same values, with one exception: the context itself,
where a path starts from it, is read from only if it is safe and written into as it is
(`Expression.path_written`).
-/

namespace TemplateExpr

/-! ## Chains of members -/

@[simp] theorem Target.push_path (target : Target) (key : String) :
    (target.push key).path = target.path ++ [key] := by
  cases target <;> rfl

@[simp] theorem Target.push_keys (target : Target) (key : String) :
    (target.push key).keys = target.keys ++ [key] := by
  cases target <;> rfl

@[simp] theorem Target.push_head (target : Target) (key : String) (scope : Scope) :
    (target.push key).head scope = target.head scope := by
  cases target <;> rfl

/-- A tree that is a name or `this` with members of it, whose names are not computed. What its flags
say is of no importance. -/
inductive Node.Chain : Node → Target → Prop
  | name (flag : Bool) (name : String) : Chain (.identifier flag name) (.name name [])
  | this (flag : Bool) : Chain (.this flag) (.this [])
  | member {node : Node} {target : Target} (flag flag' : Bool) (key : String)
    (h : Chain node target) :
    Chain (.member flag node (.identifier flag' key) false) (target.push key)

/-- That the keys of a place are names, and that it is the place of a target. -/
inductive Place.Fixed : Place → Target → Prop
  | name (name : String) (path : List String) :
    Place.Fixed ⟨.name name, path.map .fixed⟩ (.name name path)
  | this (path : List String) : Place.Fixed ⟨.this, path.map .fixed⟩ (.this path)

namespace Node.Chain

variable {registry : Registry} {node : Node} {target : Target}

theorem lasting (h : node.Chain target) : target.Lasting := by
  induction h with
  | name | this => trivial
  | @member node target flag flag' key h ih => cases target <;> exact ih

theorem isPlace (h : node.Chain target) (hkeys : target.keys ≠ []) : node.IsPlace := by
  cases h with
  | name | member => trivial
  | this => exact absurd rfl hkeys

theorem compiles_iff (h : node.Chain target) :
    (∃ code, node.compile registry = .ok code) ↔ ∀ key ∈ target.keys, Unblocked key := by
  induction h with
  | name flag name =>
    constructor
    · rintro ⟨code, hcode⟩
      obtain ⟨given, hname, -⟩ := bind_ok hcode
      simpa [Target.keys] using (allowedName_ok hname).2
    · intro hname
      refine ⟨.name name, ?_⟩
      rw [Node.compile, allowedName_of_unblocked (hname name List.mem_cons_self)]
      rfl
  | this flag =>
    constructor
    · intro
      simp [Target.keys]
    · intro
      exact ⟨.this, rfl⟩
  | @member node target flag flag' key h ih =>
    rw [Node.compile, Target.push_keys, List.forall_mem_append]
    constructor
    · rintro ⟨code, hcode⟩
      obtain ⟨container, hcontainer, hcode⟩ := bind_ok hcode
      obtain ⟨found, hfound, -⟩ := bind_ok hcode
      obtain ⟨given, hname, -⟩ := bind_ok hfound
      refine ⟨ih.mp ⟨container, hcontainer⟩, ?_⟩
      simpa using (allowedName_ok hname).2
    · rintro ⟨hkeys, hkey⟩
      obtain ⟨container, hcontainer⟩ := ih.mpr hkeys
      refine ⟨.member container (.fixed key), ?_⟩
      rw [hcontainer, Node.fixedKey, allowedName_of_unblocked (hkey key List.mem_cons_self)]
      rfl

theorem place_fixed (h : node.Chain target) {place : Place}
    (hplace : node.compilePlace registry = .ok place) : place.Fixed target := by
  induction h generalizing place with
  | name flag name =>
    rw [Node.identifierPlace_ok hplace]
    exact .name name []
  | this flag => cases hplace
  | @member node target flag flag' key h ih =>
    obtain ⟨before, key', hstart, hkey, rfl⟩ := Node.memberPlace_ok hplace
    cases hkey
    have hbefore : before.Fixed target := by
      cases hstart with
      | name _ _ _ hbefore | member _ _ _ _ _ hbefore => exact ih hbefore
      | this =>
        cases h
        exact .this []
      | temporary _ _ hname hmember hthis =>
        cases h with
        | name => exact absurd rfl (hname _ _)
        | this => exact absurd rfl (hthis _)
        | member => exact absurd rfl (hmember _ _ _ _)
    cases hbefore with
    | name name path =>
      have hfixed := Place.Fixed.name name (path ++ [key])
      rwa [List.map_append] at hfixed
    | this path =>
      have hfixed := Place.Fixed.this (path ++ [key])
      rwa [List.map_append] at hfixed

end Node.Chain

namespace Place.Fixed

variable {σ : Type} {place : Place} {target : Target}

theorem keys_eval (host : Host σ) (h : place.Fixed target) :
    List.Forall₂ (fun key name => key.eval host = pure name) place.path target.path := by
  have hfixed : ∀ path : List String,
      List.Forall₂ (fun (key : Key) name => key.eval host = pure name) (path.map .fixed) path := by
    intro path
    induction path with
    | nil => exact .nil
    | cons key path ih => exact .cons rfl ih
  cases h with
  | name name path | this path => exact hfixed path

theorem spells (h : place.Fixed target) (hpath : target.keys ≠ []) : place.Spells target := by
  have hfixed : ∀ path : List String, List.Forall₂ Key.Spells (path.map .fixed) path := by
    intro path
    induction path with
    | nil => exact .nil
    | cons key path ih => exact .cons (.fixed key) ih
  cases h with
  | name name path => exact .name (hfixed path)
  | this path => exact .this (hfixed path) hpath

/-- A place without computed keys is resolved without any effect. -/
theorem target_eq (host : Host σ) (h : place.Fixed target) : place.target host = pure target := by
  have hpath : ∀ path : List String, Key.evalAll host (path.map .fixed) = pure path := by
    intro path
    induction path with
    | nil => rfl
    | cons key path ih =>
      rw [List.map_cons, Key.evalAll, Key.eval, pure_bind, ih]
      rfl
  cases h with
  | name name path | this path =>
    rw [Place.target, Root.eval, hpath]
    rfl

end Place.Fixed

/-! ## The first value that is refused -/

namespace Value

/-- What the first `count` names of a path lead to. -/
def along (value : Value) (path : List String) (count : Nat) : Value :=
  value.reach (path.take count)

theorem along_length (value : Value) (path : List String) :
    value.along path path.length = value.reach path := by
  rw [along, List.take_length]

theorem along_step (value : Value) {path : List String} {count : Nat} (h : count < path.length) :
    value.along path (count + 1) = (value.along path count).getMember path[count] := by
  rw [along, along, ← List.take_concat_get' _ _ h, reach, List.foldl_append]
  rfl

theorem along_of_isNullish {value : Value} {path : List String} {count later : Nat}
    (h : (value.along path count).isNullish = true) (hlater : count < later)
    (hlength : later ≤ path.length) : value.along path later = undefined := by
  induction later, hlater using Nat.le_induction with
  | base => rw [along_step value hlength, getMember_of_isNullish h]
  | succ later _ ih =>
    rw [along_step value hlength, ih (Nat.le_of_succ_le hlength)]
    rfl

end Value

namespace Guard

/-- That a value is refused, of those from one place of a walk to another, and that those in front
of it are there and are not refused. -/
structure FirstRefused (walk : Nat → Value) (first last place : Nat)
    (violation : SecurityError) : Prop where
  behind : first ≤ place
  within : place ≤ last
  refused : checkObject (walk place) = .error violation
  there : ∀ i, first ≤ i → i < place → (walk i).isNullish = false
  safe : ∀ i, first ≤ i → i < place → checkObject (walk i) = .ok ()

variable {walk : Nat → Value} {first last place : Nat} {violation : SecurityError}

theorem firstRefused_succ :
    FirstRefused walk (first + 1) (last + 1) (place + 1) violation ↔
      FirstRefused (fun i => walk (i + 1)) first last place violation := by
  constructor
  · intro h
    refine ⟨Nat.le_of_succ_le_succ h.behind, Nat.le_of_succ_le_succ h.within, h.refused, ?_, ?_⟩
    · intro i hfirst hplace
      exact h.there (i + 1) (Nat.succ_le_succ hfirst) (Nat.succ_lt_succ hplace)
    · intro i hfirst hplace
      exact h.safe (i + 1) (Nat.succ_le_succ hfirst) (Nat.succ_lt_succ hplace)
  · intro h
    refine ⟨Nat.succ_le_succ h.behind, Nat.succ_le_succ h.within, h.refused, ?_, ?_⟩
    · intro i hfirst hplace
      obtain ⟨i, rfl⟩ := Nat.exists_eq_add_of_le' (Nat.le_of_add_left_le hfirst)
      exact h.there i (Nat.le_of_succ_le_succ hfirst) (Nat.lt_of_succ_lt_succ hplace)
    · intro i hfirst hplace
      obtain ⟨i, rfl⟩ := Nat.exists_eq_add_of_le' (Nat.le_of_add_left_le hfirst)
      exact h.safe i (Nat.le_of_succ_le_succ hfirst) (Nat.lt_of_succ_lt_succ hplace)

theorem firstRefused_self :
    FirstRefused walk first last first violation ↔
      first ≤ last ∧ checkObject (walk first) = .error violation := by
  constructor
  · intro h
    exact ⟨h.within, h.refused⟩
  · rintro ⟨hwithin, hrefused⟩
    refine ⟨Nat.le_refl first, hwithin, hrefused, ?_, ?_⟩
    all_goals
      intro i hfirst hplace
      exact absurd hplace (Nat.not_lt.mpr hfirst)

theorem firstRefused_zero :
    FirstRefused walk 0 last (place + 1) violation ↔
      (walk 0).isNullish = false ∧ checkObject (walk 0) = .ok () ∧
        FirstRefused walk 1 last (place + 1) violation := by
  constructor
  · intro h
    refine ⟨h.there 0 (Nat.zero_le 0) (Nat.succ_pos place),
      h.safe 0 (Nat.zero_le 0) (Nat.succ_pos place),
      Nat.succ_pos place, h.within, h.refused, ?_, ?_⟩
    · intro i _ hplace
      exact h.there i (Nat.zero_le i) hplace
    · intro i _ hplace
      exact h.safe i (Nat.zero_le i) hplace
  · rintro ⟨hthere, hsafe, h⟩
    refine ⟨Nat.zero_le _, h.within, h.refused, ?_, ?_⟩
    · intro i _ hplace
      cases i with
      | zero => exact hthere
      | succ i => exact h.there (i + 1) (Nat.succ_pos i) hplace
    · intro i _ hplace
      cases i with
      | zero => exact hsafe
      | succ i => exact h.safe (i + 1) (Nat.succ_pos i) hplace

theorem FirstRefused.behind_safe (h : FirstRefused walk 0 last place violation)
    (hsafe : checkObject (walk 0) = .ok ()) : FirstRefused walk 1 last place violation := by
  cases place with
  | zero =>
    have hrefused := h.refused
    rw [hsafe] at hrefused
    cases hrefused
  | succ place => exact (firstRefused_zero.mp h).2.2

/-- **What the guard says of a path is what it says of the first value on it that it refuses.** -/
theorem checkPath_error_iff {value : Value} {path : List String} :
    checkPath path value = .error violation ↔
      ∃ place, FirstRefused (value.along path) 0 path.length place violation := by
  induction path generalizing value with
  | nil =>
    rw [checkPath_nil]
    constructor
    · intro h
      exact ⟨0, firstRefused_self.mpr ⟨Nat.le_refl 0, h⟩⟩
    · rintro ⟨place, h⟩
      obtain rfl := Nat.le_zero.mp h.within
      exact h.refused
  | cons key path ih =>
    rw [checkPath_cons]
    cases hvalue : checkObject value with
    | error fault =>
      constructor
      · intro h
        cases h
        exact ⟨0, firstRefused_self.mpr ⟨Nat.zero_le _, hvalue⟩⟩
      · rintro ⟨place, h⟩
        cases place with
        | zero =>
          have hrefused : checkObject value = .error violation := h.refused
          rw [hvalue] at hrefused
          exact hrefused
        | succ place =>
          obtain ⟨-, hsafe, -⟩ := firstRefused_zero.mp h
          exact absurd (hvalue.symm.trans hsafe) (by simp)
    | ok =>
      show checkPath path (value.getMember key) = .error violation ↔ _
      rw [ih]
      constructor
      · rintro ⟨place, h⟩
        have hbehind : FirstRefused (value.along (key :: path)) 1 (path.length + 1) (place + 1)
            violation := firstRefused_succ.mpr h
        -- Nothing would be refused behind a value that is absent.
        have hthere : (value.along (key :: path) 0).isNullish = false := by
          by_contra hnot
          have hnothing := Value.along_of_isNullish (eq_true_of_ne_false hnot)
            (Nat.succ_pos place) hbehind.within
          have hrefused := hbehind.refused
          rw [hnothing] at hrefused
          cases hrefused
        exact ⟨place + 1, firstRefused_zero.mpr ⟨hthere, hvalue, hbehind⟩⟩
      · rintro ⟨place, h⟩
        cases place with
        | zero =>
          have hrefused : checkObject value = .error violation := h.refused
          rw [hvalue] at hrefused
          cases hrefused
        | succ place =>
          obtain ⟨-, -, hbehind⟩ := firstRefused_zero.mp h
          exact ⟨place, firstRefused_succ.mp hbehind⟩

end Guard

/-! ## Reading -/

namespace Expression

variable {registry : Registry} {source : String} {flag : Bool} {node : Node}
  {expression : Expression}

/-- A statement that is a name or a member is read by the code of its place. -/
theorem place_of_ofTree (h : ofTree registry source (.program flag [node]) = .ok expression)
    (hnode : node.IsPlace) :
    ∃ place, node.compilePlace registry = .ok place ∧ expression.place = some place ∧
      expression.reading = .statements [place.code] := by
  obtain ⟨codes, hcodes, hrest⟩ := bind_ok h
  obtain ⟨found, hfound, heq⟩ := bind_ok hrest
  have hcompile : ∃ place, node.compilePlace registry = .ok place ∧ found = some place := by
    cases node with
    | identifier | member =>
      obtain ⟨place, hplace, rfl⟩ := map_ok hfound
      exact ⟨place, hplace, rfl⟩
    | _ => exact hnode.elim
  obtain ⟨place, hplace, rfl⟩ := hcompile
  have hfield : expression.place = some place := by
    cases heq
    rfl
  exact ⟨place, hplace, hfield, reading_place h hfield⟩

theorem eval_statement {code : Code} (h : expression.reading = .statements [code]) {σ : Type}
    (host : Host σ) : expression.eval host = code.eval host := by
  rw [eval, h]
  show code.eval host >>= pure = _
  exact bind_pure _

/-- **Reading a path is a guarded walk.** A name and static members of it, of any number, make an
expression if no name among them is blocked. Evaluating it changes nothing. Of the values from that
of the name on to that of the last member, each a member of the one before, the first that the guard
refuses is the error, if all in front of it are there. If none is refused in this way the value is
undefined if one in front of the last is absent, and otherwise it is the last. -/
theorem path_read {name : String} {path : List String} (hchain : node.Chain (.name name path))
    (registry : Registry) (source : String) (flag : Bool) :
    ((∃ expression, ofTree registry source (.program flag [node]) = .ok expression) ↔
      ∀ key ∈ name :: path, Unblocked key) ∧
    ∀ expression, ofTree registry source (.program flag [node]) = .ok expression →
      ∀ {σ : Type} (host : Host σ) (world : World σ), ∃ outcome,
        (expression.eval host).start world = (outcome, world) ∧
        (∀ place violation,
          Guard.FirstRefused ((world.scope.lookup name).along path) 0 path.length place violation →
            outcome = .error (.security violation)) ∧
        ((∀ place violation, ¬ Guard.FirstRefused ((world.scope.lookup name).along path) 0
            path.length place violation) →
          ((∃ i < path.length, ((world.scope.lookup name).along path i).isNullish = true) →
            outcome = .ok .undefined) ∧
          ((∀ i < path.length, ((world.scope.lookup name).along path i).isNullish = false) →
            outcome = .ok ((world.scope.lookup name).along path path.length))) := by
  constructor
  · constructor
    · rintro ⟨expression, h⟩
      obtain ⟨codes, hcodes, -⟩ := bind_ok h
      obtain ⟨code, hcode, -⟩ := bind_ok hcodes
      exact hchain.compiles_iff.mp ⟨code, hcode⟩
    · intro hkeys
      obtain ⟨code, hcode⟩ := hchain.compiles_iff.mpr hkeys
      have hcodes : Node.compileAll registry [node] = .ok [code] := by
        rw [Node.compileAll, hcode]
        rfl
      obtain ⟨place, hplace⟩ := place?_verdict hcodes
      exact ⟨_, by rw [ofTree, hcodes, hplace]; rfl⟩
  · intro expression h σ host world
    have hkeys : (Target.name name path).keys ≠ [] := List.cons_ne_nil name path
    obtain ⟨place, hplace, -, hreading⟩ := place_of_ofTree h (hchain.isPlace hkeys)
    have hfixed := hchain.place_fixed hplace
    have hread := (hfixed.spells hkeys).eval_code (hfixed.keys_eval host) world
    simp only [Target.path, Target.head] at hread
    rw [eval_statement hreading, hread]
    refine ⟨_, rfl, ?_, ?_⟩
    · intro place violation hrefused
      rw [Guard.checkPath_error_iff.mpr ⟨place, hrefused⟩]
      rfl
    · intro hnone
      have hpasses : Guard.checkPath path (world.scope.lookup name) = .ok () := by
        cases hcheck : Guard.checkPath path (world.scope.lookup name) with
        | ok => rfl
        | error violation =>
          obtain ⟨place, hrefused⟩ := Guard.checkPath_error_iff.mp hcheck
          exact absurd hrefused (hnone place violation)
      rw [hpasses, ← Value.along_length]
      constructor
      · rintro ⟨i, hi, hnothing⟩
        rw [Value.along_of_isNullish hnothing hi (Nat.le_refl _)]
        rfl
      · intro
        rfl

def elementScope : Scope where
  context := .record [("a", .record [("b", .record [("children", .null), ("nodeName", .null)])])]
  locals := some (.record [("b", .text "x")])

/-- The second value on the way is an element. -/
theorem element_not_read : ∃ flag node expression,
    treeOf "a.b.c" = .ok (.program flag [node]) ∧ node.Chain (.name "a" ["b", "c"]) ∧
      ofTree .empty "a.b.c" (.program flag [node]) = .ok expression ∧
      (expression.eval Host.none).start ⟨elementScope, ()⟩ =
        (.error (.security .element), ⟨elementScope, ()⟩) := by
  obtain ⟨flag, node, htree, hchain⟩ : ∃ flag node,
      treeOf "a.b.c" = .ok (.program flag [node]) ∧ node.Chain (.name "a" ["b", "c"]) :=
    ⟨_, _, by cbv, .member _ _ "c" (.member _ _ "b" (.name _ "a"))⟩
  obtain ⟨hcompiles, hread⟩ := path_read hchain .empty "a.b.c" flag
  obtain ⟨expression, h⟩ := hcompiles.mpr (by unfold Unblocked; decide)
  obtain ⟨outcome, hstart, hrefused, -⟩ := hread expression h Host.none ⟨elementScope, ()⟩
  have helement : Guard.FirstRefused ((elementScope.lookup "a").along ["b", "c"]) 0 2 1
      .element := by
    refine ⟨Nat.zero_le 1, by decide, rfl, ?_, ?_⟩
    all_goals
      intro i _ hplace
      obtain rfl := Nat.lt_one_iff.mp hplace
      rfl
  rw [hrefused 1 .element helement] at hstart
  exact ⟨flag, node, expression, htree, hchain, h, hstart⟩

end Expression

/-! ## Writing -/

theorem Guard.checkWay_concat (path : List String) (key : String) (value : Value) :
    Guard.checkWay (path ++ [key]) value = Guard.checkPath path value := by
  induction path generalizing value with
  | nil =>
    rw [List.nil_append, Guard.checkWay, Guard.checkPath_nil]
    cases Guard.checkObject value <;> rfl
  | cons first path ih =>
    rw [List.cons_append, Guard.checkWay, Guard.checkPath_cons]
    exact bind_congr fun _ => ih (value.getMember first)

theorem Guard.checkObject_orRecord (value : Value) :
    Guard.checkObject value.orRecord = Guard.checkObject value := by
  by_cases h : value.isNullish
  · rw [Value.orRecord, if_pos h, Guard.checkObject_of_isNullish h]
    rfl
  · rw [Value.orRecord, if_neg h]

theorem Value.getMember_orRecord (value : Value) (key : String) :
    value.orRecord.getMember key = value.getMember key :=
  Value.reach_orRecord (List.cons_ne_nil key []) value

/-- Values without entries and items. What is read from them is such a value again. -/
def Value.Bare : Value → Prop
  | .undefined | .integer _ | .text _ => True
  | _ => False

theorem Value.Bare.getMember {value : Value} (h : value.Bare) (key : String) :
    (value.getMember key).Bare := by
  cases value with
  | text s =>
    rw [Value.getMember]
    split
    · trivial
    · split <;> trivial
  | undefined | integer => trivial
  | _ => exact h.elim

theorem Guard.checkWay_bare {value : Value} (h : value.Bare) (path : List String) :
    Guard.checkWay path value = .ok () := by
  induction path generalizing value with
  | nil => rfl
  | cons key path ih =>
    have hvalue : Guard.checkObject value = .ok () := by
      cases value <;> first | rfl | exact h.elim
    rw [Guard.checkWay, hvalue]
    exact ih (h.getMember key)

theorem Value.bare_of_setMember_error {container value : Value} {key : String} {fault : MemberFault}
    (h : container.setMember key value = .error fault) : (container.getMember key).Bare := by
  cases container with
  | record entries => cases h
  | array items =>
    rw [Value.getMember]
    split
    · trivial
    rw [Value.setMember] at h
    split at h
    · next hindex =>
      rw [hindex]
      trivial
    · next index hindex =>
      split at h
      · next hfar =>
        have hnone : items[index]? = none := List.getElem?_eq_none (by omega)
        rw [hindex, Option.bind_some, hnone]
        trivial
      · cases h
  | text s =>
    have hbare : (Value.text s).Bare := trivial
    exact hbare.getMember key
  | _ => trivial

/-- **A walk to a place is refused where reading is**, from the first member on. -/
theorem writePath_refused_iff {value container : Value} {key : String} {path : List String}
    {violation : SecurityError} :
    (writePath value (key :: path) container).1 = .error (.security violation) ↔
      Guard.checkWay path (container.getMember key) = .error violation := by
  induction path generalizing key container with
  | nil =>
    rw [writePath]
    cases container.setMember key value <;> simp [Guard.checkWay, memberError]
  | cons next path ih =>
    rw [writePath, Value.openMember_eq]
    cases hset : container.setMember key (container.getMember key).orRecord with
    | error fault =>
      rw [Guard.checkWay_bare (Value.bare_of_setMember_error hset)]
      simp [Except.map, memberError]
    | ok opened =>
      simp only [Except.map, Guard.checkObject_orRecord, Guard.checkWay]
      cases hcheck : Guard.checkObject (container.getMember key) with
      | error fault =>
        show Except.error (EvalError.security fault) = _ ↔ Except.error fault = _
        simp
      | ok =>
        have hnext : (writePath value (next :: path) (container.getMember key).orRecord).1 =
            .error (.security violation) ↔ _ := ih
        rw [Value.getMember_orRecord] at hnext
        exact hnext

def Target.firstSeen : Target → Nat
  | .name _ _ | .temporary _ _ => 0
  | .this _ => 1

/-- A write to a member is refused for the first value on the way to it that the guard refuses. -/
theorem Target.write_refused_iff {target : Target} (hlasting : target.Lasting) {key : String}
    {value : Value} {scope : Scope} {violation : SecurityError} :
    ((target.push key).write value scope).1 = .error (.security violation) ↔
      ∃ place, Guard.FirstRefused ((target.head scope).along target.path) target.firstSeen
        target.path.length place violation := by
  cases target with
  | name name path =>
    show (writePath value (name :: (path ++ [key])) (scope.owner name).orRecord).1 = _ ↔ _
    rw [writePath_refused_iff, Value.getMember_orRecord, Guard.checkWay_concat]
    exact Guard.checkPath_error_iff
  | this path =>
    show (writePath value (path ++ [key]) scope.context.orRecord).1 = _ ↔ _
    cases path with
    | nil =>
      rw [List.nil_append, writePath_refused_iff, Guard.checkWay]
      constructor
      · intro h
        cases h
      · rintro ⟨place, h⟩
        exact absurd (h.behind.trans h.within) (Nat.not_succ_le_zero 0)
    | cons first path =>
      rw [List.cons_append, writePath_refused_iff, Value.getMember_orRecord,
        Guard.checkWay_concat, Guard.checkPath_error_iff]
      constructor
      · rintro ⟨place, h⟩
        exact ⟨place + 1, Guard.firstRefused_succ.mpr h⟩
      · rintro ⟨place, h⟩
        obtain ⟨place, rfl⟩ := Nat.exists_eq_add_of_le' h.behind
        exact ⟨place, Guard.firstRefused_succ.mp h⟩
  | temporary => exact hlasting.elim

section

variable {σ : Type} {host : Host σ} {place : Place} {target : Target}

theorem Place.Fixed.start_assign (h : place.Fixed target) {value : Value}
    (hsafe : Guard.checkObject value = .ok ()) (world : World σ) :
    (place.assign host value).start world =
      ((target.write value world.scope).1.map fun _ => value,
        { world with scope := (target.write value world.scope).2 }) := by
  rw [Place.assign, hsafe, h.target_eq, pure_bind, Run.start_bind, Run.start_guarded]
  show ((Run.write target value >>= fun _ => pure value).start world) = _
  rw [Run.start_bind, Run.start_write]
  rcases target.write value world.scope with ⟨_ | _, after⟩ <;> rfl

theorem Place.Fixed.start_assign_literal (h : place.Fixed target) (literal : Literal)
    (world : World σ) :
    ((Code.assign place.root place.path (.literal literal)).eval host).start world =
      ((target.write literal.value world.scope).1.map fun _ => literal.value,
        { world with scope := (target.write literal.value world.scope).2 }) := by
  have hsafe : Guard.checkObject literal.value = .ok () := by
    cases literal <;> rfl
  have htarget : place.root.eval host (Key.evalAll host place.path) = pure target :=
    h.target_eq host
  rw [Code.eval, htarget, pure_bind, Code.eval, pure_bind, Run.start_bind, Run.start_safe, hsafe]
  show ((Run.write target literal.value >>= fun _ => pure literal.value).start world) = _
  rw [Run.start_bind, Run.start_write]
  rcases target.write literal.value world.scope with ⟨_ | _, after⟩ <;> rfl

theorem Target.start_write_refused (hlasting : target.Lasting) {key : String} {value : Value}
    {run : Run σ Value} {world : World σ}
    (h : run.start world =
      (((target.push key).write value world.scope).1.map fun _ => value,
        { world with scope := ((target.push key).write value world.scope).2 })) :
    (∀ violation, (run.start world).1 = .error (.security violation) ↔
      ∃ place, Guard.FirstRefused ((target.head world.scope).along target.path) target.firstSeen
        target.path.length place violation) ∧
    ∀ fault, (run.start world).1 = .error fault → (run.start world).2 = world := by
  rw [h]
  constructor
  · intro violation
    have hrefused : ((target.push key).write value world.scope).1 =
        .error (.security violation) ↔ _ := Target.write_refused_iff hlasting
    rw [← hrefused]
    cases ((target.push key).write value world.scope).1 <;> simp [Except.map]
  · intro fault hfault
    have hfailed : ((target.push key).write value world.scope).1 = .error fault := by
      cases hwrite : ((target.push key).write value world.scope).1 with
      | error other =>
        rw [hwrite] at hfault
        cases hfault
        rfl
      | ok =>
        rw [hwrite] at hfault
        cases hfault
    rw [Target.write_failed hfailed]

end

namespace Expression

/-- **Writing a member is guarded like reading it, except for the context itself.** Let `o.k` be a
static member of a name or of `this` with static members of it, of any number, and let `o.k` be
assigned a safe value, from outside or by an assignment of a literal.

Reading `o.k` ends in the violation of the first value that is refused among those from the root on
to `o`. The assignment ends in a violation for the first such value too, and for nothing else, but
where the root is `this` the walk begins behind the context. It then leaves everything as it was.
So what cannot be read for such a value is not written, if the root is a name or the context is
safe. -/
theorem path_written {registry : Registry} {source source' : String} {node : Node}
    {target : Target} {key : String} {literal : Literal}
    {flag flag' flag₁ flag₂ flag₃ flag₄ flag₅ flag₆ : Bool} {reading writing : Expression}
    (hchain : node.Chain target)
    (hreading : ofTree registry source
      (.program flag [.member flag₁ node (.identifier flag₂ key) false]) = .ok reading)
    (hwriting : ofTree registry source'
      (.program flag' [.assignment flag₃ (.member flag₄ node (.identifier flag₅ key) false)
        (.literal flag₆ literal)]) = .ok writing)
    {σ : Type} (host : Host σ) (world : World σ) :
    (∀ place violation, Guard.FirstRefused ((target.head world.scope).along target.path) 0
        target.path.length place violation →
      (reading.eval host).start world = (.error (.security violation), world)) ∧
    ∀ run : Run σ Value,
      (run = writing.eval host ∨
        ∃ value, Guard.checkObject value = .ok () ∧ run = reading.assign host value) →
      (∀ violation, (run.start world).1 = .error (.security violation) ↔
        ∃ place, Guard.FirstRefused ((target.head world.scope).along target.path) target.firstSeen
          target.path.length place violation) ∧
      (∀ fault, (run.start world).1 = .error fault → (run.start world).2 = world) ∧
      (target.firstSeen = 0 ∨ Guard.checkObject (target.head world.scope) = .ok () →
        ∀ place violation, Guard.FirstRefused ((target.head world.scope).along target.path) 0
            target.path.length place violation →
          run.start world = (.error (.security violation), world)) := by
  have hkeys : (target.push key).keys ≠ [] := by simp
  obtain ⟨place, hplace, hfield, hcode⟩ := place_of_ofTree hreading trivial
  have hfixed := (Node.Chain.member flag₁ flag₂ key hchain).place_fixed hplace
  constructor
  · intro stop violation hrefused
    rw [eval_statement hcode, (hfixed.spells hkeys).eval_code (hfixed.keys_eval host),
      Target.push_path, Target.push_head, Guard.checkPath, Guard.checkWay_concat,
      Guard.checkPath_error_iff.mpr ⟨stop, hrefused⟩]
    rfl
  · intro run hrun
    have hwritten : ∃ value, run.start world =
        (((target.push key).write value world.scope).1.map fun _ => value,
          { world with scope := ((target.push key).write value world.scope).2 }) := by
      rcases hrun with rfl | ⟨value, hsafe, rfl⟩
      · obtain ⟨codes, hcodes, heq⟩ := bind_ok hwriting
        obtain ⟨code, hcode, hcodes⟩ := bind_ok hcodes
        obtain ⟨place', given, hplace', hgiven, rfl⟩ := Node.assignment_ok hcode
        have hfixed' := (Node.Chain.member flag₄ flag₅ key hchain).place_fixed hplace'
        cases hgiven
        cases hcodes
        cases heq
        rw [eval_statement rfl]
        exact ⟨literal.value, hfixed'.start_assign_literal literal world⟩
      · have hassign : reading.assign host value = place.assign host value := by
          rw [assign, hfield]
        rw [hassign]
        exact ⟨value, hfixed.start_assign hsafe world⟩
    obtain ⟨value, hwritten⟩ := hwritten
    obtain ⟨hrefused, hundone⟩ := Target.start_write_refused hchain.lasting hwritten
    refine ⟨hrefused, hundone, ?_⟩
    intro hsafe stop violation hstop
    have hseen : ∃ place, Guard.FirstRefused ((target.head world.scope).along target.path)
        target.firstSeen target.path.length place violation := by
      refine ⟨stop, ?_⟩
      rcases hsafe with hname | hsafe
      · rw [hname]
        exact hstop
      · cases target with
        | name | temporary => exact hstop
        | this path => exact hstop.behind_safe hsafe
    have herror := (hrefused violation).mpr hseen
    exact Prod.ext herror (hundone _ herror)

/-- What is not read through an element is not written through it. -/
theorem element_not_written : ∃ reading writing,
    ofSource .empty "a.b.c" = .ok reading ∧ ofSource .empty "a.b.c = 1" = .ok writing ∧
      ∀ run, run = reading.eval Host.none ∨ run = writing.eval Host.none ∨
          run = reading.assign Host.none (.text "x") →
        run.start ⟨elementScope, ()⟩ = (.error (.security .element), ⟨elementScope, ()⟩) := by
  obtain ⟨reading, writing, flag, flag', node, h, h', hchain, hreading, hwriting⟩ :
      ∃ reading writing flag flag' node, ofSource .empty "a.b.c" = .ok reading ∧
        ofSource .empty "a.b.c = 1" = .ok writing ∧ node.Chain (.name "a" ["b"]) ∧
        ofTree .empty "a.b.c" (.program flag
          [.member false node (.identifier false "c") false]) = .ok reading ∧
        ofTree .empty "a.b.c = 1" (.program flag' [.assignment false
          (.member false node (.identifier false "c") false) (.literal true (.integer 1))]) =
            .ok writing :=
    ⟨_, _, false, false, .member false (.identifier false "a") (.identifier false "b") false,
      by cbv, by cbv, .member _ _ "b" (.name _ "a"), by cbv, by cbv⟩
  obtain ⟨hread, hwrite⟩ := path_written hchain hreading hwriting Host.none ⟨elementScope, ()⟩
  have helement : Guard.FirstRefused ((elementScope.lookup "a").along ["b"]) 0 1 1 .element := by
    refine ⟨Nat.zero_le 1, Nat.le_refl 1, rfl, ?_, ?_⟩
    all_goals
      intro i _ hplace
      obtain rfl := Nat.lt_one_iff.mp hplace
      rfl
  refine ⟨reading, writing, h, h', ?_⟩
  rintro run (rfl | rfl | rfl)
  · exact hread 1 .element helement
  · exact (hwrite _ (.inl rfl)).2.2 (.inl rfl) 1 .element helement
  · exact (hwrite _ (.inr ⟨.text "x", rfl, rfl⟩)).2.2 (.inl rfl) 1 .element helement

def globalContext : Scope where
  context := .record [("window", .null), ("document", .null), ("location", .null)]
  locals := none

/-- A member of the context is written although it could not be read. -/
theorem unread_this_written : ∃ expression after, ofSource .empty "this.x" = .ok expression ∧
    (expression.eval Host.none).start ⟨globalContext, ()⟩ =
      (.error (.security .globalObject), ⟨globalContext, ()⟩) ∧
    (expression.assign Host.none (.integer 1)).start ⟨globalContext, ()⟩ =
      (.ok (.integer 1), after) ∧
    globalContext.context.hasKey "x" = false ∧ after.scope.context.hasKey "x" = true := by
  obtain ⟨expression, h, hreading, hplace⟩ : ∃ expression, ofSource .empty "this.x" =
      .ok expression ∧ expression.reading = .statements [.member .this (.fixed "x")] ∧
        expression.place = some ⟨.this, [.fixed "x"]⟩ :=
    ⟨_, by cbv, rfl, rfl⟩
  obtain ⟨after, hassign, hkey⟩ : ∃ after,
      (expression.assign Host.none (.integer 1)).start ⟨globalContext, ()⟩ =
        (.ok (.integer 1), after) ∧ after.scope.context.hasKey "x" = true := by
    rw [assign, hplace]
    exact ⟨_, rfl, rfl⟩
  refine ⟨expression, after, h, ?_, hassign, rfl, hkey⟩
  rw [eval_statement hreading]
  rfl

end Expression

end TemplateExpr

import Mathlib
import TemplateExpr.Proofs.Program.Allowed
import TemplateExpr.Proofs.Value.Member

/-!
# A write changes nothing but its place

A walk to a place may make records on its way, turn a missing context into one and let arrays grow.
What can be read is the same afterwards, except at the place itself (`Target.write_frame`): a path
that leads elsewhere reads what it read before, where reading what is absent gives undefined, and
the scope that was not written to is the same as a whole.

The walk is described once, by the relation `Written`, whose constructors say what one step of it
does; every property of a write is an induction over this relation.
-/

namespace TemplateExpr

/-! ## Reading along a path -/

/-- What a path of names leads to, member by member. Behind what is absent nothing is found. -/
def Value.reach (path : List String) (value : Value) : Value :=
  path.foldl (fun value key => value.getMember key) value

namespace Value

theorem reach_nil (value : Value) : value.reach [] = value := rfl

theorem reach_cons (key : String) (path : List String) (value : Value) :
    value.reach (key :: path) = (value.getMember key).reach path := rfl

theorem getMember_of_isNullish {value : Value} (h : value.isNullish = true) (key : String) :
    value.getMember key = .undefined := by
  cases value <;> first | rfl | cases h

theorem reach_orRecord {path : List String} (h : path ≠ []) (value : Value) :
    value.orRecord.reach path = value.reach path := by
  cases path with
  | nil => exact absurd rfl h
  | cons key path =>
    by_cases hnullish : value.isNullish
    · rw [orRecord, if_pos hnullish, reach_cons, reach_cons, getMember_of_isNullish hnullish]
      rfl
    · rw [orRecord, if_neg hnullish]

theorem orRecord_of_isNullish {value : Value} (h : value.isNullish = false) :
    value.orRecord = value := by
  rw [orRecord, h]
  rfl

end Value

/-! ## Walks that succeed -/

/-- Writing `value` at the end of a path changes the first container into the second. Every member
on the way has to pass the guard as it is before the write. -/
inductive Written (value : Value) : List String → Value → Value → Prop where
  | last {key : String} {before after : Value} (hset : before.setMember key value = .ok after) :
      Written value [key] before after
  | step {key next : String} {path : List String} {before child after : Value}
      (hsafe : Guard.checkObject (before.getMember key).orRecord = .ok ())
      (hchild : Written value (next :: path) (before.getMember key).orRecord child)
      (hset : before.setMember key child = .ok after) :
      Written value (key :: next :: path) before after

theorem writePath_written {value before after : Value} {path : List String}
    (h : writePath value path before = (.ok (), after)) (hpath : path ≠ []) :
    Written value path before after := by
  fun_induction writePath value path before generalizing after with
  | case1 before => exact absurd rfl hpath
  | case2 last before changed hset =>
    cases h
    exact .last hset
  | case3 last before fault hset => cases h
  | case4 key next path before fault hopen => cases h
  | case5 key next path before opened child hopen violation hcheck => cases h
  | case6 key next path before opened child hopen hcheck outcome inner hwrite ih =>
    rw [hwrite] at ih
    cases h
    rw [Value.openMember_eq] at hopen
    obtain ⟨changed, hset, heq⟩ := map_ok hopen
    cases heq
    obtain ⟨stored, hstored⟩ := Value.setMember_ok_again hset inner
    have hback : opened.putBack key inner = stored :=
      Value.putBack_of_setMember ((Value.setMember_setMember hset inner).trans hstored)
    rw [hback]
    exact .step hcheck (ih rfl (List.cons_ne_nil next path)) hstored

theorem Written.writePath {value before after : Value} {path : List String}
    (h : Written value path before after) :
    TemplateExpr.writePath value path before = (.ok (), after) := by
  induction h with
  | last hset => rw [TemplateExpr.writePath, hset]
  | @step key next path before child after hsafe hchild hset ih =>
    obtain ⟨opened, hopened⟩ := Value.setMember_ok_again hset (before.getMember key).orRecord
    have hopen : before.openMember key true = .ok (opened, (before.getMember key).orRecord) := by
      rw [Value.openMember_eq, hopened]
      rfl
    have hback : opened.putBack key child = after :=
      Value.putBack_of_setMember ((Value.setMember_setMember hopened child).trans hset)
    simp only [TemplateExpr.writePath, hopen, hsafe, ih, hback]

/-! ## What can be read afterwards -/

/-- What a write within reach of an index may do to an array: other items stay, and where the array
has grown they are undefined. -/
structure Grown (index : Nat) (before after : List Value) : Prop where
  kept : ∀ i, i ≠ index → i < before.length → after[i]? = before[i]?
  filled : ∀ i, i ≠ index → before.length ≤ i → i < after.length → after[i]? = some .undefined
  noShorter : before.length ≤ after.length
  atMost : after.length ≤ max before.length (index + 1)

theorem Value.grown_setItem (index : Nat) (value : Value) (items : List Value) :
    Grown index items (setItem index value items) where
  kept i hi hlt := by rw [getElem?_setItem, if_neg hi, if_pos hlt]
  filled i hi hge hlt := by
    rw [length_setItem] at hlt
    rw [getElem?_setItem, if_neg hi, if_neg (by omega), if_pos (by omega)]
  noShorter := by
    rw [length_setItem]
    omega
  atMost := by rw [length_setItem]

namespace Written

variable {value before after : Value} {path : List String}

/-- A step of a walk: the first member of the path is stored anew. -/
theorem set {key : String} (h : Written value (key :: path) before after) :
    ∃ child, before.setMember key child = .ok after := by
  cases h with
  | last hset => exact ⟨_, hset⟩
  | step _ _ hset => exact ⟨_, hset⟩

theorem isNullish_after (h : Written value path before after) : after.isNullish = false := by
  cases h with
  | last hset => exact (Value.isNullish_of_setMember hset).2
  | step _ _ hset => exact (Value.isNullish_of_setMember hset).2

/-- **The place reads what was written.** -/
theorem reach_self (h : Written value path before after) : after.reach path = value := by
  induction h with
  | last hset => exact Value.getMember_setMember hset
  | step _ _ hset ih => rw [Value.reach_cons, Value.getMember_setMember hset, ih]

/-- **Every other place reads what it read.** -/
theorem reach_other (h : Written value path before after) {other : List String}
    (hlength : "length" ∉ other) (hfront : ¬ other <+: path) (hbehind : ¬ path <+: other) :
    after.reach other = before.reach other := by
  induction h generalizing other with
  | @last key before after hset =>
    cases other with
    | nil => exact absurd (List.nil_prefix) hfront
    | cons first rest =>
      obtain ⟨hfirst, -⟩ := List.ne_and_not_mem_of_not_mem_cons hlength
      have hne : first ≠ key := by
        rintro rfl
        exact hbehind (by simp)
      rw [Value.reach_cons, Value.reach_cons,
        Value.getMember_setMember_of_ne hset hne (Ne.symm hfirst)]
  | @step key next path before child after hsafe hchild hset ih =>
    cases other with
    | nil => exact absurd (List.nil_prefix) hfront
    | cons first rest =>
      obtain ⟨hfirst, hrest⟩ := List.ne_and_not_mem_of_not_mem_cons hlength
      rw [Value.reach_cons, Value.reach_cons]
      by_cases hkey : first = key
      · subst hkey
        rw [List.prefix_cons_inj] at hfront hbehind
        have hne : rest ≠ [] := by
          rintro rfl
          exact hfront List.nil_prefix
        rw [Value.getMember_setMember hset, ih hrest hfront hbehind, Value.reach_orRecord hne]
      · rw [Value.getMember_setMember_of_ne hset hkey (Ne.symm hfirst)]

/-- **Arrays on the way keep their items.** -/
theorem grown (h : Written value path before after) {front : List String} {key : String}
    (hfront : front ++ [key] <+: path) {items : List Value}
    (hitems : before.reach front = .array items) :
    ∃ index items', Value.index? key = some index ∧ after.reach front = .array items' ∧
      Grown index items items' := by
  induction front generalizing path before after with
  | nil =>
    obtain ⟨rest, rfl⟩ := hfront
    obtain ⟨child, hset⟩ := h.set
    obtain rfl : before = .array items := hitems
    rcases Value.setMember_ok hset with ⟨_, heq, -⟩ | ⟨_, index, heq, hindex, -, rfl⟩
    · cases heq
    · cases heq
      exact ⟨index, _, hindex, rfl, Value.grown_setItem index child items⟩
  | cons first front ih =>
    cases h with
    | last hset =>
      obtain ⟨rfl, hnil⟩ := List.cons_prefix_cons.mp hfront
      simp at hnil
    | step hsafe hchild hset =>
      obtain ⟨rfl, hrest⟩ := List.cons_prefix_cons.mp hfront
      have hinner : (before.getMember first).orRecord.reach front = .array items := by
        rw [Value.reach_cons] at hitems
        cases front with
        | nil =>
          have harray : before.getMember first = .array items := hitems
          rw [harray]
          rfl
        | cons second front =>
          rw [Value.reach_orRecord (by simp)]
          exact hitems
      rw [Value.reach_cons, Value.getMember_setMember hset]
      exact ih hchild hrest hinner

/-- **Writing at the same place again is writing the second time only.** -/
theorem again {second last : Value} (h : Written value path before after)
    (hagain : Written second path after last) : Written second path before last := by
  induction h generalizing last with
  | last hset =>
    cases hagain with
    | last hset' => exact .last ((Value.setMember_setMember hset second).symm.trans hset')
  | step hsafe hchild hset ih =>
    cases hagain with
    | step hsafe' hchild' hset' =>
      -- What the first walk stored is a container, so the second one takes it as it is.
      rw [Value.getMember_setMember hset, Value.orRecord_of_isNullish hchild.isNullish_after]
        at hchild'
      exact .step hsafe (ih hchild') ((Value.setMember_setMember hset _).symm.trans hset')

end Written

/-! ## Targets -/

namespace Target

def keys : Target → List String
  | .name key path => key :: path
  | .this path | .temporary _ path => path

def base (target : Target) (scope : Scope) : Value :=
  match target with
  | .name key _ => scope.owner key
  | .this _ => scope.context
  | .temporary value _ => value

def inLocals (target : Target) (scope : Scope) : Bool :=
  match target with
  | .name key _ => scope.inLocals key
  | .this _ | .temporary _ _ => false

/-- That a target lies in the scope, so that what is written there stays. -/
def Lasting : Target → Prop
  | .name _ _ | .this _ => True
  | .temporary _ _ => False

end Target

theorem Scope.owner_eq (name : String) (scope : Scope) :
    scope.owner name = if scope.inLocals name then scope.locals.getD .undefined
      else scope.context := by
  obtain ⟨context, locals⟩ := scope
  cases locals with
  | none => rfl
  | some locals => rfl

theorem Value.hasKey_setMember {container changed value : Value} {key : String}
    (h : container.setMember key value = .ok changed) (hkey : container.hasKey key = true) :
    changed.hasKey key = true := by
  rcases setMember_ok h with ⟨entries, -, rfl⟩ | ⟨items, index, rfl, -, -, -⟩
  · rw [hasKey, Entries.contains, Entries.get?_insert, if_pos rfl]
    rfl
  · cases hkey

/-- A name belongs to the same one of the two scopes when what it belongs to is replaced, provided
that the locals keep an entry of it. -/
theorem Scope.owner_setOwner {name : String} {scope : Scope} {owner : Value}
    (h : scope.inLocals name = true → owner.hasKey name = true) :
    (scope.setOwner name owner).owner name = owner ∧
      (scope.setOwner name owner).inLocals name = scope.inLocals name := by
  rw [Scope.owner_eq, Scope.setOwner]
  by_cases hlocal : scope.inLocals name
  · have hafter : ({ scope with locals := some owner } : Scope).inLocals name = true := h hlocal
    rw [if_pos hlocal, hafter, hlocal]
    exact ⟨rfl, rfl⟩
  · have hafter : ({ scope with context := owner } : Scope).inLocals name =
        scope.inLocals name := rfl
    rw [if_neg hlocal, hafter, if_neg hlocal]
    exact ⟨rfl, rfl⟩

/-- What a write that succeeds does to a scope: a walk through the value that the target lies in,
whose result takes the place of that value. -/
theorem Target.write_ok {target : Target} {value : Value} {scope after : Scope}
    (hlasting : target.Lasting) (h : target.write value scope = (.ok (), after)) :
    writePath value target.keys (target.base scope).orRecord = (.ok (), target.base after) ∧
      target.inLocals after = target.inLocals scope ∧
      after = if target.inLocals scope then { scope with locals := some (target.base after) }
        else { scope with context := target.base after } := by
  cases target with
  | name key path =>
    obtain ⟨houtcome, rfl⟩ := Prod.mk.inj h
    generalize howner : (writePath value (key :: path) (scope.owner key).orRecord).2 = owner
    have hwrite : writePath value (key :: path) (scope.owner key).orRecord = (.ok (), owner) :=
      Prod.ext houtcome howner
    have hstored : scope.inLocals key = true → owner.hasKey key = true := by
      intro hlocal
      -- The locals had an entry of the name, and the write has stored one again.
      obtain ⟨child, hset⟩ := (writePath_written hwrite (by simp)).set
      have hhad : (scope.owner key).hasKey key = true := by
        rw [Scope.owner_eq, if_pos hlocal]
        cases hlocals : scope.locals with
        | none => simp [Scope.inLocals, hlocals] at hlocal
        | some locals => simpa [Scope.inLocals, hlocals] using hlocal
      have hrecord : (scope.owner key).orRecord = scope.owner key := by
        apply Value.orRecord_of_isNullish
        cases howns : scope.owner key <;> simp_all [Value.hasKey, Value.isNullish]
      rw [hrecord] at hset
      exact Value.hasKey_setMember hset hhad
    obtain ⟨hbase, hlocals⟩ : (Target.name key path).base (scope.setOwner key owner) = owner ∧ _ :=
      Scope.owner_setOwner hstored
    refine ⟨hwrite.trans (by rw [hbase]), hlocals, ?_⟩
    rw [hbase]
    rfl
  | this path =>
    obtain ⟨houtcome, rfl⟩ := Prod.mk.inj h
    exact ⟨Prod.ext houtcome rfl, rfl, rfl⟩
  | temporary value path => exact hlasting.elim

/-- A walk through the value that a target lies in is a write to the target. -/
theorem Target.write_of_writePath {target : Target} {value after : Value} {scope : Scope}
    (hlasting : target.Lasting)
    (h : writePath value target.keys (target.base scope).orRecord = (.ok (), after)) :
    target.write value scope =
      (.ok (), if target.inLocals scope then { scope with locals := some after }
        else { scope with context := after }) := by
  cases target with
  | name key path =>
    rw [write, show writePath value (key :: path) (scope.owner key).orRecord = _ from h]
    rfl
  | this path =>
    rw [write, show writePath value path scope.context.orRecord = _ from h]
    rfl
  | temporary => exact hlasting.elim

/-- **Writing twice to a target is writing the second time only.** -/
theorem Target.write_again {target : Target} {first second : Value} {before after last : Scope}
    (hlasting : target.Lasting) (hkeys : target.keys ≠ [])
    (h : target.write first before = (.ok (), after))
    (hagain : target.write second after = (.ok (), last)) :
    target.write second before = (.ok (), last) := by
  obtain ⟨hwalk, hlocals, hafter⟩ := write_ok hlasting h
  obtain ⟨hwalk', -, hlast⟩ := write_ok hlasting hagain
  have hwritten := writePath_written hwalk hkeys
  rw [Value.orRecord_of_isNullish hwritten.isNullish_after] at hwalk'
  rw [write_of_writePath hlasting (hwritten.again (writePath_written hwalk' hkeys)).writePath]
  -- The second write replaces the very value that the first one has put there.
  rw [hlocals, hafter] at hlast
  refine Prod.ext rfl (Eq.trans ?_ hlast.symm)
  cases target.inLocals before <;> rfl

/-- **A write changes nothing but its place.** After a write that succeeds, the target still lies in
the same one of the two scopes. Every path of names that is neither on the way to the place nor
leads on from it, and that asks for no length, reads there what it read before. The other scope is
the same altogether. And an array on the way keeps its items except at the index that the path
takes, gets no shorter, and grows at most up to that index, with undefined in between. -/
theorem Target.write_frame {target : Target} {value : Value} {scope after : Scope}
    (hlasting : target.Lasting) (h : target.write value scope = (.ok (), after)) :
    target.inLocals after = target.inLocals scope ∧
      (∀ other : List String, "length" ∉ other → ¬ other <+: target.keys →
        ¬ target.keys <+: other →
          (target.base after).reach other = (target.base scope).reach other) ∧
      (if target.inLocals scope then after.context = scope.context
        else after.locals = scope.locals) ∧
      ∀ (front : List String) (key : String), front ++ [key] <+: target.keys →
        ∀ items, (target.base scope).reach front = .array items →
          ∃ index items', Value.index? key = some index ∧
            (target.base after).reach front = .array items' ∧ Grown index items items' := by
  obtain ⟨hwrite, hlocal, hafter⟩ := write_ok hlasting h
  refine ⟨hlocal, ?others, ?scopes, ?arrays⟩
  case others =>
    intro other hlength hfront hbehind
    have hkeys : target.keys ≠ [] := by
      intro hnil
      exact hbehind (hnil ▸ List.nil_prefix)
    have hother : other ≠ [] := by
      rintro rfl
      exact hfront List.nil_prefix
    have hwritten := writePath_written hwrite hkeys
    rw [hwritten.reach_other hlength hfront hbehind, Value.reach_orRecord hother]
  case scopes =>
    split
    · next hlocals => rw [hafter, if_pos hlocals]
    · next hlocals => rw [hafter, if_neg hlocals]
  case arrays =>
    intro front key hfront items hitems
    have hkeys : target.keys ≠ [] := by
      intro hnil
      rw [hnil, List.prefix_nil] at hfront
      simp at hfront
    have hroot : (target.base scope).orRecord.reach front = .array items := by
      cases front with
      | nil =>
        have harray : target.base scope = .array items := hitems
        rw [harray]
        rfl
      | cons first front =>
        rw [Value.reach_orRecord (by simp)]
        exact hitems
    exact (writePath_written hwrite hkeys).grown hfront hroot

def shortArray : Scope where
  context := .record [("list", .array [.null, .integer 7]), ("length", .text "kept")]
  locals := some (.record [("other", .null)])

/-- Writing behind the end of an array keeps its items, and fills the gap. -/
theorem Target.behind_the_end_written : ∃ after,
    (Target.name "list" ["3", "x"]).write (.boolean true) shortArray = (.ok (), after) ∧
      (after.owner "list").reach ["list", "1"] = .integer 7 ∧ after.locals = shortArray.locals ∧
      ∃ items, (after.owner "list").reach ["list"] = .array items ∧
        Grown 3 [.null, .integer 7] items := by
  obtain ⟨after, hwrite⟩ : ∃ after,
      (Target.name "list" ["3", "x"]).write (.boolean true) shortArray = (.ok (), after) :=
    ⟨_, rfl⟩
  obtain ⟨-, hothers, hscopes, harrays⟩ := write_frame (by trivial) hwrite
  obtain ⟨index, items, hindex, hitems, hgrown⟩ :=
    harrays ["list"] "3" (by decide) [.null, .integer 7] rfl
  have hthree : Value.index? "3" = some 3 := rfl
  rw [hthree] at hindex
  cases hindex
  exact ⟨after, hwrite, hothers ["list", "1"] (by decide) (by decide) (by decide), hscopes, items,
    hitems, hgrown⟩

end TemplateExpr

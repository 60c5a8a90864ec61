import Mathlib
import TemplateExpr.Command
import TemplateExpr.Proofs.Program.Frame
import TemplateExpr.Proofs.Program.Parts

/-!
# An expression sees the names it mentions

Two scopes that give the same values to the names an expression mentions cannot be told apart by it
(`Expression.mentioned_names_suffice`), as long as the scopes are reached by names alone: not by
`this`, and not as the receiver of a call by a bare name. It makes no difference which of the
context and the locals a name belongs to, nor what else they hold.

The law survives assignments because of what a write to a name comes to, where names belong to
records: the value of this name changes, into something that depends on its former value alone, and
that of no other name does (`Target.write_name`).
-/

namespace TemplateExpr

/-! ## Writing to a name -/

/-- That the context is a record, so that every name belongs to one. -/
def Scope.Recorded (scope : Scope) : Prop := ∃ entries, scope.context = .record entries

theorem Scope.Recorded.owner {scope : Scope} (h : scope.Recorded) (name : String) :
    ∃ entries, scope.owner name = .record entries := by
  rw [Scope.owner_eq]
  split
  · next hlocal =>
    obtain ⟨context, locals⟩ := scope
    cases locals with
    | none => cases hlocal
    | some locals =>
      cases locals with
      | record entries => exact ⟨entries, rfl⟩
      | _ => cases hlocal
  · exact h

def writeMember (value : Value) (path : List String) (member : Value) :
    Except EvalError Unit × Value :=
  match path with
  | [] => (.ok (), value)
  | next :: path =>
    match Guard.checkObject member.orRecord with
    | .error violation => (.error (.security violation), member.orRecord)
    | .ok () => writePath value (next :: path) member.orRecord

theorem writePath_record (value : Value) (key : String) (path : List String)
    (entries : Entries Value) :
    writePath value (key :: path) (.record entries) =
      ((writeMember value path ((Value.record entries).getMember key)).1,
        .record (entries.insert key
          (writeMember value path ((Value.record entries).getMember key)).2)) := by
  cases path with
  | nil => rfl
  | cons next path =>
    rw [writePath, Value.openMember_eq]
    simp only [Value.setMember, Except.map, writeMember]
    cases Guard.checkObject ((Value.record entries).getMember key).orRecord with
    | error violation => rfl
    | ok => simp only [Value.putBack, Value.setMember, Entries.insert_insert]

namespace Value

theorem getMember_insert (entries : Entries Value) (key name : String) (member : Value) :
    (Value.record (entries.insert key member)).getMember name =
      if name = key then member else (Value.record entries).getMember name := by
  rw [getMember, Entries.get?_insert]
  split <;> rfl

theorem hasKey_insert (entries : Entries Value) (key name : String) (member : Value) :
    (Value.record (entries.insert key member)).hasKey name =
      (decide (name = key) || (Value.record entries).hasKey name) := by
  rw [hasKey, Entries.contains, Entries.get?_insert]
  split <;> simp [*, hasKey, Entries.contains]

end Value

namespace Scope

theorem lookup_locals (context locals : Value) (name : String) :
    lookup name ⟨context, some locals⟩ =
      if locals.hasKey name then locals.getMember name else context.getMember name := by
  show (if locals.hasKey name then locals else context).getMember name = _
  split <;> rfl

/-- A name reads what was stored for it, and every other name reads what it read, whichever of the
two scopes it belongs to. -/
theorem lookup_setOwner {key : String} {scope : Scope} {entries : Entries Value}
    (howner : scope.owner key = .record entries) (member : Value) (name : String) :
    (scope.setOwner key (.record (entries.insert key member))).lookup name =
      if name = key then member else scope.lookup name := by
  obtain ⟨context, locals⟩ := scope
  cases locals with
  | none =>
    obtain rfl : context = .record entries := howner
    exact Value.getMember_insert entries key name member
  | some locals =>
    by_cases hlocal : locals.hasKey key
    · obtain rfl : locals = .record entries := (if_pos hlocal).symm.trans howner
      have hset : (Scope.mk context (some (.record entries))).setOwner key
          (.record (entries.insert key member)) =
            ⟨context, some (.record (entries.insert key member))⟩ := if_pos hlocal
      rw [hset, lookup_locals, lookup_locals, Value.hasKey_insert, Value.getMember_insert]
      by_cases hname : name = key <;> simp [hname]
    · obtain rfl : context = .record entries := (if_neg hlocal).symm.trans howner
      have hset : (Scope.mk (.record entries) (some locals)).setOwner key
          (.record (entries.insert key member)) =
            ⟨.record (entries.insert key member), some locals⟩ := if_neg hlocal
      rw [hset, lookup_locals, lookup_locals, Value.getMember_insert]
      by_cases hname : name = key
      · subst hname
        rw [if_neg hlocal, if_pos rfl, if_pos rfl]
      · rw [if_neg hname, if_neg hname]

theorem Recorded.setOwner {scope : Scope} (h : scope.Recorded) (key : String)
    (entries : Entries Value) : (scope.setOwner key (.record entries)).Recorded := by
  unfold Scope.setOwner
  split
  · exact h
  · exact ⟨entries, rfl⟩

end Scope

/-- **What a write to a name comes to.** Its outcome and the new value of the name depend on nothing
but the former value of the name, and every other name keeps its value. -/
theorem Target.write_name {scope : Scope} (h : scope.Recorded) (key : String) (path : List String)
    (value : Value) :
    ((Target.name key path).write value scope).1 =
        (writeMember value path (scope.lookup key)).1 ∧
      ((Target.name key path).write value scope).2.Recorded ∧
      ∀ name, ((Target.name key path).write value scope).2.lookup name =
        if name = key then (writeMember value path (scope.lookup key)).2
        else scope.lookup name := by
  obtain ⟨entries, howner⟩ := h.owner key
  have hlookup : scope.lookup key = (Value.record entries).getMember key := by
    rw [Scope.lookup, howner]
  have hwrite : (Target.name key path).write value scope =
      ((writeMember value path (scope.lookup key)).1, scope.setOwner key
        (.record (Entries.insert key (writeMember value path (scope.lookup key)).2 entries))) := by
    have hwalk := writePath_record value key path entries
    rw [write, howner, hlookup, Value.orRecord_of_isNullish rfl, hwalk]
  rw [hwrite]
  exact ⟨rfl, h.setOwner key _, Scope.lookup_setOwner howner _⟩

/-! ## Contacts by name -/

/-- The contacts of an expression that reaches the scope by given names only. -/
def Contact.ByName (names : String → Prop) : Contact → Prop
  | .lookup name | .writeName name => names name
  | .call | .filter _ | .writeTemporary => True
  | .context | .callName _ | .writeThis => False

/-- That the contexts are records and names have the same values. -/
structure Scope.SameOn (names : String → Prop) (s₁ s₂ : Scope) : Prop where
  recorded₁ : s₁.Recorded
  recorded₂ : s₂.Recorded
  lookup : ∀ name, names name → s₁.lookup name = s₂.lookup name

def World.SameOn {σ : Type} (names : String → Prop) (w₁ w₂ : World σ) : Prop :=
  w₁.host = w₂.host ∧ w₁.scope.SameOn names w₂.scope

section

variable {σ α : Type} {names : String → Prop}

theorem Agree.ofHost_sameOn (run : HostRun σ α) :
    Agree (World.SameOn names) Anything (Run.ofHost run) (Run.ofHost run) := by
  rintro ⟨s₁, state⟩ ⟨s₂, _⟩ ⟨rfl, hscope⟩
  exact ⟨rfl, ⟨rfl, hscope⟩, fun _ _ => trivial⟩

theorem Agree.write_sameOn {target : Target} {value : Value}
    (h : ∀ s₁ s₂ : Scope, s₁.SameOn names s₂ →
      (target.write value s₁).1 = (target.write value s₂).1 ∧
        (target.write value s₁).2.SameOn names (target.write value s₂).2) :
    Agree (World.SameOn (σ := σ) names) Anything (Run.write target value)
      (Run.write target value) := by
  rintro w₁ w₂ ⟨hhost, hscope⟩
  have hstart : ∀ world : World σ, HostRun.start (Run.write target value) world = _ :=
    Run.start_write target value
  obtain ⟨houtcome, hafter⟩ := h w₁.scope w₂.scope hscope
  rw [hstart, hstart]
  exact ⟨houtcome, ⟨hhost, hafter⟩, fun _ _ => trivial⟩

theorem Target.write_name_sameOn {key : String} (hkey : names key) (path : List String)
    (value : Value) {s₁ s₂ : Scope} (h : s₁.SameOn names s₂) :
    ((Target.name key path).write value s₁).1 = ((Target.name key path).write value s₂).1 ∧
      ((Target.name key path).write value s₁).2.SameOn names
        ((Target.name key path).write value s₂).2 := by
  obtain ⟨houtcome₁, hrecorded₁, hlookup₁⟩ := write_name h.recorded₁ key path value
  obtain ⟨houtcome₂, hrecorded₂, hlookup₂⟩ := write_name h.recorded₂ key path value
  rw [h.lookup key hkey] at houtcome₁ hlookup₁
  refine ⟨houtcome₁.trans houtcome₂.symm, hrecorded₁, hrecorded₂, fun name hname => ?_⟩
  rw [hlookup₁, hlookup₂, h.lookup name hname]

/-- Contacts by name have the same outcome where the names have the same values. -/
theorem Access.standard_byName (host : Host σ) (names : String → Prop) :
    (Access.standard host).Steady (Contact.ByName names) (World.SameOn names) Anything where
  values := Value.closed_anything
  lookup name hname := by
    rintro w₁ w₂ ⟨hhost, hscope⟩
    exact ⟨congrArg Except.ok (hscope.lookup name hname), ⟨hhost, hscope⟩, fun _ _ => trivial⟩
  context hallowed := hallowed.elim
  getMember _ _ _ := .pure trivial
  call f receiver arguments hallowed _ _ := by
    cases receiver with
    | object value => exact .ofHost_sameOn (host.call f value arguments)
    | owner name => exact hallowed.elim
    | none => exact .ofHost_sameOn (host.call f .undefined arguments)
  filter filter arguments _ _ := .ofHost_sameOn (filter.apply host arguments)
  write target value hallowed _ := by
    rw [Access.write_standard]
    cases target with
    | name key path =>
      exact .write_sameOn fun _ _ hscope => Target.write_name_sameOn hallowed path value hscope
    | this path => exact hallowed.elim
    | temporary container path => exact .write_sameOn fun _ _ hscope => ⟨rfl, hscope⟩

end

/-! ## Trees -/

namespace Node

def isThis : Node → Bool
  | .this _ => true
  | _ => false

def isBareCall : Node → Bool
  | .call _ (.identifier ..) _ false => true
  | _ => false

/-- That a name stands in a tree where it is evaluated, called or assigned to. -/
def Mentions (tree : Node) (name : String) : Prop := ∃ flag, .identifier flag name ∈ tree.parts

theorem writeContact_byName {names : String → Prop} : (node : Node) →
    (∀ part ∈ node.parts, part.isThis = false) → (∀ name, node.Mentions name → names name) →
    Contact.ByName names node.writeContact
  | .identifier flag name, _, hnames => hnames name ⟨flag, mem_parts_self _⟩
  | .this flag, hthis, _ => nomatch hthis _ (mem_parts_self (.this flag))
  | .member flag target key computed, hthis, hnames => by
    have htarget : target ∈ (Node.member flag target key computed).operands := by
      cases computed <;> simp [operands]
    refine writeContact_byName target ?_ ?_
    · intro part hpart
      exact hthis part (mem_parts_of_operand htarget hpart)
    · rintro name ⟨flag, hpart⟩
      exact hnames name ⟨flag, mem_parts_of_operand htarget hpart⟩
  | .program .., _, _ | .literal .., _, _ | .array .., _, _ | .object .., _, _ | .call .., _, _
  | .assignment .., _, _ | .unary .., _, _ | .binary .., _, _ | .logical .., _, _
  | .conditional .., _, _ => trivial

theorem permitted_byName {registry : Registry} {names : String → Prop} {tree : Node}
    (hthis : ∀ part ∈ tree.parts, part.isThis = false)
    (hbare : ∀ part ∈ tree.parts, part.isBareCall = false)
    (hnames : ∀ name, tree.Mentions name → names name) :
    tree.AllPermitted registry (Contact.ByName names) := by
  intro part hpart
  cases part with
  | identifier flag name => exact hnames name ⟨flag, hpart⟩
  | this flag => exact nomatch hthis _ hpart
  | call flag callee arguments filter =>
    cases filter with
    | true => exact fun _ _ _ => trivial
    | false =>
      have hcallee := hbare _ hpart
      cases callee with
      | identifier => cases hcallee
      | _ => exact trivial
  | assignment flag left right =>
    have hleft : left.parts ⊆ tree.parts := fun _ hmem =>
      parts_subset hpart (mem_parts_of_operand List.mem_cons_self hmem)
    refine writeContact_byName left (fun part hmem => hthis part (hleft hmem)) ?_
    rintro name ⟨flag, hmem⟩
    exact hnames name ⟨flag, hleft hmem⟩
  | _ => exact trivial

end Node

/-! ## Expressions -/

/-- That an expression comes to the same in two worlds: the same result, the same state of the host,
and the same value again of every name that had the same value in both. -/
def Expression.AlikeFrom {σ : Type} (expression : Expression) (host : Host σ) (w₁ w₂ : World σ) :
    Prop :=
  let (result₁, after₁) := (expression.eval host).start w₁
  let (result₂, after₂) := (expression.eval host).start w₂
  result₁ = result₂ ∧ after₁.host = after₂.host ∧
    ∀ name, w₁.scope.lookup name = w₂.scope.lookup name →
      after₁.scope.lookup name = after₂.scope.lookup name

/-- Entries with others in front of them, which hide those of the same names. -/
def Entries.overlay {α : Type} (front behind : Entries α) : Entries α :=
  front.foldr (fun entry entries => Entries.insert entry.1 entry.2 entries) behind

theorem Entries.get?_overlay {α : Type} (front behind : Entries α) (key : String) :
    get? key (front.overlay behind) = (get? key front).or (get? key behind) := by
  induction front with
  | nil => rfl
  | cons entry front ih =>
    obtain ⟨k, v⟩ := entry
    have hcons : overlay ((k, v) :: front) behind = insert k v (overlay front behind) := rfl
    rw [hcons, get?_insert, get?_cons, ih]
    split <;> rfl

theorem Scope.lookup_overlay (front behind : Entries Value) (name : String) :
    lookup name ⟨.record (front.overlay behind), none⟩ =
      lookup name ⟨.record behind, some (.record front)⟩ := by
  have hkey : (Value.record front).hasKey name = (Entries.get? name front).isSome := rfl
  rw [lookup_locals]
  show Value.getMember name (.record (front.overlay behind)) = _
  rw [Value.getMember, Entries.get?_overlay]
  cases hfront : Entries.get? name front with
  | none =>
    rw [if_neg (by rw [hkey, hfront]; exact Bool.false_ne_true)]
    rfl
  | some value =>
    rw [if_pos (by rw [hkey, hfront]; rfl), Value.getMember, hfront]
    rfl

/-- **An expression sees the names it mentions.** Without `this` and without calls by a bare name,
an expression comes to the same in two scopes that give the same values to the names it mentions. So
evaluating with locals is evaluating in the context overlaid by them, and what is hidden by locals
makes no difference. -/
theorem Expression.mentioned_names_suffice {registry : Registry} {source : String} {tree : Node}
    {expression : Expression} (h : ofTree registry source tree = .ok expression)
    (hthis : ∀ part ∈ tree.parts, part.isThis = false)
    (hbare : ∀ part ∈ tree.parts, part.isBareCall = false) {σ : Type} (host : Host σ) :
    (∀ w₁ w₂ : World σ, w₁.host = w₂.host → w₁.scope.Recorded → w₂.scope.Recorded →
      (∀ name, tree.Mentions name → w₁.scope.lookup name = w₂.scope.lookup name) →
        expression.AlikeFrom host w₁ w₂) ∧
      (∀ (front behind : Entries Value) (state : σ),
        expression.AlikeFrom host ⟨⟨.record behind, some (.record front)⟩, state⟩
          ⟨⟨.record (front.overlay behind), none⟩, state⟩) ∧
      ∀ (front : Value) (behind other : Entries Value) (state : σ),
        (∀ name, front.hasKey name = false → Entries.get? name behind = Entries.get? name other) →
          expression.AlikeFrom host ⟨⟨.record behind, some front⟩, state⟩
            ⟨⟨.record other, some front⟩, state⟩ := by
  have halike : ∀ w₁ w₂ : World σ, w₁.host = w₂.host → w₁.scope.Recorded → w₂.scope.Recorded →
      (∀ name, tree.Mentions name → w₁.scope.lookup name = w₂.scope.lookup name) →
        expression.AlikeFrom host w₁ w₂ := by
    intro w₁ w₂ hhost hrecorded₁ hrecorded₂ hmentioned
    -- All names that agree now are followed, not only those that are mentioned.
    have hsteady := Access.standard_byName host fun name =>
      w₁.scope.lookup name = w₂.scope.lookup name
    have hagree := eval_steady hsteady h (Node.permitted_byName hthis hbare hmentioned)
    obtain ⟨hresult, ⟨hstate, hscope⟩, -⟩ :=
      hagree w₁ w₂ ⟨hhost, hrecorded₁, hrecorded₂, fun _ hname => hname⟩
    exact ⟨hresult, hstate, hscope.lookup⟩
  refine ⟨halike, fun front behind state => ?_, fun front behind other state hbehind => ?_⟩
  · refine halike _ _ rfl ⟨_, rfl⟩ ⟨_, rfl⟩ fun name _ => ?_
    exact (Scope.lookup_overlay front behind name).symm
  · refine halike _ _ rfl ⟨_, rfl⟩ ⟨_, rfl⟩ fun name _ => ?_
    rw [Scope.lookup_locals, Scope.lookup_locals]
    split
    · rfl
    · next hhidden =>
      rw [Value.getMember, Value.getMember, hbehind name (Bool.eq_false_iff.mpr hhidden)]

def undefinedLocal : Scope where
  context := .record [("n", .integer 1), ("m", .text "x"), ("other", .null)]
  locals := some (.record [("n", .undefined)])

def absentName : Scope where
  context := .record [("m", .text "x")]
  locals := none

/-- An undefined name in the locals and an absent one in the context are written into alike. -/
theorem Expression.undefined_or_absent_alike : ∃ tree expression,
    treeOf "n[m] = m; n.x | json" = .ok tree ∧
      ofTree .builtins "n[m] = m; n.x | json" tree = .ok expression ∧
        (∀ part ∈ tree.parts, part.isThis = false) ∧
          (∀ part ∈ tree.parts, part.isBareCall = false) ∧
            (∀ name, tree.Mentions name →
              undefinedLocal.lookup name = absentName.lookup name) ∧
              expression.AlikeFrom Host.none ⟨undefinedLocal, ()⟩ ⟨absentName, ()⟩ := by
  obtain ⟨tree, expression, htree, h, hthis, hbare, hnames⟩ : ∃ tree expression,
      treeOf "n[m] = m; n.x | json" = .ok tree ∧
        ofTree .builtins "n[m] = m; n.x | json" tree = .ok expression ∧
          (∀ part ∈ tree.parts, part.isThis = false) ∧
            (∀ part ∈ tree.parts, part.isBareCall = false) ∧
              ∀ flag name, .identifier flag name ∈ tree.parts → name = "n" ∨ name = "m" := by
    refine ⟨_, _, by cbv, by cbv, by decide, by decide, fun flag name hmem => ?_⟩
    simp [Node.parts, Node.partsAll] at hmem
    tauto
  have hsame : ∀ name, tree.Mentions name →
      undefinedLocal.lookup name = absentName.lookup name := by
    rintro name ⟨flag, hmem⟩
    rcases hnames flag name hmem with rfl | rfl <;> rfl
  obtain ⟨halike, -⟩ := mentioned_names_suffice h hthis hbare Host.none
  exact ⟨tree, expression, htree, h, hthis, hbare, hsame,
    halike ⟨undefinedLocal, ()⟩ ⟨absentName, ()⟩ rfl ⟨_, rfl⟩ ⟨_, rfl⟩ hsame⟩

end TemplateExpr

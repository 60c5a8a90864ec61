import TemplateExpr.Proofs.Program.Access
import TemplateExpr.Proofs.Program.Agreement

/-!
# Where code meets its surroundings

What a run can depend on or change is settled by the places where code meets what is not code: it
looks up a name, takes the context, calls a function, applies a filter, or writes. `Contact` names
the kinds of such places, and `Code.Within` says that code has none but the allowed ones.

From this follows what the run keeps. Let two worlds be related, and let every allowed contact keep
them related and end alike in both (`Access.Steady`). Then all code within the allowed contacts does
(`Code.evalBy_steady`). The one induction over code serves every law that forbids some contacts:
that code without writes changes nothing, or that code without look-ups sees nothing.
-/

namespace TemplateExpr

/-! ## Contacts -/

/-- A kind of place at which code meets its surroundings. -/
inductive Contact where
  | lookup (name : String)
  | context
  /-- A call whose receiver is the object of a member, or nothing. -/
  | call
  /-- A call whose receiver is what a name belongs to. -/
  | callName (name : String)
  | filter (filter : Filter)
  | writeName (name : String)
  | writeThis
  | writeTemporary

def Receiver.contact : Receiver → Contact
  | .object _ | .none => .call
  | .owner name => .callName name

def Root.contact : Root → Contact
  | .name key => .writeName key
  | .this => .writeThis
  | .temporary _ => .writeTemporary

def Target.contact : Target → Contact
  | .name key _ => .writeName key
  | .this _ => .writeThis
  | .temporary _ _ => .writeTemporary

section

variable (allowed : Contact → Prop)

mutual
/-- That code meets its surroundings in allowed ways only. -/
def Code.Within : Code → Prop
  | .literal _ => True
  | .array elements => Code.AllWithin elements
  | .record entries => Code.EntriesWithin entries
  | .name name => allowed (.lookup name)
  | .this => allowed .context
  | .member target key => target.Within ∧ key.Within
  | .callMember target key arguments =>
    allowed .call ∧ target.Within ∧ key.Within ∧ Code.AllWithin arguments
  | .callName name arguments =>
    allowed (.lookup name) ∧ allowed (.callName name) ∧ Code.AllWithin arguments
  | .callValue callee arguments => allowed .call ∧ callee.Within ∧ Code.AllWithin arguments
  | .filter filter arguments => allowed (.filter filter) ∧ Code.AllWithin arguments
  | .assign root path value =>
    allowed root.contact ∧ root.Within ∧ Key.AllWithin path ∧ value.Within
  | .unary _ operand => operand.Within
  | .binary _ left right => left.Within ∧ right.Within
  | .logical _ left right => left.Within ∧ right.Within
  | .conditional test consequent alternate => test.Within ∧ consequent.Within ∧ alternate.Within

@[inherit_doc Code.Within]
def Code.AllWithin : List Code → Prop
  | [] => True
  | code :: codes => code.Within ∧ Code.AllWithin codes

@[inherit_doc Code.Within]
def Code.EntriesWithin : List (String × Code) → Prop
  | [] => True
  | (_, code) :: entries => code.Within ∧ Code.EntriesWithin entries

@[inherit_doc Code.Within]
def Key.Within : Key → Prop
  | .fixed _ => True
  | .computed code => code.Within

@[inherit_doc Code.Within]
def Key.AllWithin : List Key → Prop
  | [] => True
  | key :: keys => key.Within ∧ Key.AllWithin keys

/-- That evaluating a root meets the surroundings in allowed ways only. What is written at the root
afterwards is a contact of its own. -/
def Root.Within : Root → Prop
  | .name _ | .this => True
  | .temporary code => code.Within
end

theorem Key.allWithin_append {allowed : Contact → Prop} {keys keys' : List Key}
    (h : Key.AllWithin allowed keys) (h' : Key.AllWithin allowed keys') :
    Key.AllWithin allowed (keys ++ keys') := by
  induction keys with
  | nil => exact h'
  | cons key keys ih => exact ⟨h.1, ih h.2⟩

end

/-! ## Values of a kind -/

/-- That a set of values is closed under all that code does with values by itself. -/
structure Value.Closed (V : Value → Prop) : Prop where
  undefined : V .undefined
  literal : ∀ literal : Literal, V literal.value
  array : ∀ items, (∀ item ∈ items, V item) → V (.array items)
  record : ∀ entries : Entries Value, (∀ entry ∈ entries, V entry.2) → V (.record entries)
  unary : ∀ op operand, V operand → V (operand.applyUnary op)
  binary : ∀ op left right, V left → V right → V (left.applyBinary op right)

theorem Value.closed_anything : Value.Closed Anything where
  undefined := trivial
  literal _ := trivial
  array _ _ := trivial
  record _ _ := trivial
  unary _ _ _ := trivial
  binary _ _ _ _ _ := trivial

theorem Entries.forall_insert {α : Type} {P : α → Prop} {key : String} {value : α}
    {entries : Entries α} (hvalue : P value) (hentries : ∀ entry ∈ entries, P entry.2) :
    ∀ entry ∈ Entries.insert key value entries, P entry.2 := by
  induction entries with
  | nil =>
    intro entry hmem
    rw [List.mem_singleton.mp hmem]
    exact hvalue
  | cons first rest ih =>
    obtain ⟨hfirst, hrest⟩ := List.forall_mem_cons.mp hentries
    simp only [insert]
    split
    · exact List.forall_mem_cons.mpr ⟨hvalue, hrest⟩
    · exact List.forall_mem_cons.mpr ⟨hfirst, ih hrest⟩

/-! ## Steady contacts -/

/-- That a receiver is of a kind. What a name belongs to is not code's to know. -/
def Receiver.Holds (V : Value → Prop) : Receiver → Prop
  | .object value => V value
  | .owner _ | .none => True

section

variable {σ : Type}

/-- Allowed contacts end alike in two related worlds, with a value of a kind, and leave the worlds
related. -/
structure Access.Steady (access : Access σ) (allowed : Contact → Prop)
    (S : World σ → World σ → Prop) (V : Value → Prop) : Prop where
  values : Value.Closed V
  lookup : ∀ name, allowed (.lookup name) → Agree S V (access.lookup name) (access.lookup name)
  context : allowed .context →
    Agree S V (do return (← Run.scope).context) (do return (← Run.scope).context)
  getMember : ∀ container key, V container →
    Agree S V (access.getMember container key) (access.getMember container key)
  call : ∀ f (receiver : Receiver) arguments, allowed receiver.contact → receiver.Holds V →
    (∀ argument ∈ arguments, V argument) →
      Agree S V (access.call f receiver arguments) (access.call f receiver arguments)
  filter : ∀ filter arguments, allowed (.filter filter) → (∀ argument ∈ arguments, V argument) →
    Agree S V (access.filter filter arguments) (access.filter filter arguments)
  write : ∀ (target : Target) value, allowed target.contact → V value →
    Agree S Anything (access.write target value) (access.write target value)

variable {access : Access σ} {allowed : Contact → Prop} {S : World σ → World σ → Prop}
  {V : Value → Prop}

namespace Access.Steady

theorem invoke (h : access.Steady allowed S V) (callee : Value) (receiver : Receiver)
    (hallowed : allowed receiver.contact) (hreceiver : receiver.Holds V) {arguments : List Value}
    (harguments : ∀ argument ∈ arguments, V argument) :
    TemplateExpr.Agree S V (access.invoke callee receiver arguments)
      (access.invoke callee receiver arguments) := by
  cases callee with
  | function f =>
    refine (h.call f receiver arguments hallowed hreceiver harguments).bind fun result hresult => ?_
    exact (Agree.guarded _).bind fun _ _ => .pure hresult
  | _ => exact .throw _

end Access.Steady

mutual
theorem Code.evalBy_steady (h : access.Steady allowed S V) : (code : Code) → code.Within allowed →
    Agree S V (code.evalBy access) (code.evalBy access)
  | .literal value, _ => .pure (h.values.literal value)
  | .array elements, hwithin => by
    simp only [Code.evalBy]
    exact (Code.evalAllBy_steady h elements hwithin).bind fun items hitems =>
      .pure (h.values.array items hitems)
  | .record entries, hwithin => by
    simp only [Code.evalBy]
    exact (Code.evalEntriesBy_steady h entries [] (by simp) hwithin).bind fun stored hstored =>
      .pure (h.values.record stored hstored)
  | .name name, hwithin => by
    simp only [Code.evalBy]
    exact (h.lookup name hwithin).bind fun _ hvalue => .handedOn hvalue
  | .this, hwithin => by
    simp only [Code.evalBy]
    exact h.context hwithin
  | .member target key, hwithin => by
    obtain ⟨htarget, hkey⟩ := hwithin
    simp only [Code.evalBy]
    refine (Code.evalBy_steady h target htarget).bind fun container hcontainer => ?_
    refine .ite (.pure h.values.undefined) ?_
    refine (Agree.guarded _).bind fun _ _ => ?_
    refine (Key.evalBy_steady h key hkey).bind fun name _ => ?_
    exact (h.getMember container name hcontainer).bind fun _ hvalue => .handedOn hvalue
  | .callMember target key arguments, hwithin => by
    obtain ⟨hallowed, htarget, hkey, harguments⟩ := hwithin
    simp only [Code.evalBy]
    refine (Code.evalBy_steady h target htarget).bind fun receiver hreceiver => ?_
    refine .ite (.pure h.values.undefined) ?_
    refine (Agree.guarded _).bind fun _ _ => ?_
    refine (Key.evalBy_steady h key hkey).bind fun name _ => ?_
    refine (h.getMember receiver name hreceiver).bind fun callee _ => ?_
    refine .ite (.pure h.values.undefined) ?_
    refine (Agree.guarded _).bind fun _ _ => ?_
    refine (Code.evalArgumentsBy_steady h arguments harguments).bind fun given hgiven => ?_
    exact h.invoke callee (.object receiver) hallowed hreceiver hgiven
  | .callName name arguments, hwithin => by
    obtain ⟨hname, hallowed, harguments⟩ := hwithin
    simp only [Code.evalBy]
    refine (h.lookup name hname).bind fun callee _ => .ite (.pure h.values.undefined) ?_
    refine (Agree.guarded _).bind fun _ _ => ?_
    refine (Code.evalArgumentsBy_steady h arguments harguments).bind fun given hgiven => ?_
    exact h.invoke callee (.owner name) hallowed trivial hgiven
  | .callValue callee arguments, hwithin => by
    obtain ⟨hallowed, hcallee, harguments⟩ := hwithin
    simp only [Code.evalBy]
    refine (Code.evalBy_steady h callee hcallee).bind fun callee _ => ?_
    refine .ite (.pure h.values.undefined) ?_
    refine (Agree.guarded _).bind fun _ _ => ?_
    refine (Code.evalArgumentsBy_steady h arguments harguments).bind fun given hgiven => ?_
    exact h.invoke callee .none hallowed trivial hgiven
  | .filter filter arguments, hwithin => by
    obtain ⟨hallowed, harguments⟩ := hwithin
    simp only [Code.evalBy]
    refine (Code.evalAllBy_steady h arguments harguments).bind fun given hgiven => ?_
    exact (h.filter filter given hallowed hgiven).bind fun _ hvalue => .handedOn hvalue
  | .assign root path value, hwithin => by
    obtain ⟨hallowed, hroot, hpath, hvalue⟩ := hwithin
    simp only [Code.evalBy]
    refine (Root.evalBy_steady h root (Key.evalAllBy_steady h path hpath) hroot).bind
      fun target htarget => ?_
    refine (Code.evalBy_steady h value hvalue).bind fun given hgiven => ?_
    refine (Agree.handedOn hgiven).bind fun stored hstored => ?_
    rw [← htarget] at hallowed
    exact (h.write target stored hallowed hstored).bind fun _ _ => .pure hstored
  | .unary op operand, hwithin => by
    simp only [Code.evalBy]
    exact (Code.evalBy_steady h operand hwithin).bind fun value hvalue =>
      .pure (h.values.unary op value hvalue)
  | .binary op left right, hwithin => by
    obtain ⟨hleft, hright⟩ := hwithin
    simp only [Code.evalBy]
    refine (Code.evalBy_steady h left hleft).bind fun first hfirst => ?_
    exact (Code.evalBy_steady h right hright).bind fun second hsecond =>
      .pure (h.values.binary op first second hfirst hsecond)
  | .logical op left right, hwithin => by
    obtain ⟨hleft, hright⟩ := hwithin
    simp only [Code.evalBy]
    refine (Code.evalBy_steady h left hleft).bind fun value hvalue => .ite (.pure hvalue) ?_
    exact Code.evalBy_steady h right hright
  | .conditional test consequent alternate, hwithin => by
    obtain ⟨htest, hconsequent, halternate⟩ := hwithin
    simp only [Code.evalBy]
    refine (Code.evalBy_steady h test htest).bind fun _ _ => .ite ?_ ?_
    · exact Code.evalBy_steady h consequent hconsequent
    · exact Code.evalBy_steady h alternate halternate

theorem Code.evalAllBy_steady (h : access.Steady allowed S V) : (codes : List Code) →
    Code.AllWithin allowed codes →
    Agree S (fun values => ∀ value ∈ values, V value) (Code.evalAllBy access codes)
      (Code.evalAllBy access codes)
  | [], _ => .pure (by simp)
  | code :: codes, hwithin => by
    obtain ⟨hcode, hcodes⟩ := hwithin
    simp only [Code.evalAllBy]
    refine (Code.evalBy_steady h code hcode).bind fun first hfirst => ?_
    exact (Code.evalAllBy_steady h codes hcodes).bind fun rest hrest =>
      .pure (List.forall_mem_cons.mpr ⟨hfirst, hrest⟩)

theorem Code.evalArgumentsBy_steady (h : access.Steady allowed S V) : (codes : List Code) →
    Code.AllWithin allowed codes →
    Agree S (fun values => ∀ value ∈ values, V value) (Code.evalArgumentsBy access codes)
      (Code.evalArgumentsBy access codes)
  | [], _ => .pure (by simp)
  | code :: codes, hwithin => by
    obtain ⟨hcode, hcodes⟩ := hwithin
    simp only [Code.evalArgumentsBy]
    refine (Code.evalBy_steady h code hcode).bind fun value hvalue => ?_
    refine (Agree.handedOn hvalue).bind fun first hfirst => ?_
    exact (Code.evalArgumentsBy_steady h codes hcodes).bind fun rest hrest =>
      .pure (List.forall_mem_cons.mpr ⟨hfirst, hrest⟩)

theorem Code.evalEntriesBy_steady (h : access.Steady allowed S V) :
    (codes : List (String × Code)) → (before : Entries Value) →
    (∀ entry ∈ before, V entry.2) → Code.EntriesWithin allowed codes →
    Agree S (fun entries => ∀ entry ∈ entries, V entry.2)
      (Code.evalEntriesBy access before codes) (Code.evalEntriesBy access before codes)
  | [], before, hbefore, _ => .pure hbefore
  | (key, code) :: codes, before, hbefore, hwithin => by
    obtain ⟨hcode, hcodes⟩ := hwithin
    simp only [Code.evalEntriesBy]
    exact (Code.evalBy_steady h code hcode).bind fun value hvalue =>
      Code.evalEntriesBy_steady h codes _ (Entries.forall_insert hvalue hbefore) hcodes

theorem Key.evalBy_steady (h : access.Steady allowed S V) : (key : Key) → key.Within allowed →
    Agree S Anything (key.evalBy access) (key.evalBy access)
  | .fixed name, _ => .pure trivial
  | .computed code, hwithin => by
    simp only [Key.evalBy]
    refine (Code.evalBy_steady h code hwithin).bind fun value _ => ?_
    exact (Agree.guarded _).bind fun _ _ => .pure trivial

theorem Key.evalAllBy_steady (h : access.Steady allowed S V) : (keys : List Key) →
    Key.AllWithin allowed keys →
    Agree S Anything (Key.evalAllBy access keys) (Key.evalAllBy access keys)
  | [], _ => .pure trivial
  | key :: keys, hwithin => by
    obtain ⟨hkey, hkeys⟩ := hwithin
    simp only [Key.evalAllBy]
    refine (Key.evalBy_steady h key hkey).bind fun _ _ => ?_
    exact (Key.evalAllBy_steady h keys hkeys).bind fun _ _ => .pure trivial

/-- The target is at the same root as the place, so writing to it is the contact that was
allowed. -/
theorem Root.evalBy_steady (h : access.Steady allowed S V) : (root : Root) →
    {path : Run σ (List String)} → Agree S Anything path path → root.Within allowed →
    Agree S (fun target => target.contact = root.contact) (root.evalBy access path)
      (root.evalBy access path)
  | .name name, _, hpath, _ => by
    simp only [Root.evalBy]
    exact hpath.bind fun _ _ => .pure rfl
  | .this, _, hpath, _ => by
    simp only [Root.evalBy]
    exact hpath.bind fun _ _ => .pure rfl
  | .temporary code, _, hpath, hwithin => by
    simp only [Root.evalBy]
    refine (Code.evalBy_steady h code hwithin).bind fun value hvalue => ?_
    refine (Agree.handedOn hvalue).bind fun stored _ => ?_
    exact hpath.bind fun _ _ => .pure rfl
end

theorem Code.evalStatementsBy_steady (h : access.Steady allowed S V) (codes : List Code)
    {last : Value} (hlast : V last) (hwithin : Code.AllWithin allowed codes) :
    Agree S V (Code.evalStatementsBy access last codes)
      (Code.evalStatementsBy access last codes) := by
  induction codes generalizing last with
  | nil => exact .pure hlast
  | cons code codes ih =>
    obtain ⟨hcode, hcodes⟩ := hwithin
    exact (Code.evalBy_steady h code hcode).bind fun value hvalue => ih hvalue hcodes

end

end TemplateExpr

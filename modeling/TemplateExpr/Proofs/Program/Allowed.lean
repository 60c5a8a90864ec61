import TemplateExpr.Expression

/-!
# Names in compiled code

Compiling refuses every tree that uses a blocked name: as a name, as a member that is not computed,
or on the left of an assignment. So every name that stands in code is one that the guard allows
(`Expression.ofSource_allowed`). Names that are computed stand in no code; for these the guard is
asked when they are known.
-/

namespace TemplateExpr

def Unblocked (name : String) : Prop := name ∉ Guard.blockedMembers

theorem unblocked_of_checkName {name : String} (h : Guard.checkName name = .ok ()) :
    Unblocked name := by
  unfold Guard.checkName at h
  split at h
  · cases h
  · assumption

mutual
def Code.Allowed : Code → Prop
  | .literal _ | .this => True
  | .array elements => Code.AllAllowed elements
  | .record entries => Code.EntriesAllowed entries
  | .name name => Unblocked name
  | .member target key => target.Allowed ∧ key.Allowed
  | .callMember target key arguments => target.Allowed ∧ key.Allowed ∧ Code.AllAllowed arguments
  | .callName name arguments => Unblocked name ∧ Code.AllAllowed arguments
  | .callValue callee arguments => callee.Allowed ∧ Code.AllAllowed arguments
  | .filter _ arguments => Code.AllAllowed arguments
  | .assign root path value => root.Allowed ∧ Key.AllAllowed path ∧ value.Allowed
  | .unary _ operand => operand.Allowed
  | .binary _ left right => left.Allowed ∧ right.Allowed
  | .logical _ left right => left.Allowed ∧ right.Allowed
  | .conditional test consequent alternate =>
    test.Allowed ∧ consequent.Allowed ∧ alternate.Allowed

def Code.AllAllowed : List Code → Prop
  | [] => True
  | code :: codes => code.Allowed ∧ Code.AllAllowed codes

def Code.EntriesAllowed : List (String × Code) → Prop
  | [] => True
  | (_, code) :: entries => code.Allowed ∧ Code.EntriesAllowed entries

def Key.Allowed : Key → Prop
  | .fixed name => Unblocked name
  | .computed code => code.Allowed

def Key.AllAllowed : List Key → Prop
  | [] => True
  | key :: keys => key.Allowed ∧ Key.AllAllowed keys

def Root.Allowed : Root → Prop
  | .name name => Unblocked name
  | .this => True
  | .temporary code => code.Allowed
end

def Place.Allowed (place : Place) : Prop := place.root.Allowed ∧ Key.AllAllowed place.path

theorem Key.allAllowed_append {keys keys' : List Key} (h : Key.AllAllowed keys)
    (h' : Key.AllAllowed keys') : Key.AllAllowed (keys ++ keys') := by
  induction keys with
  | nil => exact h'
  | cons key keys ih => exact ⟨h.1, ih h.2⟩

/-! ## Compiling -/

/-- What a compilation that succeeds starts with succeeds too. -/
theorem bind_ok {ε α β : Type} {x : Except ε α} {f : α → Except ε β} {result : β}
    (h : x >>= f = .ok result) : ∃ value, x = .ok value ∧ f value = .ok result := by
  cases x with
  | ok value => exact ⟨value, rfl, h⟩
  | error fault => cases h

theorem map_ok {ε α β : Type} {f : α → β} {x : Except ε α} {result : β}
    (h : f <$> x = .ok result) : ∃ value, x = .ok value ∧ f value = result := by
  cases x with
  | ok value =>
    cases h
    exact ⟨value, rfl, rfl⟩
  | error fault => cases h

theorem allowedName_ok {name given : String} (h : allowedName name = .ok given) :
    given = name ∧ Unblocked name := by
  unfold allowedName at h
  split at h
  · next hcheck =>
    cases h
    exact ⟨rfl, unblocked_of_checkName hcheck⟩
  · cases h

theorem allowedName_of_unblocked {name : String} (h : Unblocked name) :
    allowedName name = .ok name := by
  rw [allowedName, Guard.checkName, if_neg h]

theorem Node.fixedKey_allowed {node : Node} {key : Key} (h : node.fixedKey = .ok key) :
    key.Allowed := by
  unfold Node.fixedKey at h
  split at h
  · obtain ⟨given, hname, heq⟩ := bind_ok h
    cases heq
    obtain ⟨rfl, hname⟩ := allowedName_ok hname
    exact hname
  · cases h

section

variable (registry : Registry)

theorem Node.key_allowed {α : Type} {node : Node} {computed : Bool} {result : α}
    {next : Key → Except CompileError α}
    (hnode : ∀ code, node.compile registry = .ok code → code.Allowed)
    (h : (if computed then Key.computed <$> node.compile registry >>= next
      else node.fixedKey >>= next) = .ok result) :
    ∃ key, key.Allowed ∧ next key = .ok result := by
  cases computed with
  | false =>
    obtain ⟨key, hkey, h⟩ := bind_ok h
    exact ⟨key, Node.fixedKey_allowed hkey, h⟩
  | true =>
    obtain ⟨key, hkey, h⟩ := bind_ok h
    obtain ⟨code, hcode, rfl⟩ := map_ok hkey
    exact ⟨.computed code, hnode code hcode, h⟩

theorem Node.longer_allowed {node : Node} {computed : Bool} {before place : Place}
    (hnode : ∀ code, node.compile registry = .ok code → code.Allowed) (hbefore : before.Allowed)
    (h : (if computed then Key.computed <$> node.compile registry >>= fun key =>
        pure { before with path := before.path ++ [key] }
      else node.fixedKey >>= fun key => pure { before with path := before.path ++ [key] }) =
        .ok place) :
    place.Allowed := by
  obtain ⟨key, hkey, hplace⟩ := Node.key_allowed registry hnode h
  cases hplace
  exact ⟨hbefore.1, Key.allAllowed_append hbefore.2 ⟨hkey, trivial⟩⟩

mutual
theorem Node.compile_allowed : (node : Node) → ∀ code : Code,
    node.compile registry = .ok code → code.Allowed
  | .program _ _, code, h => by cases h
  | .literal _ value, code, h => by
    cases h
    exact trivial
  | .array _ elements, code, h => by
    obtain ⟨codes, helements, hcode⟩ := bind_ok h
    cases hcode
    exact Node.compileAll_allowed elements codes helements
  | .object _ properties, code, h => by
    obtain ⟨codes, hproperties, hcode⟩ := bind_ok h
    cases hcode
    exact Node.compileEntries_allowed properties codes hproperties
  | .identifier _ name, code, h => by
    obtain ⟨given, hname, hcode⟩ := bind_ok h
    cases hcode
    obtain ⟨rfl, hname⟩ := allowedName_ok hname
    exact hname
  | .this _, code, h => by
    cases h
    exact trivial
  | .member _ target key computed, code, h => by
    obtain ⟨target', htarget, h⟩ := bind_ok h
    obtain ⟨key', hkey, hcode⟩ := Node.key_allowed registry (Node.compile_allowed key) h
    cases hcode
    exact ⟨Node.compile_allowed target target' htarget, hkey⟩
  | .call _ callee arguments true, code, h => by
    obtain ⟨filter, -, h⟩ := bind_ok h
    obtain ⟨codes, harguments, hcode⟩ := bind_ok h
    cases hcode
    exact Node.compileAll_allowed arguments codes harguments
  | .call _ callee arguments false, code, h => by
    rw [Node.compile] at h
    obtain ⟨codes, harguments, h⟩ := bind_ok h
    have hgiven := Node.compileAll_allowed arguments codes harguments
    cases callee with
    | member _ target key computed =>
      obtain ⟨target', htarget, h⟩ := bind_ok h
      obtain ⟨key', hkey, hcode⟩ := Node.key_allowed registry (Node.compile_allowed key) h
      cases hcode
      exact ⟨Node.compile_allowed target target' htarget, hkey, hgiven⟩
    | identifier _ name =>
      obtain ⟨given, hname, hcode⟩ := bind_ok h
      cases hcode
      obtain ⟨rfl, hname⟩ := allowedName_ok hname
      exact ⟨hname, hgiven⟩
    | _ =>
      obtain ⟨callee', hcallee, hcode⟩ := bind_ok h
      cases hcode
      exact ⟨Node.compile_allowed _ callee' hcallee, hgiven⟩
  | .assignment _ left right, code, h => by
    obtain ⟨place, hplace, h⟩ := bind_ok h
    obtain ⟨value, hvalue, hcode⟩ := bind_ok h
    cases hcode
    have hallowed := Node.compilePlace_allowed left place hplace
    exact ⟨hallowed.1, hallowed.2, Node.compile_allowed right value hvalue⟩
  | .unary _ op argument, code, h => by
    obtain ⟨operand, hoperand, hcode⟩ := bind_ok h
    cases hcode
    exact Node.compile_allowed argument operand hoperand
  | .binary _ op left right, code, h => by
    obtain ⟨left', hleft, h⟩ := bind_ok h
    obtain ⟨right', hright, hcode⟩ := bind_ok h
    cases hcode
    exact ⟨Node.compile_allowed left left' hleft, Node.compile_allowed right right' hright⟩
  | .logical _ op left right, code, h => by
    obtain ⟨left', hleft, h⟩ := bind_ok h
    obtain ⟨right', hright, hcode⟩ := bind_ok h
    cases hcode
    exact ⟨Node.compile_allowed left left' hleft, Node.compile_allowed right right' hright⟩
  | .conditional _ test consequent alternate, code, h => by
    obtain ⟨test', htest, h⟩ := bind_ok h
    obtain ⟨consequent', hconsequent, h⟩ := bind_ok h
    obtain ⟨alternate', halternate, hcode⟩ := bind_ok h
    cases hcode
    exact ⟨Node.compile_allowed test test' htest,
      Node.compile_allowed consequent consequent' hconsequent,
      Node.compile_allowed alternate alternate' halternate⟩

theorem Node.compileAll_allowed : (nodes : List Node) → ∀ codes : List Code,
    Node.compileAll registry nodes = .ok codes → Code.AllAllowed codes
  | [], codes, h => by
    cases h
    exact trivial
  | node :: nodes, codes, h => by
    obtain ⟨code, hnode, h⟩ := bind_ok h
    obtain ⟨rest, hnodes, hcodes⟩ := bind_ok h
    cases hcodes
    exact ⟨Node.compile_allowed node code hnode, Node.compileAll_allowed nodes rest hnodes⟩

theorem Node.compileEntries_allowed : (nodes : List (PropertyKey × Node)) →
    ∀ codes : List (String × Code),
      Node.compileEntries registry nodes = .ok codes → Code.EntriesAllowed codes
  | [], codes, h => by
    cases h
    exact trivial
  | (key, node) :: nodes, codes, h => by
    obtain ⟨code, hnode, h⟩ := bind_ok h
    obtain ⟨rest, hnodes, hcodes⟩ := bind_ok h
    cases hcodes
    exact ⟨Node.compile_allowed node code hnode, Node.compileEntries_allowed nodes rest hnodes⟩

theorem Node.compilePlace_allowed : (node : Node) → ∀ place : Place,
    node.compilePlace registry = .ok place → place.Allowed
  | .identifier _ name, place, h => by
    obtain ⟨given, hname, hplace⟩ := bind_ok h
    cases hplace
    obtain ⟨rfl, hname⟩ := allowedName_ok hname
    exact ⟨hname, trivial⟩
  | .member _ target key computed, place, h => by
    have hkey := Node.compile_allowed key
    cases target with
    | identifier _ name =>
      rw [Node.compilePlace] at h
      obtain ⟨before, hbefore, h⟩ := bind_ok h
      exact Node.longer_allowed registry hkey (Node.compilePlace_allowed _ before hbefore) h
    | member _ target key computed =>
      rw [Node.compilePlace] at h
      obtain ⟨before, hbefore, h⟩ := bind_ok h
      exact Node.longer_allowed registry hkey (Node.compilePlace_allowed _ before hbefore) h
    | this _ =>
      rw [Node.compilePlace] at h
      obtain ⟨before, hbefore, h⟩ := bind_ok h
      cases hbefore
      have hroot : Place.Allowed ⟨.this, []⟩ := ⟨trivial, trivial⟩
      exact Node.longer_allowed registry hkey hroot h
    | _ =>
      rw [Node.compilePlace] at h
      · obtain ⟨before, hbefore, h⟩ := bind_ok h
        obtain ⟨code, htarget, rfl⟩ := map_ok hbefore
        have hroot : Place.Allowed ⟨.temporary code, []⟩ :=
          ⟨Node.compile_allowed _ code htarget, trivial⟩
        exact Node.longer_allowed registry hkey hroot h
      all_goals simp
  | .program .., place, h | .literal .., place, h | .array .., place, h | .object .., place, h
  | .this .., place, h | .call .., place, h | .assignment .., place, h | .unary .., place, h
  | .binary .., place, h | .logical .., place, h | .conditional .., place, h => by cases h
end

end

/-! ## Expressions -/

theorem Expression.place?_allowed {registry : Registry} {body : List Node} {place : Place}
    (h : place? registry body = .ok (some place)) : place.Allowed := by
  unfold place? at h
  split at h
  · obtain ⟨found, hfound, heq⟩ := map_ok h
    cases heq
    exact Node.compilePlace_allowed registry _ _ hfound
  · obtain ⟨found, hfound, heq⟩ := map_ok h
    cases heq
    exact Node.compilePlace_allowed registry _ _ hfound
  · cases h

/-- That no blocked name stands in an expression. What is written by hand has no code. -/
def Expression.Allowed (expression : Expression) : Prop :=
  (match expression.reading with
    | .statements body => Code.AllAllowed body
    | .handWritten _ => False) ∧
  ∀ place, expression.place = some place → place.Allowed

theorem Expression.ofTree_allowed {registry : Registry} {source : String} {tree : Node}
    {expression : Expression} (h : ofTree registry source tree = .ok expression) :
    expression.Allowed := by
  unfold ofTree at h
  split at h
  · next flag body =>
    obtain ⟨code, hcode, h⟩ := bind_ok h
    obtain ⟨place, hplace, h⟩ := bind_ok h
    cases h
    refine ⟨Node.compileAll_allowed registry body code hcode, ?_⟩
    rintro found rfl
    exact place?_allowed hplace
  · cases h

/-- **No blocked name stands in what compiles.** -/
theorem Expression.ofSource_allowed {registry : Registry} {source : String}
    {expression : Expression} (h : ofSource registry source = .ok expression) :
    expression.Allowed := by
  obtain ⟨tree, -, h⟩ := bind_ok h
  exact ofTree_allowed h

end TemplateExpr

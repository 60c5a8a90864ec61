import TemplateExpr.Proofs.Program.Allowed

/-!
# What compiled code was made of

Each lemma takes a compilation that succeeded and says which compilations it consists of. Proofs
about compiled code begin with one of them, and none has to look into `Node.compile` for the two
parts in which it branches on a subtree: the key of a member, and where a place starts.
-/

namespace TemplateExpr

inductive Node.KeyCompiles (registry : Registry) : Node → (computed : Bool) → Key → Prop
  | fixed (flag : Bool) (name : String) :
    Node.KeyCompiles registry (.identifier flag name) false (.fixed name)
  | computed (node : Node) (code : Code) (h : node.compile registry = .ok code) :
    Node.KeyCompiles registry node true (.computed code)

inductive Node.PlaceStarts (registry : Registry) : Node → Place → Prop
  | name (flag : Bool) (name : String) (place : Place)
    (h : (Node.identifier flag name).compilePlace registry = .ok place) :
    Node.PlaceStarts registry (.identifier flag name) place
  | member (flag : Bool) (target key : Node) (computed : Bool) (place : Place)
    (h : (Node.member flag target key computed).compilePlace registry = .ok place) :
    Node.PlaceStarts registry (.member flag target key computed) place
  | this (flag : Bool) : Node.PlaceStarts registry (.this flag) ⟨.this, []⟩
  | temporary (node : Node) (code : Code) (hname : ∀ flag name, node ≠ .identifier flag name)
    (hmember : ∀ flag target key computed, node ≠ .member flag target key computed)
    (hthis : ∀ flag, node ≠ .this flag) (h : node.compile registry = .ok code) :
    Node.PlaceStarts registry node ⟨.temporary code, []⟩

inductive Node.CallCompiles (registry : Registry) (arguments : List Code) : Node → Code → Prop
  | member (flag : Bool) (target key : Node) (computed : Bool) (target' : Code) (key' : Key)
    (htarget : target.compile registry = .ok target')
    (hkey : key.KeyCompiles registry computed key') :
    Node.CallCompiles registry arguments (.member flag target key computed)
      (.callMember target' key' arguments)
  | name (flag : Bool) (name : String) :
    Node.CallCompiles registry arguments (.identifier flag name) (.callName name arguments)
  | value (callee : Node) (callee' : Code)
    (hmember : ∀ flag target key computed, callee ≠ .member flag target key computed)
    (hname : ∀ flag name, callee ≠ .identifier flag name)
    (h : callee.compile registry = .ok callee') :
    Node.CallCompiles registry arguments callee (.callValue callee' arguments)

section

variable {registry : Registry}

theorem Registry.lookup_ok {name : String} {filter : Filter}
    (h : registry.lookup name = .ok filter) : registry.find? name = some filter := by
  unfold Registry.lookup at h
  split at h
  · next hfind =>
    cases h
    exact hfind
  · cases h

theorem Node.filter_ok {callee : Node} {filter : Filter}
    (h : callee.filterName >>= registry.lookup = .ok filter) :
    ∃ flag name, callee = .identifier flag name ∧ registry.find? name = some filter := by
  obtain ⟨name, hname, hlookup⟩ := bind_ok h
  cases callee with
  | identifier flag name =>
    cases hname
    exact ⟨flag, _, rfl, Registry.lookup_ok hlookup⟩
  | _ => cases hname

theorem Node.key_ok {α : Type} {node : Node} {computed : Bool} {result : α}
    {next : Key → Except CompileError α}
    (h : (if computed then Key.computed <$> node.compile registry >>= next
      else node.fixedKey >>= next) = .ok result) :
    ∃ key, node.KeyCompiles registry computed key ∧ next key = .ok result := by
  cases computed with
  | false =>
    obtain ⟨key, hkey, hnext⟩ := bind_ok h
    cases node with
    | identifier flag name =>
      obtain ⟨given, hname, heq⟩ := bind_ok hkey
      cases heq
      obtain ⟨rfl, -⟩ := allowedName_ok hname
      exact ⟨_, .fixed flag given, hnext⟩
    | _ => cases hkey
  | true =>
    obtain ⟨key, hkey, hnext⟩ := bind_ok h
    obtain ⟨code, hcode, rfl⟩ := map_ok hkey
    exact ⟨_, .computed node code hcode, hnext⟩

theorem Node.member_ok {flag : Bool} {target key : Node} {computed : Bool} {code : Code}
    (h : (Node.member flag target key computed).compile registry = .ok code) :
    ∃ target' key', target.compile registry = .ok target' ∧
      key.KeyCompiles registry computed key' ∧ code = .member target' key' := by
  rw [Node.compile] at h
  obtain ⟨target', htarget, h⟩ := bind_ok h
  obtain ⟨key', hkey, hcode⟩ := Node.key_ok h
  cases hcode
  exact ⟨target', key', htarget, hkey, rfl⟩

theorem Node.call_ok {flag : Bool} {callee : Node} {arguments : List Node} {code : Code}
    (h : (Node.call flag callee arguments false).compile registry = .ok code) :
    ∃ arguments', Node.compileAll registry arguments = .ok arguments' ∧
      callee.CallCompiles registry arguments' code := by
  rw [Node.compile] at h
  obtain ⟨arguments', harguments, h⟩ := bind_ok h
  refine ⟨arguments', harguments, ?_⟩
  cases callee with
  | member flag target key computed =>
    obtain ⟨target', htarget, h⟩ := bind_ok h
    obtain ⟨key', hkey, hcode⟩ := Node.key_ok h
    cases hcode
    exact .member flag target key computed target' key' htarget hkey
  | identifier flag name =>
    obtain ⟨given, hname, hcode⟩ := bind_ok h
    obtain ⟨rfl, -⟩ := allowedName_ok hname
    cases hcode
    exact .name flag given
  | _ =>
    obtain ⟨callee', hcallee, hcode⟩ := bind_ok h
    cases hcode
    exact .value _ callee' (by simp) (by simp) hcallee

theorem Node.memberPlace_ok {flag : Bool} {target key : Node} {computed : Bool} {place : Place}
    (h : (Node.member flag target key computed).compilePlace registry = .ok place) :
    ∃ before key', target.PlaceStarts registry before ∧ key.KeyCompiles registry computed key' ∧
      place = { before with path := before.path ++ [key'] } := by
  cases target with
  | identifier flag name =>
    rw [Node.compilePlace] at h
    obtain ⟨before, hbefore, h⟩ := bind_ok h
    obtain ⟨key', hkey, hplace⟩ := Node.key_ok h
    cases hplace
    exact ⟨before, key', .name flag name before hbefore, hkey, rfl⟩
  | member flag target inner computed =>
    rw [Node.compilePlace] at h
    obtain ⟨before, hbefore, h⟩ := bind_ok h
    obtain ⟨key', hkey, hplace⟩ := Node.key_ok h
    cases hplace
    exact ⟨before, key', .member flag target inner computed before hbefore, hkey, rfl⟩
  | this flag =>
    rw [Node.compilePlace] at h
    obtain ⟨before, hbefore, h⟩ := bind_ok h
    obtain ⟨key', hkey, hplace⟩ := Node.key_ok h
    cases hbefore
    cases hplace
    exact ⟨_, key', .this flag, hkey, rfl⟩
  | _ =>
    rw [Node.compilePlace] at h
    · obtain ⟨before, hbefore, h⟩ := bind_ok h
      obtain ⟨key', hkey, hplace⟩ := Node.key_ok h
      obtain ⟨code, htarget, rfl⟩ := map_ok hbefore
      cases hplace
      refine ⟨_, key', .temporary _ code ?_ ?_ ?_ htarget, hkey, rfl⟩
      all_goals simp
    all_goals simp

theorem Node.identifierPlace_ok {flag : Bool} {name : String} {place : Place}
    (h : (Node.identifier flag name).compilePlace registry = .ok place) :
    place = ⟨.name name, []⟩ := by
  obtain ⟨given, hname, hplace⟩ := bind_ok h
  obtain ⟨rfl, -⟩ := allowedName_ok hname
  cases hplace
  rfl

theorem Node.assignment_ok {flag : Bool} {left right : Node} {code : Code}
    (h : (Node.assignment flag left right).compile registry = .ok code) :
    ∃ place value, left.compilePlace registry = .ok place ∧ right.compile registry = .ok value ∧
      code = .assign place.root place.path value := by
  obtain ⟨place, hplace, h⟩ := bind_ok h
  obtain ⟨value, hvalue, hcode⟩ := bind_ok h
  cases hcode
  exact ⟨place, value, hplace, hvalue, rfl⟩

end

end TemplateExpr

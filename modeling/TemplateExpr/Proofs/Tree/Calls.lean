import TemplateExpr.Tree

/-!
# The calls of a tree

Where in a tree the calls stand, listed in post-order: what stands below a call comes before it, and
what stands to the left comes before what stands to the right (`Node.calls`). The listing is
complete and lists nothing twice (`Node.mem_calls`, `Node.calls_nodup`).

Addresses say which way to go from the root. The last step comes first, so that the addresses below
a node end alike.
-/

namespace TemplateExpr

/-! ## Addresses -/

/-- Where a node stands: for every step from the root the number of the child to go to, the last
step first. -/
abbrev Address := List Nat

namespace Node

def children : Node → List Node
  | .program _ body => body
  | .literal .. | .identifier .. | .this _ => []
  | .array _ elements => elements
  | .object _ properties => properties.map Prod.snd
  | .member _ target key _ => [target, key]
  | .call _ callee arguments _ => callee :: arguments
  | .assignment _ left right => [left, right]
  | .unary _ _ argument => [argument]
  | .binary _ _ left right => [left, right]
  | .logical _ _ left right => [left, right]
  | .conditional _ test consequent alternate => [test, consequent, alternate]

def at? (tree : Node) : Address → Option Node
  | [] => some tree
  | step :: before => do (← tree.at? before).children[step]?

def isCall : Node → Bool
  | .call .. => true
  | _ => false

def CallAt (tree : Node) (address : Address) : Prop :=
  ∃ node, tree.at? address = some node ∧ node.isCall = true

mutual
/-- The addresses of the calls in a tree that stands `here`, in post-order. -/
def calls (here : Address) : Node → List Address
  | .program _ body => callsAll here 0 body
  | .literal .. | .identifier .. | .this _ => []
  | .array _ elements => callsAll here 0 elements
  | .object _ properties => callsEntries here 0 properties
  | .member _ target key _ => target.calls (0 :: here) ++ key.calls (1 :: here)
  | .call _ callee arguments _ =>
    callee.calls (0 :: here) ++ callsAll here 1 arguments ++ [here]
  | .assignment _ left right => left.calls (0 :: here) ++ right.calls (1 :: here)
  | .unary _ _ argument => argument.calls (0 :: here)
  | .binary _ _ left right => left.calls (0 :: here) ++ right.calls (1 :: here)
  | .logical _ _ left right => left.calls (0 :: here) ++ right.calls (1 :: here)
  | .conditional _ test consequent alternate =>
    test.calls (0 :: here) ++ consequent.calls (1 :: here) ++ alternate.calls (2 :: here)

def callsAll (here : Address) (first : Nat) : List Node → List Address
  | [] => []
  | node :: nodes => node.calls (first :: here) ++ callsAll here (first + 1) nodes

def callsEntries (here : Address) (first : Nat) : List (PropertyKey × Node) → List Address
  | [] => []
  | (_, node) :: entries => node.calls (first :: here) ++ callsEntries here (first + 1) entries
end

/-! ## Induction -/

theorem forall_pair {P : Node → Prop} {first second : Node} (hfirst : P first)
    (hsecond : P second) : ∀ child ∈ [first, second], P child :=
  List.forall_mem_cons.mpr ⟨hfirst, List.forall_mem_singleton.mpr hsecond⟩

section

variable {P : Node → Prop}

mutual
theorem induction (step : ∀ node : Node, (∀ child ∈ node.children, P child) → P node) :
    ∀ node : Node, P node
  | .program _ body => step _ (inductionAll step body)
  | .literal _ _ => step _ (inductionAll step [])
  | .array _ elements => step _ (inductionAll step elements)
  | .object _ properties => step _ (inductionEntries step properties)
  | .identifier _ _ => step _ (inductionAll step [])
  | .this _ => step _ (inductionAll step [])
  | .member _ target key _ => step _ (forall_pair (induction step target) (induction step key))
  | .call _ callee arguments _ =>
    step _ (List.forall_mem_cons.mpr ⟨induction step callee, inductionAll step arguments⟩)
  | .assignment _ left right => step _ (forall_pair (induction step left) (induction step right))
  | .unary _ _ argument => step _ (List.forall_mem_singleton.mpr (induction step argument))
  | .binary _ _ left right => step _ (forall_pair (induction step left) (induction step right))
  | .logical _ _ left right => step _ (forall_pair (induction step left) (induction step right))
  | .conditional _ test consequent alternate =>
    step _ (List.forall_mem_cons.mpr ⟨induction step test,
      forall_pair (induction step consequent) (induction step alternate)⟩)

theorem inductionAll (step : ∀ node : Node, (∀ child ∈ node.children, P child) → P node) :
    ∀ nodes : List Node, ∀ child ∈ nodes, P child
  | [] => fun _ hmem => nomatch hmem
  | node :: nodes => List.forall_mem_cons.mpr ⟨induction step node, inductionAll step nodes⟩

theorem inductionEntries (step : ∀ node : Node, (∀ child ∈ node.children, P child) → P node) :
    ∀ entries : List (PropertyKey × Node), ∀ child ∈ entries.map Prod.snd, P child
  | [] => fun _ hmem => nomatch hmem
  | (_, node) :: entries =>
    List.forall_mem_cons.mpr ⟨induction step node, inductionEntries step entries⟩
end

end

/-! ## The listing -/

theorem callsEntries_eq (here : Address) (first : Nat) (entries : List (PropertyKey × Node)) :
    callsEntries here first entries = callsAll here first (entries.map Prod.snd) := by
  induction entries generalizing first with
  | nil => rfl
  | cons entry entries ih =>
    obtain ⟨key, node⟩ := entry
    rw [callsEntries, ih, List.map_cons, callsAll]

/-- The calls below a node come first, child by child, and then the node itself, if it is one. -/
theorem calls_eq (here : Address) (node : Node) :
    node.calls here = callsAll here 0 node.children ++ if node.isCall then [here] else [] := by
  cases node <;> simp [calls, callsAll, callsEntries_eq, children, isCall]

theorem at?_append (tree : Node) (below : Address) (step : Nat) :
    tree.at? (below ++ [step]) = tree.children[step]?.bind (·.at? below) := by
  induction below with
  | nil => cases h : tree.children[step]? <;> simp [at?, h]
  | cons next below ih =>
    rw [List.cons_append, at?, ih]
    cases tree.children[step]? <;> rfl

theorem mem_callsAll {here : Address} {first : Nat} {nodes : List Node} {address : Address}
    (h : ∀ node ∈ nodes, ∀ here : Address,
      address ∈ node.calls here ↔ ∃ below, address = below ++ here ∧ node.CallAt below) :
    address ∈ callsAll here first nodes ↔ ∃ step node below, nodes[step]? = some node ∧
      address = below ++ (first + step) :: here ∧ node.CallAt below := by
  induction nodes generalizing first with
  | nil => simp [callsAll]
  | cons node nodes ih =>
    obtain ⟨hnode, hnodes⟩ := List.forall_mem_cons.mp h
    rw [callsAll, List.mem_append, hnode, ih hnodes]
    constructor
    · rintro (⟨below, haddress, hcall⟩ | ⟨step, node', below, hget, haddress, hcall⟩)
      · exact ⟨0, node, below, rfl, haddress, hcall⟩
      · refine ⟨step + 1, node', below, hget, ?_, hcall⟩
        rw [haddress, Nat.add_right_comm, Nat.add_assoc]
    · rintro ⟨step, node', below, hget, haddress, hcall⟩
      cases step with
      | zero =>
        cases hget
        exact .inl ⟨below, haddress, hcall⟩
      | succ step =>
        refine .inr ⟨step, node', below, hget, ?_, hcall⟩
        rw [haddress, Nat.add_right_comm, Nat.add_assoc]

theorem mem_calls_here {address : Address} (node : Node) : ∀ here : Address,
    address ∈ node.calls here ↔ ∃ below, address = below ++ here ∧ node.CallAt below := by
  induction node using induction with
  | step node ih =>
    intro here
    rw [calls_eq, List.mem_append, mem_callsAll ih]
    constructor
    · rintro (⟨step, child, below, hget, haddress, called, hat, hcall⟩ | hown)
      · refine ⟨below ++ [step], ?_, called, ?_, hcall⟩
        · rw [haddress, Nat.zero_add, List.append_assoc, List.singleton_append]
        · rw [at?_append, hget]
          exact hat
      · split at hown
        · next hcall => exact ⟨[], List.mem_singleton.mp hown, node, rfl, hcall⟩
        · cases hown
    · rintro ⟨below, haddress, called, hat, hcall⟩
      rcases List.eq_nil_or_concat below with rfl | ⟨before, step, rfl⟩
      · cases hat
        rw [if_pos hcall]
        exact .inr (List.mem_singleton.mpr haddress)
      · rw [List.concat_eq_append, at?_append] at hat
        obtain ⟨child, hget, hat⟩ := Option.bind_eq_some_iff.mp hat
        refine .inl ⟨step, child, before, hget, ?_, called, hat, hcall⟩
        rw [haddress, Nat.zero_add, List.concat_eq_append, List.append_assoc,
          List.singleton_append]

/-- **The listing is complete.** An address is listed exactly if a call stands there. -/
theorem mem_calls {tree : Node} {address : Address} :
    address ∈ tree.calls [] ↔ tree.CallAt address := by
  rw [mem_calls_here]
  constructor
  · rintro ⟨below, rfl, hcall⟩
    rw [List.append_nil]
    exact hcall
  · intro hcall
    exact ⟨address, (List.append_nil address).symm, hcall⟩

theorem callsAll_nodup {here : Address} {first : Nat} {nodes : List Node}
    (h : ∀ node ∈ nodes, ∀ here, (node.calls here).Nodup) : (callsAll here first nodes).Nodup := by
  induction nodes generalizing first with
  | nil => exact List.nodup_nil
  | cons node nodes ih =>
    obtain ⟨hnode, hnodes⟩ := List.forall_mem_cons.mp h
    refine List.nodup_append.mpr ⟨hnode _, ih hnodes, ?_⟩
    -- Below different children, addresses differ.
    rintro address hmem _ hother rfl
    obtain ⟨below, hbelow, -⟩ := (mem_calls_here node _).mp hmem
    obtain ⟨step, node', below', -, hbelow', -⟩ :=
      (mem_callsAll fun node _ => mem_calls_here node).mp hother
    obtain ⟨-, hsteps⟩ := List.append_inj' (hbelow.symm.trans hbelow') rfl
    have hstep : first = first + 1 + step := (List.cons.inj hsteps).1
    omega

/-- **The listing lists nothing twice.** -/
theorem calls_nodup (tree : Node) : ∀ here, (tree.calls here).Nodup := by
  induction tree using induction with
  | step node ih =>
    intro here
    rw [calls_eq]
    refine List.nodup_append.mpr ⟨callsAll_nodup ih, by split <;> simp, ?_⟩
    -- What stands below a node does not stand where it stands.
    rintro address hmem _ hown rfl
    obtain ⟨step, child, below, -, hbelow, -⟩ :=
      (mem_callsAll fun node _ => mem_calls_here node).mp hmem
    split at hown
    · rw [List.mem_singleton.mp hown] at hbelow
      have hlength := congrArg List.length hbelow
      simp only [List.length_append, List.length_cons] at hlength
      omega
    · cases hown

end Node

end TemplateExpr

import TemplateExpr.Proofs.Tree.Calls
import TemplateExpr.Proofs.Tree.Soundness
import TemplateExpr.Tree.Constancy

/-!
# The shape of trees that are read

A tree can be made by hand in shapes that no list of tokens has. `Node.AsRead` says what sets the
trees that are read apart from these, at every address and not only where evaluation goes. It is
proved on derivations: every tree that the grammar builds has the shape below the root
(`Derives.shaped`), and every tree that is read is derived, whatever the tokens
(`Node.ofTokens_shaped`).

Marking the nodes that are constant keeps the shape and sets flags only (`Node.analyze_shaped`).
-/

namespace TemplateExpr

namespace Node

/-! ## What holds at every address -/

def Everywhere (P : Node → Prop) (tree : Node) : Prop :=
  ∀ (address : Address) (node : Node), tree.at? address = some node → P node

theorem everywhere_iff {P : Node → Prop} {tree : Node} :
    tree.Everywhere P ↔ P tree ∧ ∀ child ∈ tree.children, child.Everywhere P := by
  constructor
  · intro h
    refine ⟨h [] tree rfl, fun child hchild below node hnode => ?_⟩
    obtain ⟨step, hstep⟩ := List.getElem?_of_mem hchild
    refine h (below ++ [step]) node ?_
    rw [at?_append, hstep]
    exact hnode
  · rintro ⟨hself, hchildren⟩ address node hnode
    rcases List.eq_nil_or_concat address with rfl | ⟨below, step, rfl⟩
    · cases hnode
      exact hself
    · rw [List.concat_eq_append, at?_append] at hnode
      obtain ⟨child, hchild, hbelow⟩ := Option.bind_eq_some_iff.mp hnode
      exact hchildren child (List.mem_of_getElem? hchild) below node hbelow

/-! ## Shapes -/

/-- The shape of a node below the root: it is no program, the key of a member that is not computed
is a name, and a filter is called by its name with the value that is piped in. -/
def Shaped : Node → Prop
  | .program .. => False
  | .member _ _ key false => ∃ flag name, key = .identifier flag name
  | .call _ callee arguments true =>
    (∃ flag name, callee = .identifier flag name) ∧ arguments ≠ []
  | _ => True

structure AsRead (tree : Node) : Prop where
  root : ∃ flag body, tree = .program flag body
  program_at_root : ∀ address flag body, tree.at? address = some (.program flag body) →
    address = []
  member_key : ∀ address flag target key,
    tree.at? address = some (.member flag target key false) →
      ∃ flag name, key = .identifier flag name
  filter_call : ∀ address flag callee arguments,
    tree.at? address = some (.call flag callee arguments true) →
      (∃ flag name, callee = .identifier flag name) ∧ arguments ≠ []
  unmarked : ∀ address node, tree.at? address = some node → node.constant = false

end Node

/-! ## Trees that are derived -/

def Phrase.Each (P : Node → Prop) : Phrase → Prop
  | .program tree => ∀ statement ∈ tree.children, P statement
  | .pipeline tree | .assignment _ tree | .ternary _ tree | .chain _ tree | .tighter _ tree
  | .prefixed tree | .postfixed tree | .operand tree | .entry _ tree => P tree
  | .statements nodes | .statement nodes | .stageArguments nodes | .arguments nodes
  | .argumentList nodes | .elements nodes => ∀ node ∈ nodes, P node
  | .entries fields => ∀ node ∈ fields.map Prod.snd, P node

namespace Node

/-- A node as it is read below the root: shaped, and not marked as constant. -/
def ReadBelow (node : Node) : Prop := node.Shaped ∧ node.constant = false

abbrev AllReadBelow (tree : Node) : Prop := tree.Everywhere ReadBelow

theorem allReadBelow_leaf {tree : Node} (hself : tree.ReadBelow) (hleaf : tree.children = []) :
    tree.AllReadBelow :=
  everywhere_iff.mpr ⟨hself, by simp [hleaf]⟩

theorem allReadBelow_name (name : String) : (identifier false name).AllReadBelow :=
  allReadBelow_leaf ⟨trivial, rfl⟩ rfl

theorem allReadBelow_apply {op : InfixOp} {left right : Node} (hleft : left.AllReadBelow)
    (hright : right.AllReadBelow) : (op.apply left right).AllReadBelow := by
  cases op <;> exact everywhere_iff.mpr ⟨⟨trivial, rfl⟩, forall_pair hleft hright⟩

end Node

open Node in
/-- **The grammar builds shaped trees only.** -/
theorem Derives.shaped {rule : Attachment} {phrase : Phrase} {ts : List Token}
    (h : Derives rule phrase ts) : phrase.Each AllReadBelow := by
  induction h with
  | program _ ih | lastStatement _ ih | unpiped _ ih | unassigned _ ih | unconditional _ ih
  | unchained _ ih | level _ _ ih | tightest _ _ ih | unprefixed _ ih | bare _ ih
  | bracketed _ ih | someArguments _ ih | namedEntry _ ih | constantEntry _ ih => exact ih
  | oneStatement _ ih | lastArgument _ ih | lastElement _ ih | lastEntry _ ih =>
    exact List.forall_mem_singleton.mpr ih
  | noStatement | noStageArgument | noArgument | noElement | noEntry => simp [Phrase.Each]
  | moreStatements _ _ ihf ihm => exact List.forall_mem_append.mpr ⟨ihf, ihm⟩
  | stageArgument _ _ ihi ihm | moreArguments _ _ ihi ihm | moreElements _ _ ihi ihm
  | moreEntries _ _ ihi ihm => exact List.forall_mem_cons.mpr ⟨ihi, ihm⟩
  | piped _ _ ihi iha =>
    -- The value that is piped in is the first argument, so there is one.
    refine everywhere_iff.mpr ⟨⟨⟨⟨_, _, rfl⟩, List.cons_ne_nil _ _⟩, rfl⟩, ?_⟩
    exact List.forall_mem_cons.mpr ⟨allReadBelow_name _, List.forall_mem_cons.mpr ⟨ihi, iha⟩⟩
  | assigned _ _ _ ihl ihr | index _ _ ihl ihr =>
    exact everywhere_iff.mpr ⟨⟨trivial, rfl⟩, forall_pair ihl ihr⟩
  | conditional _ _ _ iht ihc iha =>
    exact everywhere_iff.mpr
      ⟨⟨trivial, rfl⟩, List.forall_mem_cons.mpr ⟨iht, forall_pair ihc iha⟩⟩
  | chained _ _ _ ihl ihr => exact allReadBelow_apply ihl ihr
  | signed _ _ ih =>
    exact everywhere_iff.mpr ⟨⟨trivial, rfl⟩, List.forall_mem_singleton.mpr ih⟩
  | member _ ih =>
    exact everywhere_iff.mpr ⟨⟨⟨_, _, rfl⟩, rfl⟩, forall_pair ih (allReadBelow_name _)⟩
  | call _ _ ihc ihg =>
    exact everywhere_iff.mpr ⟨⟨trivial, rfl⟩, List.forall_mem_cons.mpr ⟨ihc, ihg⟩⟩
  | constant => exact allReadBelow_leaf ⟨trivial, rfl⟩ rfl
  | word hword => cases hword <;> exact allReadBelow_leaf ⟨trivial, rfl⟩ rfl
  | array _ ih | object _ ih => exact everywhere_iff.mpr ⟨⟨trivial, rfl⟩, ih⟩

/-! ## Trees that are read -/

namespace Node

theorem asRead_program {body : List Node} (h : ∀ statement ∈ body, statement.AllReadBelow) :
    (program false body).AsRead := by
  have hat : ∀ address node, (program false body).at? address = some node →
      address = [] ∧ node = .program false body ∨ node.ReadBelow := by
    intro address node hnode
    rcases List.eq_nil_or_concat address with rfl | ⟨below, step, rfl⟩
    · exact .inl ⟨rfl, (Option.some.inj hnode).symm⟩
    · rw [List.concat_eq_append, at?_append] at hnode
      obtain ⟨statement, hstatement, hnode⟩ := Option.bind_eq_some_iff.mp hnode
      exact .inr (h statement (List.mem_of_getElem? hstatement) below node hnode)
  refine ⟨⟨false, body, rfl⟩, ?_, ?_, ?_, ?_⟩
  · intro address flag body' hnode
    rcases hat address _ hnode with ⟨rfl, -⟩ | ⟨hshaped, -⟩
    · rfl
    · exact hshaped.elim
  · intro address flag target key hnode
    rcases hat address _ hnode with ⟨-, heq⟩ | ⟨hshaped, -⟩
    · cases heq
    · exact hshaped
  · intro address flag callee arguments hnode
    rcases hat address _ hnode with ⟨-, heq⟩ | ⟨hshaped, -⟩
    · cases heq
    · exact hshaped
  · intro address node hnode
    rcases hat address _ hnode with ⟨-, rfl⟩ | ⟨-, hflag⟩
    · rfl
    · exact hflag

theorem ofTokens_shaped {ts : List Token} {tree : Node} (h : ofTokens ts = .ok tree) :
    ∃ body, tree = program false body ∧ ∀ statement ∈ body, statement.AllReadBelow := by
  obtain ⟨us, -, hderives⟩ := ofTokens_derives h
  cases hderives with
  | program hbody => exact ⟨_, rfl, hbody.shaped⟩

/-! ## Trees with their flags set -/

theorem analyzeAll_eq (nodes : List Node) : analyzeAll nodes = nodes.map analyze := by
  induction nodes with
  | nil => rfl
  | cons node nodes ih => rw [analyzeAll, ih, List.map_cons]

theorem map_analyzeEntries (entries : List (PropertyKey × Node)) :
    (analyzeEntries entries).map Prod.snd = (entries.map Prod.snd).map analyze := by
  induction entries with
  | nil => rfl
  | cons entry entries ih =>
    obtain ⟨key, node⟩ := entry
    rw [analyzeEntries, List.map_cons, ih, List.map_cons, List.map_cons]

theorem children_analyze (node : Node) : node.analyze.children = node.children.map analyze := by
  cases node <;> simp [analyze, children, analyzeAll_eq, map_analyzeEntries]

theorem at?_analyze (tree : Node) (address : Address) :
    tree.analyze.at? address = (tree.at? address).map analyze := by
  induction address with
  | nil => rfl
  | cons step before ih =>
    rw [at?, at?, ih]
    cases tree.at? before <;> simp [children_analyze]

theorem Shaped.analyze {node : Node} (h : node.Shaped) : node.analyze.Shaped := by
  cases node with
  | program => exact h
  | member flag target key computed =>
    cases computed with
    | true => exact trivial
    | false =>
      obtain ⟨flag, name, rfl⟩ := h
      exact ⟨false, name, rfl⟩
  | call flag callee arguments filter =>
    cases filter with
    | false => exact trivial
    | true =>
      obtain ⟨⟨flag, name, rfl⟩, hgiven⟩ := h
      exact ⟨⟨false, name, rfl⟩, by simpa [analyzeAll_eq] using hgiven⟩
  | _ => exact trivial

/-- **Setting flags keeps the shape.** -/
theorem analyze_shaped {tree : Node} (h : tree.Everywhere Shaped) :
    tree.analyze.Everywhere Shaped := by
  intro address node hnode
  rw [at?_analyze] at hnode
  obtain ⟨before, hbefore, rfl⟩ := Option.map_eq_some_iff.mp hnode
  exact (h address before hbefore).analyze

end Node

end TemplateExpr

import TemplateExpr.Proofs.Tree.Calls
import TemplateExpr.Proofs.Tree.Soundness

/-!
# The size of trees

A tree that is read is no larger than its source: it has at most as many nodes as there are tokens,
the root apart (`Node.ofTokens_size`). Each production of the grammar adds no more nodes than it has
terminals. So this is an induction over derivations (`Derives.size_le`), and holds of all lists of
tokens because whatever is read is derived from as many tokens (`Takes.length_eq`).
-/

namespace TemplateExpr

namespace Node

mutual
def size : Node → Nat
  | .program _ body => sizeAll body + 1
  | .literal .. | .identifier .. | .this _ => 1
  | .array _ elements => sizeAll elements + 1
  | .object _ properties => sizeEntries properties + 1
  | .member _ target key _ => target.size + key.size + 1
  | .call _ callee arguments _ => callee.size + sizeAll arguments + 1
  | .assignment _ left right => left.size + right.size + 1
  | .unary _ _ argument => argument.size + 1
  | .binary _ _ left right => left.size + right.size + 1
  | .logical _ _ left right => left.size + right.size + 1
  | .conditional _ test consequent alternate =>
    test.size + consequent.size + alternate.size + 1

def sizeAll : List Node → Nat
  | [] => 0
  | node :: nodes => node.size + sizeAll nodes

def sizeEntries : List (PropertyKey × Node) → Nat
  | [] => 0
  | (_, node) :: entries => node.size + sizeEntries entries
end

@[simp] theorem sizeAll_nil : sizeAll [] = 0 := by rw [sizeAll]

@[simp] theorem sizeAll_cons (node : Node) (nodes : List Node) :
    sizeAll (node :: nodes) = node.size + sizeAll nodes := by rw [sizeAll]

@[simp] theorem sizeAll_append (first more : List Node) :
    sizeAll (first ++ more) = sizeAll first + sizeAll more := by
  induction first with
  | nil => simp
  | cons node first ih => simp [ih, Nat.add_assoc]

theorem size_apply (op : InfixOp) (left right : Node) :
    (op.apply left right).size = left.size + right.size + 1 := by
  cases op <;> rw [InfixOp.apply, size]

end Node

/-- The number of nodes of what a phrase stands for, the root of a program apart. -/
def Phrase.size : Phrase → Nat
  | .program tree => Node.sizeAll tree.children
  | .pipeline tree | .assignment _ tree | .ternary _ tree | .chain _ tree | .tighter _ tree
  | .prefixed tree | .postfixed tree | .operand tree | .entry _ tree => tree.size
  | .statements nodes | .statement nodes | .stageArguments nodes | .arguments nodes
  | .argumentList nodes | .elements nodes => Node.sizeAll nodes
  | .entries fields => Node.sizeEntries fields

open Node in
/-- **A phrase has no more nodes than tokens.** -/
theorem Derives.size_le {rule : Attachment} {phrase : Phrase} {ts : List Token}
    (h : Derives rule phrase ts) : phrase.size ≤ ts.length := by
  induction h with
  | program _ ih | lastStatement _ ih | unpiped _ ih | unassigned _ ih | unconditional _ ih
  | unchained _ ih | level _ _ ih | tightest _ _ ih | unprefixed _ ih | bare _ ih
  | someArguments _ ih => exact ih
  | noStatement | noStageArgument | noArgument | noElement | noEntry => exact Nat.zero_le _
  | constant => exact Nat.le_refl 1
  | word hword => cases hword <;> exact Nat.le_refl 1
  | oneStatement _ ih | lastArgument _ ih | lastElement _ ih | lastEntry _ ih =>
    simpa [Phrase.size, sizeEntries] using ih
  | signed _ _ ih | member _ ih | bracketed _ ih | array _ ih | object _ ih | namedEntry _ ih
  | constantEntry _ ih =>
    simp only [Phrase.size, size, List.length_append, List.length_cons, List.length_nil] at ih ⊢
    omega
  | moreStatements _ _ ihu ihv | piped _ _ ihu ihv | stageArgument _ _ ihu ihv
  | assigned _ _ _ ihu ihv | index _ _ ihu ihv | call _ _ ihu ihv | moreArguments _ _ ihu ihv
  | moreElements _ _ ihu ihv | moreEntries _ _ ihu ihv =>
    simp only [Phrase.size, size, sizeEntries, sizeAll_cons, sizeAll_append, List.length_append,
      List.length_cons, List.length_nil] at ihu ihv ⊢
    omega
  | chained _ _ _ ihu ihv =>
    simp only [Phrase.size, size_apply, List.length_append, List.length_cons] at ihu ihv ⊢
    omega
  | conditional _ _ _ ihu ihv ihw =>
    simp only [Phrase.size, size, List.length_append, List.length_cons] at ihu ihv ihw ⊢
    omega

theorem Takes.length_eq {ts us rest : List Token} (h : Takes ts us rest) :
    ts.length = us.length + rest.length := by
  induction h with
  | nil => simp
  | cons _ _ ih =>
    rw [List.length_cons, List.length_cons, ih, Nat.add_right_comm]

/-- **A tree that is read has no more nodes below its root than there are tokens**, whatever the
tokens. -/
theorem Node.ofTokens_size {ts : List Token} {tree : Node} (h : Node.ofTokens ts = .ok tree) :
    Node.sizeAll tree.children ≤ ts.length := by
  obtain ⟨us, htakes, hderives⟩ := Node.ofTokens_derives h
  rw [htakes.length_eq]
  exact hderives.size_le

end TemplateExpr

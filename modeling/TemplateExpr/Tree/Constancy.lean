import TemplateExpr.Tree

/-!
# Constant expressions

Which parts of a tree mean the same in every context. A name that is looked up, `this`, and a call
that is no filter make everything above them depend on the context. Filters are taken to depend on
their arguments alone here; whether one keeps state is known only when it is looked up.
-/

namespace TemplateExpr

mutual
/-- The tree with every flag set: a node is constant when all that it evaluates is. The name of a
member that is not computed and the name of a filter are not evaluated. -/
def Node.analyze : Node → Node
  | .program _ body =>
    let body := Node.analyzeAll body
    .program (body.all Node.constant) body
  | .literal _ value => .literal true value
  | .array _ elements =>
    let elements := Node.analyzeAll elements
    .array (elements.all Node.constant) elements
  | .object _ properties =>
    let properties := Node.analyzeEntries properties
    .object (properties.all (·.2.constant)) properties
  | .identifier _ name => .identifier false name
  | .this _ => .this false
  | .member _ target key computed =>
    let target := target.analyze
    let key := key.analyze
    .member (target.constant && (!computed || key.constant)) target key computed
  | .call _ callee arguments filter =>
    let callee := callee.analyze
    let arguments := Node.analyzeAll arguments
    .call (filter && arguments.all Node.constant) callee arguments filter
  | .assignment _ left right =>
    let left := left.analyze
    let right := right.analyze
    .assignment (left.constant && right.constant) left right
  | .unary _ op argument =>
    let argument := argument.analyze
    .unary argument.constant op argument
  | .binary _ op left right =>
    let left := left.analyze
    let right := right.analyze
    .binary (left.constant && right.constant) op left right
  | .logical _ op left right =>
    let left := left.analyze
    let right := right.analyze
    .logical (left.constant && right.constant) op left right
  | .conditional _ test consequent alternate =>
    let test := test.analyze
    let consequent := consequent.analyze
    let alternate := alternate.analyze
    .conditional (test.constant && consequent.constant && alternate.constant)
      test consequent alternate

def Node.analyzeAll : List Node → List Node
  | [] => []
  | node :: nodes => node.analyze :: Node.analyzeAll nodes

def Node.analyzeEntries : List (PropertyKey × Node) → List (PropertyKey × Node)
  | [] => []
  | (key, node) :: entries => (key, node.analyze) :: Node.analyzeEntries entries
end

end TemplateExpr

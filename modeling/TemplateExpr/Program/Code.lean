import TemplateExpr.Filter.Registry
import TemplateExpr.Tree

/-!
# Checked code

What a tree becomes when it is checked: every filter is resolved, every name in it is one that the
guard allows, and the left side of every assignment is a place. Evaluation has nothing left to
refuse but what depends on the data.
-/

namespace TemplateExpr

mutual
/-- Code that evaluates to a value. The three forms of call differ in where the receiver comes from:
the object of a member, what a name belongs to, or nothing. -/
inductive Code where
  | literal (value : Literal)
  | array (elements : List Code)
  | record (entries : List (String × Code))
  | name (name : String)
  | this
  | member (target : Code) (key : Key)
  | callMember (target : Code) (key : Key) (arguments : List Code)
  | callName (name : String) (arguments : List Code)
  | callValue (callee : Code) (arguments : List Code)
  | filter (filter : Filter) (arguments : List Code)
  | assign (root : Root) (path : List Key) (value : Code)
  | unary (op : UnaryOp) (operand : Code)
  | binary (op : BinaryOp) (left right : Code)
  | logical (op : LogicalOp) (left right : Code)
  | conditional (test consequent alternate : Code)

/-- The key of a member: known in advance, or the text of a value. -/
inductive Key where
  | fixed (name : String)
  | computed (code : Code)

/-- Where the path of a place starts: at what a name belongs to, at the context, or at a value that
nothing else holds, so that what is written into it is lost. -/
inductive Root where
  | name (name : String)
  | this
  | temporary (code : Code)
end

/-- A place that can be assigned to: a root, and the keys that lead on from it. -/
structure Place where
  root : Root
  path : List Key

mutual
def Code.isStateful : Code → Bool
  | .literal _ | .name _ | .this => false
  | .array elements => Code.anyStateful elements
  | .record entries => Code.anyEntryStateful entries
  | .member target key => target.isStateful || key.isStateful
  | .callMember target key arguments =>
    target.isStateful || key.isStateful || Code.anyStateful arguments
  | .callName _ arguments => Code.anyStateful arguments
  | .callValue callee arguments => callee.isStateful || Code.anyStateful arguments
  | .filter filter arguments => filter.stateful || Code.anyStateful arguments
  | .assign root path value => root.isStateful || Key.anyStateful path || value.isStateful
  | .unary _ operand => operand.isStateful
  | .binary _ left right => left.isStateful || right.isStateful
  | .logical _ left right => left.isStateful || right.isStateful
  | .conditional test consequent alternate =>
    test.isStateful || consequent.isStateful || alternate.isStateful

def Code.anyStateful : List Code → Bool
  | [] => false
  | code :: codes => code.isStateful || Code.anyStateful codes

def Code.anyEntryStateful : List (String × Code) → Bool
  | [] => false
  | (_, code) :: entries => code.isStateful || Code.anyEntryStateful entries

def Key.isStateful : Key → Bool
  | .fixed _ => false
  | .computed code => code.isStateful

def Key.anyStateful : List Key → Bool
  | [] => false
  | key :: keys => key.isStateful || Key.anyStateful keys

def Root.isStateful : Root → Bool
  | .name _ | .this => false
  | .temporary code => code.isStateful
end

end TemplateExpr

import TemplateExpr.Number.Layout
import TemplateExpr.Token

/-!
# Syntax trees

A tree of an expression. Every node carries a flag, `constant`, which a reader of the language
leaves at `false` and `Node.analyze` fills in; `program` is meant for the root alone, but the type
admits any tree, so that hand-made ones can be refused with a reason.
-/

namespace TemplateExpr

open Number

/-! ## Operators -/

inductive UnaryOp where
  | plus | minus | not
deriving DecidableEq, Repr

/-- Operators between two operands, both of which are always evaluated. -/
inductive BinaryOp where
  | equal | notEqual | strictEqual | strictNotEqual
  | lessThan | greaterThan | lessEqual | greaterEqual
  | add | subtract | multiply | divide | modulo
deriving DecidableEq, Repr

/-- Operators between two operands, the second of which is evaluated only when needed. -/
inductive LogicalOp where
  | and | or
deriving DecidableEq, Repr

def UnaryOp.ofSymbol? : String → Option UnaryOp
  | "+" => some .plus
  | "-" => some .minus
  | "!" => some .not
  | _ => none

def BinaryOp.ofSymbol? : String → Option BinaryOp
  | "==" => some .equal
  | "!=" => some .notEqual
  | "===" => some .strictEqual
  | "!==" => some .strictNotEqual
  | "<" => some .lessThan
  | ">" => some .greaterThan
  | "<=" => some .lessEqual
  | ">=" => some .greaterEqual
  | "+" => some .add
  | "-" => some .subtract
  | "*" => some .multiply
  | "/" => some .divide
  | "%" => some .modulo
  | _ => none

/-! ## Nodes -/

inductive PropertyKey where
  | identifier (name : String)
  | literal (value : Literal)
deriving DecidableEq

/-- The name under which an entry is stored. Numbers are never written with an exponent here. -/
def PropertyKey.name : PropertyKey → String
  | .identifier name => name
  | .literal .null => "null"
  | .literal (.boolean b) => if b then "true" else "false"
  | .literal (.integer n) => String.ofList (integerText n.toInt)
  | .literal (.float x) => String.ofList (plainLayout.render x)
  | .literal (.text s) => s

/-- A syntax tree. The key of a `member` is a name when `computed` is false and any expression
when it is true; a `call` with `filter` set applies the filter that the callee names, and its first
argument is the value piped in. -/
inductive Node where
  | program (constant : Bool) (body : List Node)
  | literal (constant : Bool) (value : Literal)
  | array (constant : Bool) (elements : List Node)
  | object (constant : Bool) (properties : List (PropertyKey × Node))
  | identifier (constant : Bool) (name : String)
  | this (constant : Bool)
  | member (constant : Bool) (target key : Node) (computed : Bool)
  | call (constant : Bool) (callee : Node) (arguments : List Node) (filter : Bool)
  | assignment (constant : Bool) (left right : Node)
  | unary (constant : Bool) (op : UnaryOp) (argument : Node)
  | binary (constant : Bool) (op : BinaryOp) (left right : Node)
  | logical (constant : Bool) (op : LogicalOp) (left right : Node)
  | conditional (constant : Bool) (test consequent alternate : Node)

def Node.constant : Node → Bool
  | .program flag _ | .literal flag _ | .array flag _ | .object flag _ | .identifier flag _
  | .this flag | .member flag .. | .call flag .. | .assignment flag .. | .unary flag ..
  | .binary flag .. | .logical flag .. | .conditional flag .. => flag

end TemplateExpr

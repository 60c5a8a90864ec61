import TemplateExpr.Tree

/-!
# Precedence of infix operators

The operators between two operands form six levels, each binding tighter than the one before it.
Within a level operators associate to the left.
-/

namespace TemplateExpr

/-- The levels of infix operators, loosest first. -/
inductive Level where
  | or | and | equality | relational | additive | multiplicative
deriving DecidableEq, Repr

/-- The next tighter level; behind the tightest come the prefix operators. -/
def Level.tighter? : Level → Option Level
  | .or => some .and
  | .and => some .equality
  | .equality => some .relational
  | .relational => some .additive
  | .additive => some .multiplicative
  | .multiplicative => none

def Level.rank : Level → Nat
  | .or => 5
  | .and => 4
  | .equality => 3
  | .relational => 2
  | .additive => 1
  | .multiplicative => 0

theorem Level.rank_tighter {level next : Level} (h : level.tighter? = some next) :
    next.rank < level.rank := by
  cases level <;> simp_all [tighter?] <;> subst h <;> decide

inductive InfixOp where
  | logical (op : LogicalOp)
  | binary (op : BinaryOp)
deriving DecidableEq, Repr

def InfixOp.apply : InfixOp → Node → Node → Node
  | .logical op, left, right => .logical false op left right
  | .binary op, left, right => .binary false op left right

def Level.symbols : Level → List String
  | .or => ["||"]
  | .and => ["&&"]
  | .equality => ["==", "!=", "===", "!=="]
  | .relational => ["<", ">", "<=", ">="]
  | .additive => ["+", "-"]
  | .multiplicative => ["*", "/", "%"]

def Level.operator? (level : Level) (symbol : String) : Option InfixOp :=
  if symbol ∈ level.symbols then
    match level with
    | .or => some (.logical .or)
    | .and => some (.logical .and)
    | _ => (BinaryOp.ofSymbol? symbol).map .binary
  else none

end TemplateExpr

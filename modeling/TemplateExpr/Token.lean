/-!
# Tokens

The words of an expression, as a reader of the language sees them: a token has the exact text it
was written with, the place of its first character, and a kind. A constant also carries the value
that its text denotes.
-/

namespace TemplateExpr

inductive Literal where
  | null
  | boolean (value : Bool)
  | integer (value : Int64)
  | float (value : Float)
  | text (value : String)
deriving DecidableEq

/-- What a token is. Words such as `true`, `null` and `this` are identifiers here; it is the grammar
that gives them a meaning. -/
inductive TokenKind where
  | constant (value : Literal)
  | identifier
  | symbol
deriving DecidableEq

def TokenKind.name : TokenKind → String
  | .constant _ => "constant"
  | .identifier => "identifier"
  | .symbol => "symbol"

/-- A word of an expression. `position` counts characters from the start of the source. -/
structure Token where
  text : String
  kind : TokenKind
  position : Nat
deriving DecidableEq

end TemplateExpr

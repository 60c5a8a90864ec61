import TemplateExpr.Number.Binary
import TemplateExpr.Value

/-!
# JSON documents

A JSON document, and what it has in common with values. Every document is a value; a value becomes a
document by dropping what JSON cannot say: the absent and functions vanish from records and are
`null` elsewhere, and so are floats that are not finite.
-/

namespace TemplateExpr

/-- A JSON document. Numbers are kept apart as integers of 64 bits and floats. -/
inductive Document where
  | null
  | boolean (value : Bool)
  | integer (value : Int64)
  | float (value : Float)
  | text (value : String)
  | array (items : List Document)
  | object (members : List (String × Document))

/-! ## From documents to values -/

mutual
def Value.ofDocument : Document → Value
  | .null => .null
  | .boolean b => .boolean b
  | .integer n => .integer n
  | .float x => .float x
  | .text s => .text s
  | .array items => .array (Value.ofItems items)
  | .object members => .record (Value.ofMembers members)

def Value.ofItems : List Document → List Value
  | [] => []
  | item :: items => Value.ofDocument item :: Value.ofItems items

def Value.ofMembers : List (String × Document) → List (String × Value)
  | [] => []
  | (key, item) :: members => (key, Value.ofDocument item) :: Value.ofMembers members
end

/-! ## From values to documents -/

/-- Whether a value has no place in an object: the absent and functions. -/
def Value.isUnwritable : Value → Bool
  | .undefined | .function _ => true
  | _ => false

mutual
def Value.toDocument : Value → Document
  | .undefined | .null | .function _ => .null
  | .boolean b => .boolean b
  | .integer n => .integer n
  | .float x => if Number.isFinite x then .float x else .null
  | .text s => .text s
  | .array items => .array (Value.toItems items)
  | .record entries => .object (Value.toMembers entries)

def Value.toItems : List Value → List Document
  | [] => []
  | item :: items => item.toDocument :: Value.toItems items

/-- The members of a record that can be written. -/
def Value.toMembers : List (String × Value) → List (String × Document)
  | [] => []
  | (key, item) :: entries =>
    if item.isUnwritable then Value.toMembers entries
    else (key, item.toDocument) :: Value.toMembers entries
end

end TemplateExpr

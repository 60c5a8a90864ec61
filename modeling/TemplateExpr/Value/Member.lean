import TemplateExpr.Value.Conversion

/-!
# Members

Reading and writing one member of a value. Records have entries by name; arrays have items by
index, where an index is written in decimal digits without a zero in front; arrays and texts have a
`length`. Reading never fails: what is not there is undefined. Writing fails with a reason, and
then changes nothing.
-/

namespace TemplateExpr

open Number

inductive MemberFault where
  /-- An array has no member of this name. -/
  | notAnIndex (key : String)
  /-- An index too far behind the end of an array of the given length. -/
  | tooFar (key : String) (length : Nat)
  /-- Only arrays and records have members that can be written. -/
  | notAContainer (key : String) (kind : Kind)
  /-- There is no such member to write into, and none was to be made. -/
  | missing (key : String)
deriving DecidableEq

def MemberFault.message : MemberFault → String
  | .notAnIndex key => "Cannot set non-index key '" ++ key ++ "' on array"
  | .tooFar key length =>
    "Array index " ++ key ++ " is too far past the end (length " ++ toString length ++ ")"
  | .notAContainer key kind => "Cannot set property '" ++ key ++ "' on " ++ kind.name
  | .missing key => "Cannot set property of missing member '" ++ key ++ "'"

namespace Value

/-- The index that a name spells: digits, without a zero in front of others, below `2 ^ 64`. -/
def index? (key : String) : Option Nat :=
  let digits := key.toList
  if digits ≠ [] ∧ digits.all Char.isDigit ∧ (digits = ['0'] ∨ digits.head? ≠ some '0') then
    let n := digitsValue digits
    if n < twoTo 64 then some n else none
  else none

def ofLength (n : Nat) : Value := .integer (Int64.ofNat n)

/-- Whether a record has an entry of this name, whatever its value. -/
def hasKey (key : String) : Value → Bool
  | .record entries => Entries.contains key entries
  | _ => false

def getMember (key : String) : Value → Value
  | .record entries => (Entries.get? key entries).getD .undefined
  | .array items =>
    if key = "length" then ofLength items.length
    else ((index? key).bind (items[·]?)).getD .undefined
  | .text s =>
    if key = "length" then ofLength s.toList.length
    else
      match (index? key).bind (s.toList[·]?) with
      | some c => .text c.toString
      | none => .undefined
  | _ => .undefined

def insert (container : Value) (key : String) (value : Value) : Value :=
  match container with
  | .record entries => .record (Entries.insert key value entries)
  | other => other

/-- The most items that one write may add to an array. -/
def maxGrowth : Nat := 10000

/-- An array with `value` at `index`, and with undefined items between the end and it. -/
def setItem (index : Nat) (value : Value) (items : List Value) : List Value :=
  (items ++ List.replicate (index + 1 - items.length) Value.undefined).set index value

/-- Writes a member. Arrays grow as needed, within bounds. -/
def setMember (container : Value) (key : String) (value : Value) : Except MemberFault Value :=
  match container with
  | .record entries => .ok (.record (Entries.insert key value entries))
  | .array items =>
    match index? key with
    | none => .error (.notAnIndex key)
    | some index =>
      if items.length + maxGrowth ≤ index then .error (.tooFar key items.length)
      else .ok (.array (setItem index value items))
  | other => .error (.notAContainer key other.kind)

def ownMember? (key : String) : Value → Option Value
  | .record entries => Entries.get? key entries
  | .array items => (index? key).bind (items[·]?)
  | _ => none

/-- A value with a member that can be written into, and that member. A member that is absent or
`null` becomes an empty record first, if `create` allows it. -/
def openMember (container : Value) (key : String) (create : Bool) :
    Except MemberFault (Value × Value) :=
  match (container.ownMember? key).filter (!·.isNullish) with
  | some member => .ok (container, member)
  | none =>
    if create then (container.setMember key emptyRecord).map (·, emptyRecord)
    else .error (.missing key)

end Value

end TemplateExpr

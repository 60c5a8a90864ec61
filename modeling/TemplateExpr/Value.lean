import TemplateExpr.Number.Integer

/-!
# Values

What flows through an expression: data of the kinds that JSON has, a mark for what is absent, and
references to functions of the host.

A record is a list of entries, looked up by the first entry with a name. Its operations never make
a second entry of the same name (`Entries.insert`). What the library computes by itself does not
depend on the order of the entries; but a function of the host to which a filter leaves the
comparison is asked about them in this order, and so can tell.
-/

namespace TemplateExpr

/-! ## Functions of the host -/

/-- How the sandbox treats a function. A constructor builds functions from text; a forwarder calls
another function on its caller's behalf. -/
inductive FunctionKind where
  | plain | constructor | callForwarder
deriving DecidableEq, Repr

/-- A reference to a function of the host. The name is its identity; what it does is the host's
affair. -/
structure Function where
  name : String
  kind : FunctionKind
deriving DecidableEq, Repr

/-! ## Entries of a record -/

/-- Named things, in the order in which the names were first written. -/
abbrev Entries (α : Type) := List (String × α)

namespace Entries

variable {α : Type}

def get? (key : String) (entries : Entries α) : Option α := entries.lookup key

def contains (key : String) (entries : Entries α) : Bool := (entries.get? key).isSome

/-- Stores under a name, in place of what was stored there. -/
def insert (key : String) (value : α) : Entries α → Entries α
  | [] => [(key, value)]
  | (k, v) :: rest => if k = key then (k, value) :: rest else (k, v) :: insert key value rest

@[simp] theorem get?_nil (key : String) : get? key ([] : Entries α) = none := rfl

theorem get?_cons (key k : String) (v : α) (rest : Entries α) :
    get? key ((k, v) :: rest) = if key = k then some v else get? key rest := by
  by_cases h : key = k
  · simp [get?, h]
  · have hne : (key == k) = false := by simp [h]
    simp [get?, List.lookup_cons, h, hne]

/-- **Reading after storing.** The name that was stored under reads the new value, and every other
name reads what it read before. -/
theorem get?_insert (key other : String) (value : α) (entries : Entries α) :
    get? other (insert key value entries) =
      if other = key then some value else get? other entries := by
  induction entries with
  | nil => simp [insert, get?_cons]
  | cons entry rest ih =>
    obtain ⟨k, v⟩ := entry
    by_cases hk : k = key
    · subst hk
      simp only [insert, if_true, get?_cons]
      split <;> rfl
    · simp only [insert, if_neg hk, get?_cons, ih]
      by_cases hok : other = k
      · subst hok
        simp [hk]
      · simp [hok]

theorem insert_insert (key : String) (first second : α) (entries : Entries α) :
    insert key second (insert key first entries) = insert key second entries := by
  induction entries with
  | nil => simp [insert]
  | cons entry rest ih =>
    obtain ⟨k, v⟩ := entry
    by_cases hk : k = key <;> simp [insert, hk, ih]

theorem nodup_insert (key : String) (value : α) (entries : Entries α)
    (h : (entries.map Prod.fst).Nodup) : ((insert key value entries).map Prod.fst).Nodup := by
  induction entries with
  | nil => simp [insert]
  | cons entry rest ih =>
    obtain ⟨k, v⟩ := entry
    simp only [List.map_cons, List.nodup_cons] at h
    by_cases hk : k = key
    · subst hk
      simpa [insert] using h
    · simp only [insert, if_neg hk, List.map_cons, List.nodup_cons]
      refine ⟨?_, ih h.2⟩
      intro hmem
      have hnames : ∀ entries : Entries α, k ∈ (insert key value entries).map Prod.fst →
          k = key ∨ k ∈ entries.map Prod.fst := by
        intro entries
        induction entries with
        | nil => simp [insert]
        | cons e es ihe =>
          obtain ⟨k', v'⟩ := e
          by_cases hk' : k' = key
          · simp [insert, hk']
          · simp only [insert, if_neg hk', List.map_cons, List.mem_cons]
            grind
      rcases hnames rest hmem with h' | h'
      · exact hk h'
      · exact h.1 h'

end Entries

/-! ## Values -/

inductive Value where
  | undefined
  | null
  | boolean (value : Bool)
  | integer (value : Int64)
  | float (value : Float)
  | text (value : String)
  | array (items : List Value)
  | record (entries : List (String × Value))
  | function (value : Function)

instance : Inhabited Value := ⟨.undefined⟩

/-- The kinds of values, as messages name them. Integers and floats are both numbers. -/
inductive Kind where
  | undefined | null | boolean | number | string | array | object | function
deriving DecidableEq, Repr

def Kind.name : Kind → String
  | .undefined => "undefined"
  | .null => "null"
  | .boolean => "boolean"
  | .number => "number"
  | .string => "string"
  | .array => "array"
  | .object => "object"
  | .function => "function"

namespace Value

def kind : Value → Kind
  | .undefined => .undefined
  | .null => .null
  | .boolean _ => .boolean
  | .integer _ | .float _ => .number
  | .text _ => .string
  | .array _ => .array
  | .record _ => .object
  | .function _ => .function

def emptyRecord : Value := .record []

def isUndefined : Value → Bool
  | .undefined => true
  | _ => false

def isNullish : Value → Bool
  | .undefined | .null => true
  | _ => false

def isNumber : Value → Bool
  | .integer _ | .float _ => true
  | _ => false

def isContainer : Value → Bool
  | .array _ | .record _ => true
  | _ => false

end Value

end TemplateExpr

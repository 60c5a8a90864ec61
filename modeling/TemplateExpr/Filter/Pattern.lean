import TemplateExpr.Json.Document
import TemplateExpr.Text.Case
import TemplateExpr.Value.Equality
import TemplateExpr.Value.Member

/-!
# Matching values against a pattern

How the filter `filter` decides whether an item is kept. A pattern that is not a record is looked
for in the item: an array matches when an item of it does, a record when a member of it does, and a
leaf is compared. A pattern that is a record has to match name by name; its entry `$` is looked for
among all members. Exclamation marks in front of a text negate the match, each of them once.

Leaves are compared by `test`, which may be a function of the host. So the search is written for any
monad: with a test that has no effects it is an ordinary function (`Pattern.holds`).
-/

namespace TemplateExpr

open Text

namespace Pattern

/-! ## Tests of leaves -/

def occursIn (part : List Char) : List Char → Bool
  | [] => part.isEmpty
  | c :: rest => part.isPrefixOf (c :: rest) || occursIn part rest

theorem occursIn_iff {part text : List Char} : occursIn part text = true ↔ part <:+: text := by
  induction text with
  | nil => simp [occursIn]
  | cons c rest ih => simp [occursIn, ih, List.infix_cons_iff]

/-- The usual test: the text of the expected value occurs in the text of the actual one, whatever
the case of letters. The absent matches nothing, `null` only itself, and containers nothing. -/
def similar (actual expected : Value) : Bool :=
  match actual, expected with
  | .undefined, _ => false
  | .null, _ | _, .null => actual.strictEquals expected
  | _, _ =>
    if actual.isContainer || expected.isContainer then false
    else
      occursIn (lowercase expected.display.toList) (lowercase actual.display.toList)

/-! ## The search -/

def stripNegations (text : String) : Nat × String :=
  let marks := text.toList.takeWhile (· == '!')
  (marks.length, String.ofList (text.toList.drop marks.length))

noncomputable def size : Value → Nat
  | .record criteria => sizeOf criteria + 1
  | _ => 0

theorem size_le_sizeOf (pattern : Value) : size pattern ≤ sizeOf pattern := by
  cases pattern with
  | record criteria =>
    simp only [size, Value.record.sizeOf_spec]
    omega
  | _ => exact Nat.zero_le _

variable {m : Type → Type} [Monad m] (test : (actual expected : Value) → m Bool)

mutual
/-- Whether `actual` matches `expected`. With `among` the pattern is looked for among the members of
a record, and with `whole` the record itself is compared if no member matches. -/
def accepts (expected actual : Value) (among whole : Bool) : m Bool :=
  match expected with
  | .text s =>
    let (marks, plain) := stripNegations s
    if marks = 0 then search (.text s) actual among whole
    else do
      let found ← search (.text plain) actual among true
      return found != (marks % 2 == 1)
  | expected => search expected actual among whole
termination_by (size expected, sizeOf actual, 3)
decreasing_by all_goals exact Prod.Lex.right _ (Prod.Lex.right _ (by omega))

/-- `accepts` without regard to exclamation marks. -/
def search (expected actual : Value) (among whole : Bool) : m Bool :=
  match actual with
  | .array items => searchItems expected items among
  | .record entries =>
    if among then do
      if ← searchEntries expected entries then return true
      if whole then compareRecord expected entries else return false
    else compareRecord expected entries
  | .function _ => return false
  | leaf => test leaf expected
termination_by (size expected, sizeOf actual, 2)

def searchItems (expected : Value) (items : List Value) (among : Bool) : m Bool :=
  match items with
  | [] => return false
  | item :: rest => do
    if ← search expected item among true then return true
    searchItems expected rest among
termination_by (size expected, sizeOf items, 0)

/-- Whether a member matches. Names that start with a dollar sign are passed over. -/
def searchEntries (expected : Value) (entries : List (String × Value)) : m Bool :=
  match entries with
  | [] => return false
  | (key, value) :: rest => do
    if key.toList.head? ≠ some '$' then
      if ← search expected value true true then return true
    searchEntries expected rest
termination_by (size expected, sizeOf entries, 0)

/-- Whether a record as a whole matches: every criterion does, or, where the pattern is no record,
the test. -/
def compareRecord (expected : Value) (entries : List (String × Value)) : m Bool :=
  match expected with
  | .record criteria => acceptsAll criteria entries
  | expected => test (.record entries) expected
termination_by (size expected, sizeOf entries, 1)
decreasing_by exact Prod.Lex.left _ _ (by simp [size])

/-- Whether every criterion is met by the member of its name, or, for the name `$`, by any member.
Criteria that are absent or functions are passed over. -/
def acceptsAll (criteria : List (String × Value)) (entries : List (String × Value)) : m Bool :=
  match criteria with
  | [] => return true
  | (key, expected) :: rest => do
    if expected.isUnwritable then acceptsAll rest entries
    else
      let met :=
        if key = "$" then accepts expected (.record entries) true false
        else accepts expected ((Value.record entries).getMember key) false true
      if ← met then acceptsAll rest entries else return false
termination_by (sizeOf criteria, 0, 0)
decreasing_by
  all_goals
    have := size_le_sizeOf expected
    refine Prod.Lex.left _ _ ?_
    simp only [List.cons.sizeOf_spec, Prod.mk.sizeOf_spec]
    omega
end

/-! ## Items of an array -/

/-- Whether an item is kept by a pattern. A record pattern with the entry `$` is meant for records;
other items are compared with that entry alone. -/
def keeps (pattern item : Value) : m Bool :=
  match pattern with
  | .record _ =>
    if pattern.hasKey "$" && !item.isContainer then
      accepts test (pattern.getMember "$") item false true
    else accepts test pattern item false true
  | _ => accepts test pattern item true true

/-- Whether an item is kept by a pattern, with a test that has no effects. -/
def holds (test : Value → Value → Bool) (pattern item : Value) : Bool :=
  Id.run (keeps (m := Id) (fun actual expected => pure (test actual expected)) pattern item)

end Pattern

end TemplateExpr

import Mathlib
import TemplateExpr.Filter.Selection

/-!
# The search without effects

With a test that asks nobody, the search for a pattern is an ordinary condition on the item, and can
be read case by case: an array matches if one of its items does, a record if a member does or the
record itself, and a record pattern is the conjunction of its criteria (`alike_record`). A filter by
such a test keeps the items that meet the condition and cannot fail (`Filter.select_items`).
-/

namespace TemplateExpr

namespace Pattern

variable (test : Value → Value → Bool)

/-! ## Conditions -/

/-- Whether a pattern is found in a value, where exclamation marks are ordinary characters. -/
def found (expected actual : Value) (among whole : Bool) : Bool :=
  Id.run (search (m := Id) (fun actual expected => pure (test actual expected)) expected actual
    among whole)

def matched (expected actual : Value) (among whole : Bool) : Bool :=
  Id.run (accepts (m := Id) (fun actual expected => pure (test actual expected)) expected actual
    among whole)

def alike (expected : Value) (entries : Entries Value) : Bool :=
  Id.run (compareRecord (m := Id) (fun actual expected => pure (test actual expected)) expected
    entries)

/-- Whether a record meets a criterion: the member of its name matches, or, for the name `$`, any
member. What is absent or a function is no criterion. -/
def meets (entries : Entries Value) (criterion : String × Value) : Bool :=
  criterion.2.isUnwritable ||
    if criterion.1 = "$" then matched test criterion.2 (.record entries) true false
    else matched test criterion.2 ((Value.record entries).getMember criterion.1) false true

variable {test}

theorem run_or (first second : Id Bool) :
    Id.run (first >>= fun holds => if holds = true then pure true else second) =
      (first.run || second.run) := by
  rw [Id.run_bind]
  cases first.run <;> rfl

theorem run_and (first second : Id Bool) :
    Id.run (first >>= fun holds => if holds = true then second else pure false) =
      (first.run && second.run) := by
  rw [Id.run_bind]
  cases first.run <;> rfl

/-! ## The cases of the search -/

theorem found_array (expected : Value) (items : List Value) (among whole : Bool) :
    found test expected (.array items) among whole =
      items.any fun item => found test expected item among true := by
  unfold found
  rw [search]
  induction items with
  | nil =>
    rw [searchItems]
    rfl
  | cons item rest ih => rw [searchItems, run_or, List.any_cons, ih]

/-- Names that start with a dollar sign are passed over. -/
theorem found_record_among (expected : Value) (entries : Entries Value) (whole : Bool) :
    found test expected (.record entries) true whole =
      ((entries.any fun entry =>
        entry.1.toList.head? ≠ some '$' && found test expected entry.2 true true) ||
          whole && alike test expected entries) := by
  unfold found
  rw [search, if_pos rfl, run_or]
  congr 1
  · induction entries with
    | nil =>
      rw [searchEntries]
      rfl
    | cons entry rest ih =>
      obtain ⟨key, value⟩ := entry
      rw [searchEntries, List.any_cons, ← ih]
      by_cases hkey : key.toList.head? = some '$'
      · simp [hkey]
      · simp only [hkey, ne_eq, not_false_eq_true, if_true, decide_true, Bool.true_and]
        exact run_or _ _
  · cases whole <;> rfl

theorem found_record (expected : Value) (entries : Entries Value) (whole : Bool) :
    found test expected (.record entries) false whole = alike test expected entries := by
  unfold found
  rw [search, if_neg Bool.false_ne_true]
  rfl

theorem found_function (expected : Value) (f : Function) (among whole : Bool) :
    found test expected (.function f) among whole = false := by
  unfold found
  rw [search]
  rfl

theorem found_leaf {actual : Value} (hcontainer : actual.isContainer = false)
    (hfunction : actual.kind ≠ .function) (expected : Value) (among whole : Bool) :
    found test expected actual among whole = test actual expected := by
  unfold found
  cases actual with
  | array | record => cases hcontainer
  | function => exact absurd rfl hfunction
  | _ =>
    rw [search]
    · rfl
    all_goals simp

/-! ## Criteria -/

/-- **A record pattern is a conjunction.** -/
theorem alike_record (criteria entries : Entries Value) :
    alike test (.record criteria) entries = criteria.all (meets test entries) := by
  unfold alike
  rw [compareRecord]
  induction criteria with
  | nil =>
    rw [acceptsAll]
    rfl
  | cons criterion rest ih =>
    obtain ⟨key, expected⟩ := criterion
    rw [acceptsAll, List.all_cons, ← ih, meets]
    by_cases hunwritable : expected.isUnwritable = true
    · simp [hunwritable]
    · simp only [hunwritable, Bool.false_eq_true, if_false, Bool.false_or]
      rw [run_and]
      split <;> rfl

theorem alike_plain {expected : Value} (hexpected : expected.kind ≠ .object)
    (entries : Entries Value) : alike test expected entries = test (.record entries) expected := by
  unfold alike
  cases expected with
  | record => exact absurd rfl hexpected
  | _ =>
    rw [compareRecord]
    · rfl
    · simp

/-! ## Exclamation marks -/

theorem matched_plain {expected : Value} (hexpected : expected.kind ≠ .string) (actual : Value)
    (among whole : Bool) :
    matched test expected actual among whole = found test expected actual among whole := by
  unfold matched
  cases expected with
  | text => exact absurd rfl hexpected
  | _ =>
    rw [accepts]
    · rfl
    · simp

/-- A text is found or not found, as the number of marks in front of it says. -/
theorem matched_text (s : String) (actual : Value) (among : Bool) :
    matched test (.text s) actual among true =
      (found test (.text (stripNegations s).2) actual among true !=
        ((stripNegations s).1 % 2 == 1)) := by
  unfold matched
  rw [accepts]
  by_cases hmarks : (stripNegations s).1 = 0
  · have hplain : (stripNegations s).2 = s := by
      have hzero : (s.toList.takeWhile (· == '!')).length = 0 := hmarks
      simp [stripNegations, hzero]
    simp [hmarks, hplain, found]
  · simp only [hmarks, if_false]
    rfl

/-- One mark more turns the answer around. -/
theorem matched_marked (s : String) (actual : Value) (among : Bool) :
    matched test (.text ("!" ++ s)) actual among true =
      !matched test (.text s) actual among true := by
  have hstrip : stripNegations ("!" ++ s) = ((stripNegations s).1 + 1, (stripNegations s).2) := by
    simp [stripNegations]
  rw [matched_text, matched_text, hstrip]
  rcases Nat.mod_two_eq_zero_or_one (stripNegations s).1 with heven | hodd
  · have hmore : ((stripNegations s).1 + 1) % 2 = 1 := by omega
    simp [heven, hmore]
  · have hmore : ((stripNegations s).1 + 1) % 2 = 0 := by omega
    simp [hodd, hmore]

/-! ## Items that are kept -/

/-- What is no record is looked for in the item, and in all its members. -/
theorem holds_plain {pattern : Value} (hpattern : pattern.kind ≠ .object) (item : Value) :
    holds test pattern item = matched test pattern item true true := by
  unfold holds keeps
  cases pattern with
  | record => exact absurd rfl hpattern
  | _ => rfl

/-- A record pattern is for records a conjunction of its criteria. -/
theorem holds_record (criteria entries : Entries Value) :
    holds test (.record criteria) (.record entries) = criteria.all (meets test entries) := by
  rw [← alike_record, ← found_record _ _ true, ← matched_plain (by simp [Value.kind])]
  simp [holds, keeps, Value.isContainer, matched]

end Pattern

/-! ## Selections that ask nobody -/

namespace Filter

variable {σ : Type} (host : Host σ)

/-- The test that a comparator chooses which is no function. -/
def leafTest : Value → Value → Value → Bool
  | .boolean true => Value.strictEquals
  | _ => Pattern.similar

theorem keptByPattern_eq {comparator : Value} (h : comparator.kind ≠ .function)
    (pattern item : Value) :
    keptByPattern host (Comparator.ofValue comparator) pattern item =
      pure (Pattern.holds (leafTest comparator) pattern item) := by
  cases comparator with
  | function => exact absurd rfl h
  | boolean b => cases b <;> rfl
  | _ => rfl

theorem keepWhere_of_condition {keeps : Nat → Value → HostRun σ Bool} {condition : Value → Bool}
    (h : ∀ place item, keeps place item = pure (condition item)) (items : List Value)
    (place : Nat) : keepWhere keeps place items = pure (items.filter condition) := by
  induction items generalizing place with
  | nil => rfl
  | cons item rest ih =>
    rw [keepWhere, h, pure_bind, ih, pure_bind, List.filter_cons]

theorem checkCallee_of_kind {value : Value} (h : value.kind ≠ .function) :
    (checkCallee value : HostRun σ Unit) = pure () := by
  cases value with
  | function => exact absurd rfl h
  | _ => rfl

/-- **A filter that asks nobody** keeps the items for which the condition holds, and does not
fail. -/
theorem select_items {pattern comparator : Value} (hcomparator : comparator.kind ≠ .function)
    (hpattern : pattern.kind ∉ [Kind.function, .undefined, .array]) (items : List Value) :
    select host (.array items) pattern comparator =
      pure (.array (items.filter (Pattern.holds (leafTest comparator) pattern))) := by
  have hkept := keepWhere_of_condition
    (fun (_ : Nat) item => keptByPattern_eq host hcomparator pattern item) items 0
  have hfunction : pattern.kind ≠ .function := fun h => hpattern (h ▸ List.mem_cons_self)
  cases pattern with
  | function | undefined | array => simp [Value.kind] at hpattern
  | _ =>
    simp only [select, checkCallee_of_kind hcomparator, checkCallee_of_kind hfunction, pure_bind,
      hkept]

end Filter

end TemplateExpr

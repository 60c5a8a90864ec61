import Mathlib
import TemplateExpr.Command
import TemplateExpr.Proofs.Filter.Search
import TemplateExpr.Proofs.Value.Reordering

/-!
# The filters of the library do not see the order of entries

The search for a pattern goes through the members of a record and stops at the first that matches,
and through the criteria of a record pattern and stops at the first that is not met. Neither depends
on the order: whatever the patterns and items are, reordering them leaves the search with the same
answer (`Pattern.matched_reordered`), if the test of leaves gives the same answers. So a filter that
is not left to a function of the host keeps the same items, by their places
(`Filter.order_of_entries`). A function of the host that is the comparator is asked member by member
and criterion by criterion, and can tell the order.
-/

namespace TemplateExpr

namespace Pattern

open Value

/-! ## Tests -/

/-- That a test answers the same for reordered values. -/
def Orderless (test : Value → Value → Bool) : Prop :=
  ∀ ⦃actual actual' expected expected' : Value⦄, actual.Reordered actual' →
    expected.Reordered expected' → expected.NamesDistinct →
      test actual expected = test actual' expected'

theorem orderless_strictEquals : Orderless Value.strictEquals :=
  fun _ _ _ _ hactual hexpected hnames => hactual.strictEquals_eq hexpected hnames

theorem orderless_similar : Orderless similar := by
  intro actual actual' expected expected' hactual hexpected _
  cases hactual with
  | atom =>
    cases hexpected with
    | atom => rfl
    | array | record => cases actual <;> rfl
  | array | record =>
    cases hexpected with
    | atom => cases expected <;> rfl
    | array | record => rfl

/-! ## The search -/

theorem matched_text_eq (test : Value → Value → Bool) (s : String) (actual : Value)
    (among whole : Bool) :
    matched test (.text s) actual among whole =
      if (stripNegations s).1 = 0 then found test (.text s) actual among whole
      else found test (.text (stripNegations s).2) actual among true !=
        ((stripNegations s).1 % 2 == 1) := by
  unfold matched
  rw [accepts]
  by_cases hmarks : (stripNegations s).1 = 0
  · simp only [hmarks, if_true]
    rfl
  · simp only [hmarks, if_false]
    rfl

variable {test : Value → Value → Bool} (htest : Orderless test)

include htest in
/-- If two patterns agree on records as a whole, the search for them gives the same answer. -/
theorem found_reordered {expected expected' : Value} (hexpected : expected.Reordered expected')
    (hnames : expected.NamesDistinct)
    (halike : ∀ entries entries' : Entries Value,
      (Value.record entries).Reordered (.record entries') → (Value.record entries).NamesDistinct →
        alike test expected entries = alike test expected' entries') {actual : Value} :
    ∀ {actual' : Value} (among whole : Bool), actual.Reordered actual' → actual.NamesDistinct →
      found test expected actual among whole = found test expected' actual' among whole := by
  induction actual using Value.byParts with
  | atom actual hatom =>
    intro actual' among whole hactual _
    rw [hactual.eq_of_atom hatom]
    by_cases hfunction : actual.kind = .function
    · cases actual with
      | function f => rw [found_function, found_function]
      | _ => cases hfunction
    · rw [found_leaf hatom hfunction, found_leaf hatom hfunction]
      exact htest (.refl actual) hexpected hnames
  | array items ih =>
    intro actual' among whole hactual hdistinct
    obtain ⟨items', rfl, hitems⟩ := reordered_array.mp hactual
    rw [namesDistinct_array] at hdistinct
    rw [found_array, found_array]
    refine any_eq_of_forall₂ hitems fun item hitem item' hpair => ?_
    exact ih item hitem among true hpair (hdistinct item hitem)
  | record entries ih =>
    intro actual' among whole hactual hdistinct
    obtain ⟨listed, entries', rfl, hentries, hperm⟩ := reordered_record.mp hactual
    have hwhole := halike entries entries' hactual hdistinct
    rw [namesDistinct_record] at hdistinct
    cases among with
    | false => rw [found_record, found_record, hwhole]
    | true =>
      rw [found_record_among, found_record_among, hwhole, ← hperm.any_eq]
      refine congrArg (· || _) (any_eq_of_forall₂ hentries fun entry hentry entry' hpair => ?_)
      rw [hpair.1, ih entry hentry true true hpair.2 (hdistinct.2 entry hentry)]

include htest in
theorem found_reordered_plain {expected expected' : Value}
    (hexpected : expected.Reordered expected')
    (hnames : expected.NamesDistinct) (hkind : expected.kind ≠ .object) {actual actual' : Value}
    (among whole : Bool) (hactual : actual.Reordered actual') (hdistinct : actual.NamesDistinct) :
    found test expected actual among whole = found test expected' actual' among whole := by
  refine found_reordered htest hexpected hnames ?_ among whole hactual hdistinct
  intro entries entries' hentries _
  rw [alike_plain hkind, alike_plain (hexpected.kind_eq ▸ hkind)]
  exact htest hentries hexpected hnames

include htest in
/-- **Matching does not see the order of entries**, neither of the pattern nor of the value. -/
theorem matched_reordered {expected : Value} :
    ∀ {expected' actual actual' : Value} (among whole : Bool), expected.Reordered expected' →
      expected.NamesDistinct → actual.Reordered actual' → actual.NamesDistinct →
        matched test expected actual among whole = matched test expected' actual' among whole := by
  induction expected using Value.byParts with
  | atom expected hatom =>
    intro expected' actual actual' among whole hexpected hnames hactual hdistinct
    have hobject : expected.kind ≠ .object := by cases expected <;> simp_all [isContainer, kind]
    by_cases hkind : expected.kind = .string
    · cases expected with
      | text s =>
        have hplain := found_reordered_plain htest (.refl (.text (stripNegations s).2))
          (namesDistinct_of_atom rfl) (by simp [kind]) among true hactual hdistinct
        have hsame := found_reordered_plain htest (.refl (.text s)) (namesDistinct_of_atom rfl)
          (by simp [kind]) among whole hactual hdistinct
        rw [hexpected.eq_of_atom rfl, matched_text_eq, matched_text_eq, hplain, hsame]
      | _ => cases hkind
    · rw [matched_plain hkind, matched_plain (hexpected.kind_eq ▸ hkind)]
      exact found_reordered_plain htest hexpected hnames hobject among whole hactual hdistinct
  | array items _ =>
    intro expected' actual actual' among whole hexpected hnames hactual hdistinct
    have hkind : (Value.array items).kind ≠ .string := by simp [kind]
    rw [matched_plain hkind, matched_plain (hexpected.kind_eq ▸ hkind)]
    exact found_reordered_plain htest hexpected hnames (by simp [kind]) among whole hactual
      hdistinct
  | record criteria ih =>
    intro expected' actual actual' among whole hexpected hnames hactual hdistinct
    have hkind : (Value.record criteria).kind ≠ .string := by simp [kind]
    rw [matched_plain hkind, matched_plain (hexpected.kind_eq ▸ hkind)]
    refine found_reordered htest hexpected hnames ?_ among whole hactual hdistinct
    intro entries entries' hentries hdistinct
    obtain ⟨listed, criteria', rfl, hcriteria, hperm⟩ := reordered_record.mp hexpected
    rw [namesDistinct_record] at hnames
    rw [alike_record, alike_record, ← hperm.all_eq]
    refine all_eq_of_forall₂ hcriteria fun criterion hcriterion criterion' hpair => ?_
    have hmember := hnames.2 criterion hcriterion
    rw [meets, meets, ← hpair.1, hpair.2.isUnwritable_eq,
      ih criterion hcriterion true false hpair.2 hmember hentries hdistinct,
      ih criterion hcriterion false true hpair.2 hmember (hentries.getMember hdistinct criterion.1)
        (hdistinct.getMember criterion.1)]

include htest in
theorem holds_reordered {pattern pattern' item item' : Value}
    (hpattern : pattern.Reordered pattern') (hnames : pattern.NamesDistinct)
    (hitem : item.Reordered item') (hdistinct : item.NamesDistinct) :
    holds test pattern item = holds test pattern' item' := by
  have hmatched := fun among => matched_reordered htest among true hpattern hnames hitem hdistinct
  by_cases hkind : pattern.kind = .object
  · cases pattern with
    | record criteria =>
      have hany := matched_reordered htest false true (hpattern.getMember hnames "$")
        (hnames.getMember "$") hitem hdistinct
      have hkey := hpattern.hasKey_eq hnames "$"
      obtain ⟨_, criteria', rfl, -, -⟩ := reordered_record.mp hpattern
      unfold holds keeps
      rw [hkey, hitem.isContainer_eq]
      cases (Value.record criteria').hasKey "$" && !item'.isContainer with
      | false => exact hmatched false
      | true => exact hany
    | _ => cases hkind
  · rw [holds_plain hkind, holds_plain (hpattern.kind_eq ▸ hkind)]
    exact hmatched true

end Pattern

namespace Filter

open Value

variable {σ : Type}

/-! ## Places -/

def keptFlags (keeps : Nat → Value → HostRun σ Bool) (place : Nat) :
    List Value → HostRun σ (List Bool)
  | [] => return []
  | item :: rest => do
    let kept ← keeps place item
    let others ← keptFlags keeps (place + 1) rest
    return kept :: others

def flagged (flags : List Bool) (items : List Value) : List Value :=
  (flags.zip items).filterMap fun pair => if pair.1 then some pair.2 else none

theorem keepWhere_eq_flagged (keeps : Nat → Value → HostRun σ Bool) (place : Nat)
    (items : List Value) :
    keepWhere keeps place items = do return flagged (← keptFlags keeps place items) items := by
  induction items generalizing place with
  | nil => rfl
  | cons item rest ih =>
    simp only [keepWhere, keptFlags, ih, bind_assoc, pure_bind]
    refine bind_congr fun kept => bind_congr fun others => ?_
    cases kept <;> simp [flagged]

theorem keptFlags_congr {keeps keeps' : Nat → Value → HostRun σ Bool} {items items' : List Value}
    (hitems : List.Forall₂ Reordered items items')
    (hagree : ∀ place, ∀ item item' : Value, item.Reordered item' →
      keeps place item = keeps' place item') (place : Nat) :
    keptFlags keeps place items = keptFlags keeps' place items' := by
  induction hitems generalizing place with
  | nil => rfl
  | cons hitem _ ih => rw [keptFlags, keptFlags, hagree place _ _ hitem, ih]

theorem flagged_map (condition : Value → Bool) (items : List Value) :
    flagged (items.map condition) items = items.filter condition := by
  induction items with
  | nil => rfl
  | cons item rest ih =>
    rw [flagged] at ih ⊢
    rw [List.map_cons, List.zip_cons_cons, List.filterMap_cons, ih, List.filter_cons]
    cases condition item <;> rfl

/-! ## Selections -/

theorem orderless_leafTest (comparator : Value) : Pattern.Orderless (leafTest comparator) := by
  unfold leafTest
  split
  · exact Pattern.orderless_strictEquals
  · exact Pattern.orderless_similar

theorem leafTest_reordered {comparator comparator' : Value}
    (h : comparator.Reordered comparator') : leafTest comparator = leafTest comparator' := by
  cases h <;> rfl

/-- That a function of the host gives the same answers, as conditions, for reordered values. -/
def Orderless (host : Host σ) (f : Function) : Prop :=
  ∀ ⦃arguments arguments' : List Value⦄, List.Forall₂ Reordered arguments arguments' →
    ask host f arguments = ask host f arguments'

/-- The items that a function of the host keeps are those at the same places. -/
theorem select_function_reordered (host : Host σ) {f : Function} (hf : Orderless host f)
    {items items' : List Value} (hitems : List.Forall₂ Reordered items items')
    {comparator comparator' : Value} (hbuiltin : comparator.kind ≠ .function)
    (hbuiltin' : comparator'.kind ≠ .function) :
    ∃ flags : HostRun σ (List Bool),
      select host (.array items) (.function f) comparator =
          (do return .array (flagged (← flags) items)) ∧
        select host (.array items') (.function f) comparator' =
          (do return .array (flagged (← flags) items')) := by
  have hflags := keptFlags_congr hitems (fun place item item' hitem =>
    hf (.cons hitem (.cons (.refl (Value.ofLength place)) (.cons (.array hitems) .nil)))) 0
  refine ⟨do
    checkCallee (.function f)
    keptFlags (fun place item => ask host f [item, Value.ofLength place, .array items]) 0 items,
    ?_, ?_⟩
  · simp only [select, checkCallee_of_kind hbuiltin, keepWhere_eq_flagged, bind_assoc, pure_bind]
  · simp only [select, checkCallee_of_kind hbuiltin', keepWhere_eq_flagged, bind_assoc, pure_bind,
      hflags]

/-- **A selection keeps the items at the same places** when items, criterion and comparator are
reordered. -/
theorem select_reordered (host : Host σ) {items items' : List Value}
    (hitems : List.Forall₂ Reordered items items')
    (hdistinct : ∀ item ∈ items, item.NamesDistinct) {criterion criterion' : Value}
    (hcriterion : criterion.Reordered criterion') (hnames : criterion.NamesDistinct)
    (hask : ∀ f, criterion = .function f → Orderless host f) {comparator comparator' : Value}
    (hcomparator : comparator.Reordered comparator') (hbuiltin : comparator.kind ≠ .function) :
    ∃ flags : HostRun σ (List Bool),
      select host (.array items) criterion comparator =
          (do return .array (flagged (← flags) items)) ∧
        select host (.array items') criterion' comparator' =
          (do return .array (flagged (← flags) items')) := by
  have hbuiltin' : comparator'.kind ≠ .function := hcomparator.kind_eq ▸ hbuiltin
  by_cases hpattern : criterion.kind ∈ [Kind.function, .undefined, .array]
  · have hall : ∀ items : List Value, flagged (items.map fun _ => true) items = items :=
      fun items => (flagged_map _ items).trans (List.filter_true items)
    have hlength : (items.map fun _ => true) = items'.map fun _ => true :=
      map_eq_of_forall₂ hitems fun _ _ _ _ => rfl
    have hnone : ∀ {criterion comparator : Value} (items : List Value),
        criterion.kind ∈ [Kind.undefined, .array] → comparator.kind ≠ .function →
        select host (.array items) criterion comparator =
          pure (.array (flagged (items.map fun _ => true) items)) := by
      intro criterion comparator items hkind hbuiltin
      rw [hall]
      cases criterion with
      | undefined | array =>
        simp only [select, checkCallee_of_kind hbuiltin, pure_bind]
        rfl
      | _ => simp [kind] at hkind
    rcases List.mem_cons.mp hpattern with hfunction | hkind
    · cases criterion with
      | function f =>
        rw [hcriterion.eq_of_atom rfl]
        exact select_function_reordered host (hask f rfl) hitems hbuiltin hbuiltin'
      | _ => cases hfunction
    · refine ⟨pure (items.map fun _ => true), ?_, ?_⟩
      · rw [hnone items hkind hbuiltin, pure_bind]
      · rw [hnone items' (hcriterion.kind_eq ▸ hkind) hbuiltin', pure_bind, hlength]
  · refine ⟨pure (items.map (Pattern.holds (leafTest comparator) criterion)), ?_, ?_⟩
    · rw [select_items host hbuiltin hpattern, pure_bind, flagged_map]
    · have hflags := map_eq_of_forall₂ hitems fun item hitem item' hpair =>
        Pattern.holds_reordered (orderless_leafTest comparator) hcriterion hnames hpair
          (hdistinct item hitem)
      rw [select_items host hbuiltin' (hcriterion.kind_eq ▸ hpattern), pure_bind, hflags,
        flagged_map, leafTest_reordered hcomparator]

/-- **No answer of the library's own depends on the order of entries.** Reordered values are equal
to the same values, strictly and loosely, and are written as the same JSON in both layouts; and a
filter that is not left to a comparator of the host keeps the items at the same places, whatever the
criterion is. Of a function of the host that is the criterion this takes that it does not look at
the order itself. -/
theorem order_of_entries {left left' right right' : Value} (hleft : left.Reordered left')
    (hright : right.Reordered right') (hdistinct : left.NamesDistinct)
    (hdistinct' : right.NamesDistinct) :
    applyBinary .strictEqual left right = applyBinary .strictEqual left' right' ∧
      applyBinary .equal left right = applyBinary .equal left' right' ∧
      (∀ layout, left.toJson layout = left'.toJson layout) ∧
      ∀ {σ : Type} (host : Host σ) (comparator comparator' : Value),
        comparator.Reordered comparator' → comparator.kind ≠ .function →
        (∀ f, right = .function f → Orderless host f) →
        ∀ items items', left = .array items → left' = .array items' →
          ∃ flags : HostRun σ (List Bool),
            select host left right comparator =
                (do return .array (flagged (← flags) items)) ∧
              select host left' right' comparator' =
                (do return .array (flagged (← flags) items')) := by
  refine ⟨?_, ?_, fun layout => hleft.toJson_eq hdistinct layout, ?_⟩
  · exact congrArg boolean (hleft.strictEquals_eq hright hdistinct')
  · exact congrArg boolean (hleft.looseEquals_eq hright hdistinct')
  · rintro σ host comparator comparator' hcomparator hbuiltin hask items items' rfl rfl
    obtain ⟨_, heq, hitems⟩ := reordered_array.mp hleft
    obtain rfl := array.inj heq
    exact select_reordered host hitems (namesDistinct_array.mp hdistinct) hright hdistinct' hask
      hcomparator hbuiltin

/-- Two records in two orders, with records in two orders inside, and criteria in two orders, of
which one is negated and one a record itself. -/
theorem order_of_entries_nested :
    let place := fun (name : String) (x y : Value) =>
      record [("name", text name), ("at", record [("x", x), ("y", y)])]
    let shuffled := fun (name : String) (x y : Value) =>
      record [("at", record [("y", y), ("x", x)]), ("name", text name)]
    let left := array [place "Ann" (integer 1) null, place "Bob" (integer 1) null]
    let left' := array [shuffled "Ann" (integer 1) null, place "Bob" (integer 1) null]
    let right := record [("at", record [("x", integer 1), ("y", null)]), ("name", text "!bob")]
    let right' := record [("name", text "!bob"), ("at", record [("y", null), ("x", integer 1)])]
    left.Reordered left' ∧ right.Reordered right' ∧ left.NamesDistinct ∧ right.NamesDistinct ∧
      select Host.none left right undefined = pure (array [place "Ann" (integer 1) null]) ∧
      applyBinary .equal left right = applyBinary .equal left' right' ∧
      left.toJson .pretty = left'.toJson .pretty ∧
      ∃ flags : HostRun Unit (List Bool),
        select Host.none left right undefined =
            (do return .array (flagged (← flags)
              [place "Ann" (integer 1) null, place "Bob" (integer 1) null])) ∧
          select Host.none left' right' undefined =
            (do return .array (flagged (← flags)
              [shuffled "Ann" (integer 1) null, place "Bob" (integer 1) null])) := by
  intro place shuffled left left' right right'
  have hat : ∀ x y : Value,
      (record [("x", x), ("y", y)]).Reordered (record [("y", y), ("x", x)]) :=
    fun x y => .of_perm (.swap _ _ [])
  have hplace : ∀ name x y, (place name x y).Reordered (shuffled name x y) := fun name x y =>
    reordered_record.mpr ⟨[("name", text name), ("at", record [("y", y), ("x", x)])], _, rfl,
      .cons ⟨rfl, .refl _⟩ (.cons ⟨rfl, hat x y⟩ .nil), .swap _ _ []⟩
  have hleft : left.Reordered left' :=
    .array (.cons (hplace _ _ _) (.cons (.refl _) .nil))
  have hright : right.Reordered right' :=
    reordered_record.mpr ⟨[("at", record [("y", null), ("x", integer 1)]), ("name", text "!bob")],
      _, rfl, .cons ⟨rfl, hat _ _⟩ (.cons ⟨rfl, .refl _⟩ .nil), .swap _ _ []⟩
  have hatoms : (integer 1).NamesDistinct ∧ null.NamesDistinct ∧
      ∀ s : String, (text s).NamesDistinct :=
    ⟨namesDistinct_of_atom rfl, namesDistinct_of_atom rfl, fun _ => namesDistinct_of_atom rfl⟩
  have hdistinct : left.NamesDistinct := by
    simp [left, place, namesDistinct_record, namesDistinct_array, hatoms]
  have hdistinct' : right.NamesDistinct := by
    simp [right, namesDistinct_record, hatoms]
  have hkept : [place "Ann" (integer 1) null, place "Bob" (integer 1) null].filter
      (Pattern.holds (leafTest undefined) right) = [place "Ann" (integer 1) null] := by cbv
  have hselect : select Host.none left right undefined =
      pure (array [place "Ann" (integer 1) null]) := by
    rw [select_items Host.none (by simp [kind]) (by simp [right, kind]), hkept]
  obtain ⟨-, hloose, hjson, hflags⟩ := order_of_entries hleft hright hdistinct hdistinct'
  refine ⟨hleft, hright, hdistinct, hdistinct', hselect, hloose, hjson .pretty, ?_⟩
  have hcriterion : ∀ f, right = .function f → Orderless Host.none f := by simp [right]
  exact hflags Host.none undefined undefined (.refl _) (by simp [kind]) hcriterion _ _ rfl rfl

end Filter

end TemplateExpr

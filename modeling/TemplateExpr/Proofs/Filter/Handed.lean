import Mathlib
import TemplateExpr.Command
import TemplateExpr.Proofs.Filter.Search
import TemplateExpr.Proofs.Program.Calls
import TemplateExpr.Proofs.Program.Data

/-!
# What a selection hands over and reads

A selection calls functions by itself, and reads members by itself, where no code stands that the
guard looks at. A predicate gets every item as it is, and a comparator gets what is found in the
array and in the criterion; so all of it passes the guard if everything in these does, and not
otherwise. And a record of criteria reads the members of its names and no others, whatever the names
are: blocked ones too (`Filter.select_handed`).
-/

namespace TemplateExpr

namespace Filter

open Value

variable {σ : Type}

/-! ## What is asked, noted -/

structure Question where
  function : Function
  receiver : Value
  arguments : List Value

/-- That everything a function is handed passes the guard. -/
def Question.Checked (question : Question) : Prop :=
  Safe question.receiver ∧ ∀ argument ∈ question.arguments, Safe argument

end Filter

/-- A host that notes every call that it is asked to make. -/
def Host.asked {σ : Type} (host : Host σ) : Host (σ × List Filter.Question) :=
  { host.beside with
    call f receiver arguments := do
      HostRun.note ⟨f, receiver, arguments⟩
      (host.call f receiver arguments).beside }

/-- From every state, and with no notes to begin with, `noted` ends as `run` does, and of every
entry that it notes `P` is known. -/
def HostRun.Notes {σ ν α : Type} (P : ν → Prop) (run : HostRun σ α)
    (noted : HostRun (σ × List ν) α) : Prop :=
  ∀ state : σ,
    let after := noted.start (state, [])
    after.1 = (run.start state).1 ∧ after.2.1 = (run.start state).2 ∧ ∀ entry ∈ after.2.2, P entry

theorem HostRun.start_bind_ok {σ α β : Type} {run : HostRun σ α} {next : α → HostRun σ β}
    {state after : σ} {result : β} (h : (run >>= next).start state = (.ok result, after)) :
    ∃ value between, run.start state = (.ok value, between) ∧
      (next value).start between = (.ok result, after) := by
  rw [HostRun.start_bind] at h
  rcases hrun : run.start state with ⟨_ | value, between⟩ <;> rw [hrun] at h
  · cases h
  · exact ⟨value, between, rfl, h⟩

theorem Agree.hostNotes {σ ν α : Type} {P : ν → Prop} {run : HostRun σ α}
    {noted : HostRun (σ × List ν) α} (h : Agree (Noted P) Anything run noted) :
    HostRun.Notes P run noted := by
  intro state
  obtain ⟨hresult, ⟨hstate, hnotes⟩, -⟩ := h state (state, []) ⟨rfl, fun _ hmem => nomatch hmem⟩
  exact ⟨hresult.symm, hstate, hnotes⟩

namespace Filter

open Value

variable {σ : Type} (host : Host σ) {items : List Value} {criterion comparator : Value}

/-- **A selection asks about the array and the criterion only**, and hands over no receiver. -/
theorem select_notes {P : Question → Prop}
    (h : ∀ f arguments, f.kind = .plain → Asks items criterion comparator f arguments →
      P ⟨f, .undefined, arguments⟩) :
    HostRun.Notes P (select host (.array items) criterion comparator)
      (select host.asked (.array items) criterion comparator) := by
  refine (select_agree_asked fun f arguments hf hasks => ?_).hostNotes
  exact (Agree.noting _ (h f arguments hf hasks) (.beside _)).bind fun _ _ => .pure trivial

theorem safe_of_foundIn {whole value : Value} (h : whole.SafeThroughout)
    (hfound : FoundIn whole value) : Safe value := by
  rcases hfound with hpart | hatomic
  · exact h value hpart
  · exact safeThroughout_of_atomic hatomic value .here

/-- Where all is safe in the array and the criterion, all that is handed over is. -/
theorem Asks.safe {f : Function} {arguments : List Value}
    (h : Asks items criterion comparator f arguments) (hitems : (Value.array items).SafeThroughout)
    (hcriterion : criterion.SafeThroughout) : ∀ argument ∈ arguments, Safe argument := by
  cases h with
  | @predicate place item hpredicate hitem =>
    have hsafe : Safe item := hitems item (.item (List.mem_of_getElem? hitem) .here)
    have hplace : Safe (ofLength place) := rfl
    have harray : Safe (.array items) := rfl
    simp [hsafe, hplace, harray]
  | comparator hcomparator hactual hexpected =>
    simp [safe_of_foundIn hitems hactual, safe_of_foundIn hcriterion hexpected]

/-! ## Predicates -/

/-- What a predicate is asked about items that stand from a place on. -/
def predicateQuestions (f : Function) (whole : Value) (place : Nat) (items : List Value) :
    List Question :=
  (items.zipIdx place).map fun (item, place) => ⟨f, .undefined, [item, ofLength place, whole]⟩

theorem start_ask_asked (f : Function) (arguments : List Value) (state : σ)
    (notes : List Question) :
    (ask host.asked f arguments).start (state, notes) =
      (((ask host f arguments).start state).1,
        (((ask host f arguments).start state).2, notes ++ [⟨f, .undefined, arguments⟩])) := by
  have hcall : (host.asked.call f .undefined arguments).start (state, notes) =
      (((host.call f .undefined arguments).start state).1,
        (((host.call f .undefined arguments).start state).2,
          notes ++ [⟨f, .undefined, arguments⟩])) := rfl
  rw [ask, ask, HostRun.start_bind, HostRun.start_bind, hcall]
  rcases (host.call f .undefined arguments).start state with ⟨_ | _, after⟩ <;> rfl

/-- A selection by a predicate that is not stopped asks about every item in its place. -/
theorem keepWhere_asks (f : Function) (whole : Value) (items : List Value) :
    ∀ (place : Nat) {state : σ} {before : List Question} {kept : List Value}
      {after : σ × List Question},
      (keepWhere (fun place item => ask host.asked f [item, ofLength place, whole]) place
        items).start (state, before) = (.ok kept, after) →
      after.2 = before ++ predicateQuestions f whole place items := by
  induction items with
  | nil =>
    rintro place state before kept after ⟨⟩
    simp [predicateQuestions]
  | cons item rest ih =>
    intro place state before kept after h
    rw [keepWhere] at h
    obtain ⟨answer, next, hasked, hothers⟩ := HostRun.start_bind_ok h
    obtain ⟨others, last, hrest, hkept⟩ := HostRun.start_bind_ok hothers
    rw [start_ask_asked] at hasked
    obtain ⟨-, rfl⟩ := Prod.mk.inj hasked
    cases hkept
    rw [ih _ hrest, List.append_assoc]
    rfl

theorem predicateQuestions_checked (f : Function) (whole : List Value) (items : List Value)
    (place : Nat) :
    (∀ question ∈ predicateQuestions f (.array whole) place items, question.Checked) ↔
      ∀ item ∈ items, Safe item := by
  have hchecked : ∀ item place,
      (⟨f, .undefined, [item, ofLength place, .array whole]⟩ : Question).Checked ↔ Safe item := by
    intro item place
    have hnone : Safe .undefined := rfl
    have hplace : Safe (ofLength place) := rfl
    have hwhole : Safe (.array whole) := rfl
    simp [Question.Checked, hnone, hplace, hwhole]
  rw [predicateQuestions, List.forall_mem_map]
  simp only [hchecked]
  rw [← List.forall_mem_map (f := Prod.fst) (P := Safe), List.zipIdx_map_fst]

theorem checkCallee_start {value : Value} {state after : σ}
    (h : (checkCallee value : HostRun σ Unit).start state = (.ok (), after)) : after = state := by
  unfold checkCallee at h
  split at h
  · cases h
    rfl
  · cases h

theorem select_asks {f : Function} {state : σ} {kept : Value} {after : σ × List Question}
    (h : (select host.asked (.array items) (.function f) comparator).start (state, []) =
      (.ok kept, after)) : after.2 = predicateQuestions f (.array items) 0 items := by
  rw [select] at h
  obtain ⟨_, first, hcriterion, hchecked⟩ := HostRun.start_bind_ok h
  obtain ⟨_, second, hcomparator, hkept⟩ := HostRun.start_bind_ok hchecked
  obtain ⟨_, last, hasked, hresult⟩ := HostRun.start_bind_ok hkept
  obtain rfl := checkCallee_start hcriterion
  obtain rfl := checkCallee_start hcomparator
  cases hresult
  exact keepWhere_asks host f (.array items) items 0 hasked

/-! ## Criteria -/

/-- What a record of criteria keeps of an array depends, for each record in it, on the members of
its names alone. -/
theorem holds_of_mentioned {test : Value → Value → Bool} {criteria entries others : Entries Value}
    (h : ∀ name expected, (name, expected) ∈ criteria → expected.isUnwritable = true ∨
      name ≠ "$" ∧ Entries.get? name entries = Entries.get? name others) :
    Pattern.holds test (.record criteria) (.record entries) =
      Pattern.holds test (.record criteria) (.record others) := by
  rw [Pattern.holds_record, Pattern.holds_record]
  rw [Bool.eq_iff_iff, List.all_eq_true, List.all_eq_true]
  refine forall₂_congr fun criterion hcriterion => ?_
  rw [Pattern.meets, Pattern.meets]
  rcases h criterion.1 criterion.2 hcriterion with hunwritable | ⟨hname, hget⟩
  · rw [hunwritable, Bool.true_or, Bool.true_or]
  · rw [if_neg hname, if_neg hname, getMember, getMember, hget]

theorem leafTest_boolean (comparator : Value) (b : Bool) :
    leafTest comparator (.boolean b) (.boolean true) = b := by
  have hstrict : Value.strictEquals (.boolean b) (.boolean true) = b := by cases b <;> rfl
  have hsimilar : Pattern.similar (.boolean b) (.boolean true) = b := by cases b <;> cbv
  unfold leafTest
  split
  · exact hstrict
  · exact hsimilar

/-- The member of every name but `$` is read where there is a criterion of the name. -/
theorem select_reads {comparator : Value} (hcomparator : comparator.kind ≠ .function)
    {name : String} (hname : name ≠ "$") :
    select host (.array [.record [(name, .boolean true)], .record [(name, .boolean false)]])
        (.record [(name, .boolean true)]) comparator =
      pure (.array [.record [(name, .boolean true)]]) := by
  have hholds : ∀ b, Pattern.holds (leafTest comparator) (.record [(name, .boolean true)])
      (.record [(name, .boolean b)]) = b := by
    intro b
    have hmember : (Value.record [(name, .boolean b)]).getMember name = .boolean b := by
      rw [getMember, Entries.get?_cons, if_pos rfl, Option.getD_some]
    rw [Pattern.holds_record, List.all_cons, List.all_nil, Bool.and_true, Pattern.meets,
      if_neg hname, hmember, Pattern.matched_plain (by simp [kind]),
      Pattern.found_leaf rfl (by simp [kind]), leafTest_boolean]
    rfl
  rw [select_items host hcomparator (by simp [kind])]
  simp [hholds]

/-! ## The law -/

/-- **What a selection hands over and reads.** Functions are asked without a receiver, about an
item, its place and the array, or about something in the array and something in the criterion. If
all in these passes the guard, all that is handed over does. A predicate is asked about every item,
unless the selection is stopped, so that what it is handed passes exactly if every item does. A
record of criteria depends on the members of its names alone; and it does depend on the member of
every name, blocked or not. -/
theorem select_handed (host : Host σ) (items : List Value) (criterion comparator : Value) :
    HostRun.Notes (fun question : Question => question.receiver = .undefined ∧
        Asks items criterion comparator question.function question.arguments)
      (select host (.array items) criterion comparator)
      (select host.asked (.array items) criterion comparator) ∧
    ((Value.array items).SafeThroughout → criterion.SafeThroughout →
      HostRun.Notes Question.Checked (select host (.array items) criterion comparator)
        (select host.asked (.array items) criterion comparator)) ∧
    (∀ f state kept after, criterion = .function f →
      (select host.asked (.array items) criterion comparator).start (state, []) =
        (.ok kept, after) →
      after.2 = predicateQuestions f (.array items) 0 items ∧
        ((∀ question ∈ after.2, question.Checked) ↔ ∀ item ∈ items, Safe item)) ∧
    (comparator.kind ≠ .function →
      (∀ criteria : Entries Value, ∃ condition : Value → Bool,
        (∀ items, select host (.array items) (.record criteria) comparator =
          pure (.array (items.filter condition))) ∧
        ∀ entries others : Entries Value,
          (∀ name expected, (name, expected) ∈ criteria → expected.isUnwritable = true ∨
            name ≠ "$" ∧ Entries.get? name entries = Entries.get? name others) →
          condition (.record entries) = condition (.record others)) ∧
      ∀ name, name ≠ "$" →
        select host (.array [.record [(name, .boolean true)], .record [(name, .boolean false)]])
            (.record [(name, .boolean true)]) comparator =
          pure (.array [.record [(name, .boolean true)]])) := by
  refine ⟨select_notes host fun f arguments _ hasks => ⟨rfl, hasks⟩, fun hitems hcriterion =>
    select_notes host fun f arguments _ hasks => ⟨rfl, hasks.safe hitems hcriterion⟩, ?_,
    fun hbuiltin => ⟨fun criteria => ?_, fun name hname => select_reads host hbuiltin hname⟩⟩
  · rintro f state kept after rfl h
    have hasks := select_asks host h
    exact ⟨hasks, hasks ▸ predicateQuestions_checked f items items 0⟩
  · exact ⟨Pattern.holds (leafTest comparator) (.record criteria),
      fun items => select_items host hbuiltin (by simp [kind]) items,
      fun entries others h => holds_of_mentioned h⟩

def globalLookalike : Value :=
  .record [("window", .null), ("document", .null), ("location", .null)]

/-- A predicate that is asked about a text and about what is taken for the global object. -/
theorem select_handed_lookalike :
    let answering := Host.answering fun _ => Value.boolean true
    let items := [text "a", globalLookalike]
    ∃ kept after, (select answering.asked (.array items) (.function ⟨"yes", .plain⟩)
        .undefined).start ((), []) = (.ok kept, after) ∧
      ¬∀ question ∈ after.2, question.Checked := by
  intro answering items
  obtain ⟨kept, after, h⟩ : ∃ kept after, (select answering.asked (.array items)
      (.function ⟨"yes", .plain⟩) .undefined).start ((), []) = (.ok kept, after) := ⟨_, _, rfl⟩
  obtain ⟨-, -, hpredicate, -⟩ :=
    select_handed answering items (.function ⟨"yes", .plain⟩) .undefined
  refine ⟨kept, after, h, fun hchecked => ?_⟩
  have hsafe : Safe globalLookalike :=
    (hpredicate _ _ kept after rfl h).2.mp hchecked _ (by simp [items])
  have hrefused : Guard.checkObject globalLookalike = .error .globalObject := rfl
  cases hrefused.symm.trans hsafe

/-- What is taken for the global object is handed to a predicate, and what is stored under a blocked
name is read by a criterion of the name. -/
theorem select_unguarded :
    ¬HostRun.Notes Question.Checked
        (select (Host.answering fun _ => .boolean true) (.array [globalLookalike])
          (.function ⟨"yes", .plain⟩) .undefined)
        (select (Host.answering fun _ => .boolean true).asked (.array [globalLookalike])
          (.function ⟨"yes", .plain⟩) .undefined) ∧
      "constructor" ∈ Guard.blockedMembers ∧
      select Host.none
          (.array [.record [("constructor", .text "a")], .record [("constructor", .text "b")]])
          (.record [("constructor", .text "b")]) .undefined =
        pure (.array [.record [("constructor", .text "b")]]) := by
  refine ⟨fun hnotes => ?_, by decide, ?_⟩
  · obtain ⟨-, -, hchecked⟩ := hnotes ()
    obtain ⟨-, hargument⟩ := hchecked
      ⟨⟨"yes", .plain⟩, .undefined, [globalLookalike, ofLength 0, .array [globalLookalike]]⟩
      List.mem_cons_self
    have hrefused : Guard.checkObject globalLookalike = .error .globalObject := rfl
    cases hrefused.symm.trans (hargument globalLookalike List.mem_cons_self)
  · have hkept : [Value.record [("constructor", .text "a")],
        .record [("constructor", .text "b")]].filter
          (Pattern.holds (leafTest .undefined) (.record [("constructor", .text "b")])) =
        [.record [("constructor", .text "b")]] := by cbv
    rw [select_items Host.none (by simp [kind]) (by simp [kind]), hkept]

end Filter

end TemplateExpr

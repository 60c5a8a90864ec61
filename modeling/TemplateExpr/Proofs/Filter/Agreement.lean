import TemplateExpr.Filter.Registry
import TemplateExpr.Proofs.Program.Agreement
import TemplateExpr.Proofs.Value.Parts

/-!
# Filters under different hosts

A filter that is built in calls functions of the host in one place only: `filter` asks its criterion
or its comparator, and it has looked at the kind of both before. So hosts that agree on plain
functions agree on all filters (`Filter.apply_agree`). And what is asked is about the array and the
criterion only (`Filter.Asks`), so for one selection it is enough that they agree on such questions
(`Filter.select_agree_asked`).

The search for a pattern does whatever its test does, in the order in which the search goes. Tests
that agree leaf by leaf therefore make searches that agree; the induction is the one by which the
search ends, and it carries along what the search can meet (`Pattern.Within`).
-/

namespace TemplateExpr

variable {τ₁ τ₂ : Type} {S : τ₁ → τ₂ → Prop}

namespace Pattern

variable {test₁ : Value → Value → HostRun τ₁ Bool} {test₂ : Value → Value → HostRun τ₂ Bool}

/-- That a search that starts from a value in `A` and a pattern in `E` meets no others: it goes on
to items, entries and members, and to criteria and texts without their marks. -/
structure Within (A E : Value → Prop) : Prop where
  item : ∀ items, A (.array items) → ∀ item ∈ items, A item
  entry : ∀ entries : Entries Value, A (.record entries) → ∀ entry ∈ entries, A entry.2
  member : ∀ entries : Entries Value, A (.record entries) → ∀ key,
    A ((Value.record entries).getMember key)
  criterion : ∀ criteria : Entries Value, E (.record criteria) → ∀ criterion ∈ criteria,
    E criterion.2
  wanted : ∀ criteria : Entries Value, E (.record criteria) → ∀ key,
    E ((Value.record criteria).getMember key)
  unmarked : ∀ s, E (.text s) → E (.text (stripNegations s).2)

/-- **Tests that agree make searches that agree.** It is enough that they do so on what the search
can meet. -/
theorem accepts_agree_within {A E : Value → Prop} (hwithin : Within A E)
    (htest : ∀ actual expected, A actual → E expected →
      Agree S Anything (test₁ actual expected) (test₂ actual expected))
    (expected actual : Value) (among whole : Bool) (hexpected : E expected) (hactual : A actual) :
    Agree S Anything (accepts test₁ expected actual among whole)
      (accepts test₂ expected actual among whole) := by
  refine (accepts.mutual_induct test₁
    (fun expected actual among whole => E expected → A actual → Agree S Anything
      (accepts test₁ expected actual among whole) (accepts test₂ expected actual among whole))
    (fun expected actual among whole => E expected → A actual → Agree S Anything
      (search test₁ expected actual among whole) (search test₂ expected actual among whole))
    (fun expected entries => E expected → A (.record entries) → Agree S Anything
      (compareRecord test₁ expected entries) (compareRecord test₂ expected entries))
    (fun criteria entries => (∀ criterion ∈ criteria, E criterion.2) → A (.record entries) →
      Agree S Anything (acceptsAll test₁ criteria entries) (acceptsAll test₂ criteria entries))
    (fun expected entries => E expected → (∀ entry ∈ entries, A entry.2) → Agree S Anything
      (searchEntries test₁ expected entries) (searchEntries test₂ expected entries))
    (fun expected items among => E expected → (∀ item ∈ items, A item) → Agree S Anything
      (searchItems test₁ expected items among) (searchItems test₂ expected items among))
    ?unmarked ?marked ?noText ?array ?amongMembers ?asWhole ?function ?leaf ?criteria ?compared
    ?noCriterion ?passedOver ?criterion ?noEntry ?entry ?hiddenEntry ?noItem ?item).1
    expected actual among whole hexpected hactual
  case unmarked =>
    intro actual among whole s plain hstrip ih hexpected hactual
    rw [accepts, accepts, hstrip]
    exact ih hexpected hactual
  case marked =>
    intro actual among whole s marks plain hstrip hmarks ih hexpected hactual
    have hplain := hwithin.unmarked s hexpected
    rw [hstrip] at hplain
    rw [accepts, accepts, hstrip]
    simp only [if_neg hmarks]
    exact (ih hplain hactual).bind fun _ _ => .pure trivial
  case noText =>
    intro actual among whole expected htext ih hexpected hactual
    rw [accepts, accepts]
    · exact ih hexpected hactual
    · exact htext
    · exact htext
  case array =>
    intro expected among whole items ih hexpected hactual
    rw [search, search]
    exact ih hexpected (hwithin.item items hactual)
  case amongMembers =>
    intro expected whole entries ihe ihw hexpected hactual
    rw [search, search, if_pos rfl, if_pos rfl]
    exact (ihe hexpected (hwithin.entry entries hactual)).bind fun found _ =>
      .ite (.pure trivial) (.ite (ihw hexpected hactual) (.pure trivial))
  case asWhole =>
    intro expected among whole entries hamong ih hexpected hactual
    rw [search, search, if_neg hamong, if_neg hamong]
    exact ih hexpected hactual
  case function =>
    intro expected among whole f _ _
    rw [search, search]
    exact .pure trivial
  case leaf =>
    intro expected among whole leaf harray hrecord hfunction hexpected hactual
    rw [search, search]
    · exact htest leaf expected hactual hexpected
    all_goals assumption
  case criteria =>
    intro entries criteria ih hexpected hactual
    rw [compareRecord, compareRecord]
    exact ih (hwithin.criterion criteria hexpected) hactual
  case compared =>
    intro expected entries hrecord hexpected hactual
    rw [compareRecord, compareRecord]
    · exact htest (.record entries) expected hactual hexpected
    · exact hrecord
    · exact hrecord
  case noCriterion =>
    intro entries _ _
    rw [acceptsAll, acceptsAll]
    exact .pure trivial
  case passedOver =>
    intro entries key expected rest hunwritable ih hcriteria hactual
    rw [acceptsAll, acceptsAll, if_pos hunwritable, if_pos hunwritable]
    exact ih (List.forall_mem_cons.mp hcriteria).2 hactual
  case criterion =>
    intro entries key expected rest hwritable ihany ihown ihrest hcriteria hactual
    obtain ⟨hexpected, hothers⟩ := List.forall_mem_cons.mp hcriteria
    rw [acceptsAll, acceptsAll, if_neg hwritable, if_neg hwritable]
    exact ((ihany hexpected hactual).ite
      (ihown hexpected (hwithin.member entries hactual key))).bind fun met _ =>
        .ite (ihrest hothers hactual) (.pure trivial)
  case noEntry =>
    intro expected _ _
    rw [searchEntries, searchEntries]
    exact .pure trivial
  case entry =>
    intro expected key value rest hshown ihrest ihvalue hexpected hentries
    obtain ⟨hvalue, hothers⟩ := List.forall_mem_cons.mp hentries
    rw [searchEntries, searchEntries, if_pos hshown, if_pos hshown]
    exact (ihvalue hexpected hvalue).bind fun found _ =>
      .ite (.pure trivial) (ihrest hexpected hothers)
  case hiddenEntry =>
    intro expected key value rest hhidden ih hexpected hentries
    rw [searchEntries, searchEntries, if_neg hhidden, if_neg hhidden]
    exact ih hexpected (List.forall_mem_cons.mp hentries).2
  case noItem =>
    intro expected among _ _
    rw [searchItems, searchItems]
    exact .pure trivial
  case item =>
    intro expected among item rest ihitem ihrest hexpected hitems
    obtain ⟨hitem, hothers⟩ := List.forall_mem_cons.mp hitems
    rw [searchItems, searchItems]
    exact (ihitem hexpected hitem).bind fun found _ =>
      .ite (.pure trivial) (ihrest hexpected hothers)

theorem keeps_agree_within {A E : Value → Prop} (hwithin : Within A E)
    (htest : ∀ actual expected, A actual → E expected →
      Agree S Anything (test₁ actual expected) (test₂ actual expected))
    {pattern item : Value} (hpattern : E pattern) (hitem : A item) :
    Agree S Anything (keeps test₁ pattern item) (keeps test₂ pattern item) := by
  have haccepts := accepts_agree_within hwithin htest
  unfold keeps
  split
  · exact .ite (haccepts _ _ _ _ (hwithin.wanted _ hpattern _) hitem)
      (haccepts _ _ _ _ hpattern hitem)
  · exact haccepts _ _ _ _ hpattern hitem

end Pattern

/-- Hosts that agree on plain functions and on the filters of their own. Functions of the other
kinds may do anything. -/
structure Host.Agree (S : τ₁ → τ₂ → Prop) (host₁ : Host τ₁) (host₂ : Host τ₂) : Prop where
  call : ∀ f : Function, f.kind = .plain → ∀ receiver arguments,
    TemplateExpr.Agree S Anything (host₁.call f receiver arguments)
      (host₂.call f receiver arguments)
  filter : ∀ name arguments,
    TemplateExpr.Agree S Anything (host₁.filter name arguments) (host₂.filter name arguments)

namespace Filter

variable {host₁ : Host τ₁} {host₂ : Host τ₂}

theorem plain_of_checkCallee {f : Function} (h : Guard.checkCallee (.function f) = .ok ()) :
    f.kind = .plain := by
  unfold Guard.checkCallee at h
  cases hkind : f.kind with
  | plain => rfl
  | constructor | callForwarder => simp [hkind] at h

theorem checkCallee_agree (value : Value) :
    Agree S (fun _ => Guard.checkCallee value = .ok ()) (checkCallee value)
      (checkCallee value) := by
  unfold checkCallee
  split
  · next hcheck => exact .pure hcheck
  · exact .throw _

theorem ask_agree (h : host₁.Agree S host₂) {f : Function} (hf : f.kind = .plain)
    (arguments : List Value) : Agree S Anything (ask host₁ f arguments) (ask host₂ f arguments) :=
  (h.call f hf .undefined arguments).bind fun _ _ => .pure trivial

theorem keepWhere_agree {keeps₁ : Nat → Value → HostRun τ₁ Bool}
    {keeps₂ : Nat → Value → HostRun τ₂ Bool} (items : List Value) (first : Nat)
    (hkeeps : ∀ place item, items[place]? = some item →
      Agree S Anything (keeps₁ (first + place) item) (keeps₂ (first + place) item)) :
    Agree S Anything (keepWhere keeps₁ first items) (keepWhere keeps₂ first items) := by
  induction items generalizing first with
  | nil => exact .pure trivial
  | cons item rest ih =>
    refine (hkeeps 0 item rfl).bind fun kept _ =>
      (ih (first + 1) fun place item hplace => ?_).bind fun others _ => .pure trivial
    rw [Nat.add_assoc, Nat.add_comm 1]
    exact hkeeps (place + 1) item hplace

/-! ## What a selection asks -/

/-- That a selection asks a function something: the criterion about an item, its place and the
array, or the comparator about something in the array and something in the criterion. -/
inductive Asks (items : List Value) (criterion comparator : Value) : Function → List Value → Prop
  | predicate {f : Function} {place : Nat} {item : Value} (h : criterion = .function f)
    (hitem : items[place]? = some item) :
    Asks items criterion comparator f [item, Value.ofLength place, .array items]
  | comparator {f : Function} {actual expected : Value} (h : comparator = .function f)
    (hactual : Value.FoundIn (.array items) actual) (hexpected : Value.FoundIn criterion expected) :
    Asks items criterion comparator f [actual, expected]

theorem within_foundIn (array criterion : Value) :
    Pattern.Within (Value.FoundIn array) (Value.FoundIn criterion) where
  item _ := Value.FoundIn.item
  entry _ := Value.FoundIn.entry
  member _ := Value.FoundIn.member
  criterion _ := Value.FoundIn.entry
  wanted _ := Value.FoundIn.member
  unmarked _ _ := .inr ⟨rfl, by simp [Value.kind]⟩

/-- **What a selection asks decides it.** Hosts that agree on all that is asked of plain functions
agree on the selection. -/
theorem select_agree_asked {items : List Value} {criterion comparator : Value}
    (hask : ∀ f arguments, f.kind = .plain → Asks items criterion comparator f arguments →
      Agree S Anything (ask host₁ f arguments) (ask host₂ f arguments)) :
    Agree S Anything (select host₁ (.array items) criterion comparator)
      (select host₂ (.array items) criterion comparator) := by
  simp only [select]
  refine (checkCallee_agree criterion).bind fun _ hcriterion => ?_
  refine (checkCallee_agree comparator).bind fun _ hcomparator => ?_
  split
  · have hf := plain_of_checkCallee hcriterion
    refine (keepWhere_agree items 0 fun place item hitem => ?_).bind fun _ _ => .pure trivial
    rw [Nat.zero_add]
    exact hask _ _ hf (.predicate rfl hitem)
  · exact .pure trivial
  · exact .pure trivial
  · next pattern _ _ _ =>
    refine (keepWhere_agree items 0 fun place item hitem => ?_).bind fun _ _ => .pure trivial
    unfold keptByPattern
    split
    · exact .pure trivial
    · exact .pure trivial
    · next f hf =>
      -- A function as the comparator is the argument itself, which was checked.
      have hvalue : comparator = .function f := by
        unfold Comparator.ofValue at hf
        split at hf <;> cases hf
        rfl
      subst hvalue
      have hmem : Value.FoundIn (.array items) item :=
        .inl (.item (List.mem_of_getElem? hitem) .here)
      exact Pattern.keeps_agree_within (within_foundIn (.array items) criterion)
        (fun actual expected hactual hexpected => hask f _ (plain_of_checkCallee hcomparator)
          (.comparator rfl hactual hexpected)) (.inl .here) hmem

theorem select_agree (h : host₁.Agree S host₂) (value criterion comparator : Value) :
    Agree S Anything (select host₁ value criterion comparator)
      (select host₂ value criterion comparator) := by
  cases value with
  | array items => exact select_agree_asked fun f arguments hf _ => ask_agree h hf arguments
  | _ => exact .pure trivial

/-- **Filters call plain functions only.** Hosts that agree on these and on the filters of their own
agree on every filter. -/
theorem apply_agree (h : host₁.Agree S host₂) (filter : Filter) (arguments : List Value) :
    Agree S Anything (filter.apply host₁ arguments) (filter.apply host₂ arguments) := by
  unfold apply
  split
  · exact select_agree h _ _ _
  · exact .pure trivial
  · exact .pure trivial
  · exact .pure trivial
  · exact .pure trivial
  · exact h.filter _ _

end Filter

end TemplateExpr

import TemplateExpr.Proofs.Tree.Derivation

/-!
# The innermost `=`

The rule that an `=` belongs to the innermost assignment chooses among derivations and loses no
sentence: what the ambiguous grammar derives is derived under the rule too (`Derives.regroup`),
with another tree where the `=` was attributed to an outer assignment. The tokens of the right side
move into the open assignment at the end of the left side (`Derives.absorbs`).
-/

namespace TemplateExpr

theorem Derives.toEither {phrase : Phrase} {ts : List Token} (h : Derives .innermost phrase ts) :
    Derives .either phrase ts := by
  induction h with
  | assigned _ _ _ ihl ihr => exact .assigned ihl ihr (by simp)
  | moreStatements _ _ ihf ihm => exact .moreStatements ihf ihm
  | piped _ _ ihi iha => exact .piped ihi iha
  | stageArgument _ _ iha ihm => exact .stageArgument iha ihm
  | conditional _ _ _ iht ihc iha => exact .conditional iht ihc iha
  | chained _ hop _ ihl ihr => exact .chained ihl hop ihr
  | level hnext _ ih => exact .level hnext ih
  | tightest hnext _ ih => exact .tightest hnext ih
  | signed hop _ ih => exact .signed hop ih
  | member _ ih => exact .member ih
  | index _ _ iht ihk => exact .index iht ihk
  | call _ _ ihc ihg => exact .call ihc ihg
  | moreArguments _ _ iha ihm => exact .moreArguments iha ihm
  | moreElements _ _ iha ihm => exact .moreElements iha ihm
  | moreEntries _ _ iha ihm => exact .moreEntries iha ihm
  | word hword => exact .word hword
  | noStatement => exact .noStatement
  | noStageArgument => exact .noStageArgument
  | constant => exact .constant
  | noArgument => exact .noArgument
  | noElement => exact .noElement
  | noEntry => exact .noEntry
  | program _ ih => exact .program ih
  | lastStatement _ ih => exact .lastStatement ih
  | oneStatement _ ih => exact .oneStatement ih
  | unpiped _ ih => exact .unpiped ih
  | unassigned _ ih => exact .unassigned ih
  | unconditional _ ih => exact .unconditional ih
  | unchained _ ih => exact .unchained ih
  | unprefixed _ ih => exact .unprefixed ih
  | bare _ ih => exact .bare ih
  | bracketed _ ih => exact .bracketed ih
  | array _ ih => exact .array ih
  | object _ ih => exact .object ih
  | someArguments _ ih => exact .someArguments ih
  | lastArgument _ ih => exact .lastArgument ih
  | lastElement _ ih => exact .lastElement ih
  | namedEntry _ ih => exact .namedEntry ih
  | constantEntry _ ih => exact .constantEntry ih
  | lastEntry _ ih => exact .lastEntry ih

/-! ## Moving an `=` inwards -/

/-- That the tokens `suffix`, which start with an `=`, can be added to an open phrase. -/
def Phrase.Absorbs (suffix : List Token) : Phrase → List Token → Prop
  | .ternary true _, ts =>
    ∃ opened tree, Derives .innermost (.ternary opened tree) (ts ++ suffix)
  | .assignment true _, ts =>
    ∃ opened tree, Derives .innermost (.assignment opened tree) (ts ++ suffix)
  | _, _ => True

/-- **An open phrase takes an `=`.** The assignment at its end that has none takes it. -/
theorem Derives.absorbs {opened : Bool} {right : Node} {vs : List Token} {p : Nat}
    (hright : Derives .innermost (.ternary opened right) vs) {phrase : Phrase} {us : List Token}
    (h : Derives .innermost phrase us) : phrase.Absorbs (.symbol "=" p :: vs) us := by
  induction h with
  | @unassigned openedTernary tree us hternary ih =>
    -- The assignment takes the `=` itself, unless one further in is without.
    cases openedTernary with
    | false => exact ⟨opened, _, .assigned hternary hright fun _ => rfl⟩
    | true =>
      obtain ⟨openedAll, all, hall⟩ := ih
      exact ⟨true, all, .unassigned hall⟩
  | @assigned openedLeft openedRight left right' us' vs' p' hleft _ hclosed _ ihr =>
    cases openedRight with
    | false => exact trivial
    | true =>
      obtain ⟨openedAll, all, hall⟩ := ihr
      refine ⟨openedAll, .assignment false left all, ?_⟩
      rw [List.append_assoc, List.cons_append]
      exact .assigned hleft hall hclosed
  | @conditional openedInner openedAlternate test consequent alternate us' vs' ws' p' q' htest hcons
      _ _ _ iha =>
    cases openedAlternate with
    | false => exact trivial
    | true =>
      obtain ⟨openedAll, all, hall⟩ := iha
      refine ⟨openedAll, .conditional false test consequent all, ?_⟩
      rw [List.append_assoc, List.cons_append]
      exact .conditional htest hcons hall
  | _ => exact trivial

/-! ## Regrouping a whole derivation -/

/-- That the rule derives the same tokens from the same nonterminal, with some tree. -/
def Phrase.Regrouped : Phrase → List Token → Prop
  | .program _, ts => ∃ tree, Derives .innermost (.program tree) ts
  | .statements _, ts => ∃ body, Derives .innermost (.statements body) ts
  | .statement _, ts => ∃ body, Derives .innermost (.statement body) ts
  | .pipeline _, ts => ∃ tree, Derives .innermost (.pipeline tree) ts
  | .stageArguments _, ts => ∃ given, Derives .innermost (.stageArguments given) ts
  | .assignment _ _, ts => ∃ opened tree, Derives .innermost (.assignment opened tree) ts
  | .ternary _ _, ts => ∃ opened tree, Derives .innermost (.ternary opened tree) ts
  | .chain level _, ts => ∃ tree, Derives .innermost (.chain level tree) ts
  | .tighter level _, ts => ∃ tree, Derives .innermost (.tighter level tree) ts
  | .prefixed _, ts => ∃ tree, Derives .innermost (.prefixed tree) ts
  | .postfixed _, ts => ∃ tree, Derives .innermost (.postfixed tree) ts
  | .operand _, ts => ∃ tree, Derives .innermost (.operand tree) ts
  | .arguments _, ts => ∃ given, Derives .innermost (.arguments given) ts
  | .argumentList _, ts => ∃ given, Derives .innermost (.argumentList given) ts
  | .elements _, ts => ∃ items, Derives .innermost (.elements items) ts
  | .entry _ _, ts => ∃ key value, Derives .innermost (.entry key value) ts
  | .entries _, ts => ∃ fields, Derives .innermost (.entries fields) ts

/-- **The rule loses no sentence.** -/
theorem Derives.regroup {phrase : Phrase} {ts : List Token} (h : Derives .either phrase ts) :
    phrase.Regrouped ts := by
  induction h with
  | @assigned _ _ _ _ us vs p _ _ _ ihl ihr =>
    obtain ⟨openedLeft, left, hleft⟩ := ihl
    obtain ⟨openedRight, right, hright⟩ := ihr
    -- An open left side takes the right side in, and the whole becomes an assignment without `=`.
    cases openedLeft with
    | false => exact ⟨openedRight, _, .assigned hleft hright fun _ => rfl⟩
    | true =>
      obtain ⟨openedAll, all, hall⟩ := hright.absorbs (p := p) hleft
      exact ⟨true, all, .unassigned hall⟩
  | program _ ih => obtain ⟨_, h⟩ := ih; exact ⟨_, .program h⟩
  | lastStatement _ ih => obtain ⟨_, h⟩ := ih; exact ⟨_, .lastStatement h⟩
  | moreStatements _ _ ihf ihm =>
    obtain ⟨_, hf⟩ := ihf
    obtain ⟨_, hm⟩ := ihm
    exact ⟨_, .moreStatements hf hm⟩
  | noStatement => exact ⟨_, .noStatement⟩
  | oneStatement _ ih => obtain ⟨_, h⟩ := ih; exact ⟨_, .oneStatement h⟩
  | unpiped _ ih => obtain ⟨_, _, h⟩ := ih; exact ⟨_, .unpiped h⟩
  | piped _ _ ihi iha =>
    obtain ⟨_, hi⟩ := ihi
    obtain ⟨_, ha⟩ := iha
    exact ⟨_, .piped hi ha⟩
  | noStageArgument => exact ⟨_, .noStageArgument⟩
  | stageArgument _ _ iha ihm =>
    obtain ⟨_, _, ha⟩ := iha
    obtain ⟨_, hm⟩ := ihm
    exact ⟨_, .stageArgument ha hm⟩
  | unassigned _ ih => obtain ⟨_, _, h⟩ := ih; exact ⟨_, _, .unassigned h⟩
  | unconditional _ ih => obtain ⟨_, h⟩ := ih; exact ⟨_, _, .unconditional h⟩
  | conditional _ _ _ iht ihc iha =>
    obtain ⟨_, ht⟩ := iht
    obtain ⟨_, _, hc⟩ := ihc
    obtain ⟨_, _, ha⟩ := iha
    exact ⟨_, _, .conditional ht hc ha⟩
  | unchained _ ih => obtain ⟨_, h⟩ := ih; exact ⟨_, .unchained h⟩
  | chained _ hop _ ihl ihr =>
    obtain ⟨_, hl⟩ := ihl
    obtain ⟨_, hr⟩ := ihr
    exact ⟨_, .chained hl hop hr⟩
  | level hnext _ ih => obtain ⟨_, h⟩ := ih; exact ⟨_, .level hnext h⟩
  | tightest hnext _ ih => obtain ⟨_, h⟩ := ih; exact ⟨_, .tightest hnext h⟩
  | unprefixed _ ih => obtain ⟨_, h⟩ := ih; exact ⟨_, .unprefixed h⟩
  | signed hop _ ih => obtain ⟨_, h⟩ := ih; exact ⟨_, .signed hop h⟩
  | bare _ ih => obtain ⟨_, h⟩ := ih; exact ⟨_, .bare h⟩
  | member _ ih => obtain ⟨_, h⟩ := ih; exact ⟨_, .member h⟩
  | index _ _ iht ihk =>
    obtain ⟨_, ht⟩ := iht
    obtain ⟨_, hk⟩ := ihk
    exact ⟨_, .index ht hk⟩
  | call _ _ ihc ihg =>
    obtain ⟨_, hc⟩ := ihc
    obtain ⟨_, hg⟩ := ihg
    exact ⟨_, .call hc hg⟩
  | constant => exact ⟨_, .constant⟩
  | word hword => exact ⟨_, .word hword⟩
  | bracketed _ ih => obtain ⟨_, h⟩ := ih; exact ⟨_, .bracketed h⟩
  | array _ ih => obtain ⟨_, h⟩ := ih; exact ⟨_, .array h⟩
  | object _ ih => obtain ⟨_, h⟩ := ih; exact ⟨_, .object h⟩
  | noArgument => exact ⟨_, .noArgument⟩
  | someArguments _ ih => obtain ⟨_, h⟩ := ih; exact ⟨_, .someArguments h⟩
  | lastArgument _ ih => obtain ⟨_, h⟩ := ih; exact ⟨_, .lastArgument h⟩
  | moreArguments _ _ iha ihm =>
    obtain ⟨_, ha⟩ := iha
    obtain ⟨_, hm⟩ := ihm
    exact ⟨_, .moreArguments ha hm⟩
  | noElement => exact ⟨_, .noElement⟩
  | lastElement _ ih => obtain ⟨_, _, h⟩ := ih; exact ⟨_, .lastElement h⟩
  | moreElements _ _ iha ihm =>
    obtain ⟨_, _, ha⟩ := iha
    obtain ⟨_, hm⟩ := ihm
    exact ⟨_, .moreElements ha hm⟩
  | namedEntry _ ih => obtain ⟨_, _, h⟩ := ih; exact ⟨_, _, .namedEntry h⟩
  | constantEntry _ ih => obtain ⟨_, _, h⟩ := ih; exact ⟨_, _, .constantEntry h⟩
  | noEntry => exact ⟨_, .noEntry⟩
  | lastEntry _ ih => obtain ⟨_, _, h⟩ := ih; exact ⟨_, .lastEntry h⟩
  | moreEntries _ _ iha ihm =>
    obtain ⟨_, _, ha⟩ := iha
    obtain ⟨_, hm⟩ := ihm
    exact ⟨_, .moreEntries ha hm⟩

end TemplateExpr

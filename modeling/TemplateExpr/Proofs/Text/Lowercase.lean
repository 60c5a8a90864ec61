import Mathlib
import TemplateExpr.Text.Case

/-!
# Lower case inside a longer text

Lower case depends on the surroundings in one place: a capital sigma at the end of a word has a form
of its own. So the lower case of a text is found in that of a longer text if its sigmas read alike
in both (`lowerIn_eq_iff`), and it is found in whatever surroundings exactly if none of its sigmas
is open, that is, none can be read in both ways (`lowercase_infix_iff`).
-/

namespace TemplateExpr.Text

/-! ## Sigmas -/

def endsWord (before after : List Char) : Bool := meetsCased before && !meetsCased after

def lowerAt (before : List Char) (c : Char) (after : List Char) : List Char :=
  if c = 'Σ' then if endsWord before after then ['ς'] else ['σ'] else lowerChar c

def lowerIn (before after : List Char) : List Char → List Char
  | [] => []
  | c :: rest => lowerAt before c (rest ++ after) ++ lowerIn (c :: before) after rest

/-- **The lower case of a part.** -/
theorem lowerFrom_append (before text after : List Char) :
    lowerFrom before (text ++ after) =
      lowerIn before after text ++ lowerFrom (text.reverse ++ before) after := by
  induction text generalizing before with
  | nil => rfl
  | cons c rest ih =>
    rw [List.cons_append, lowerFrom, ih, lowerIn, List.reverse_cons, List.append_assoc,
      List.append_assoc]
    rfl

theorem lowerFrom_eq (before text : List Char) :
    lowerFrom before text = lowerIn before [] text := by
  have h := lowerFrom_append before text []
  rwa [List.append_nil, lowerFrom, List.append_nil] at h

theorem lowerIn_infix (before text after : List Char) :
    lowerIn before.reverse after text <:+: lowercase (before ++ text ++ after) := by
  rw [lowercase, List.append_assoc, lowerFrom_append, lowerFrom_append, List.append_nil]
  exact List.infix_append' _ _ _

/-! ## Sigmas that read alike -/

/-- That every sigma of a text ends a word in both of two surroundings or in neither. -/
def SigmasAgree (text : List Char) (before after before' after' : List Char) : Prop :=
  ∀ front rest, text = front ++ 'Σ' :: rest →
    endsWord (front.reverse ++ before) (rest ++ after) =
      endsWord (front.reverse ++ before') (rest ++ after')

theorem sigmasAgree_nil (before after before' after' : List Char) :
    SigmasAgree [] before after before' after' := by
  intro front rest h
  simp at h

theorem sigmasAgree_cons {c : Char} {text before after before' after' : List Char} :
    SigmasAgree (c :: text) before after before' after' ↔
      (c = 'Σ' → endsWord before (text ++ after) = endsWord before' (text ++ after')) ∧
        SigmasAgree text (c :: before) after (c :: before') after' := by
  constructor
  · refine fun h => ⟨?_, fun front rest htext => ?_⟩
    · rintro rfl
      exact h [] text rfl
    · have hagree := h (c :: front) rest (by rw [htext, List.cons_append])
      simpa using hagree
  · rintro ⟨hhere, hlater⟩ front rest h
    cases front with
    | nil =>
      obtain ⟨hc, rfl⟩ := List.cons.inj h
      exact hhere hc
    | cons d front =>
      obtain ⟨rfl, htext⟩ := List.cons.inj h
      simpa using hlater front rest htext

theorem lowerAt_eq_iff {c : Char} {before after before' after' : List Char} :
    lowerAt before c after = lowerAt before' c after' ↔
      (c = 'Σ' → endsWord before after = endsWord before' after') := by
  unfold lowerAt
  by_cases hc : c = 'Σ'
  · cases endsWord before after <;> cases endsWord before' after' <;> simp [hc]
  · simp [hc]

theorem length_lowerAt (c : Char) (before after before' after' : List Char) :
    (lowerAt before c after).length = (lowerAt before' c after').length := by
  unfold lowerAt
  split
  · split <;> split <;> rfl
  · rfl

/-- **Surroundings matter to sigmas only.** -/
theorem lowerIn_eq_iff {text before after before' after' : List Char} :
    lowerIn before after text = lowerIn before' after' text ↔
      SigmasAgree text before after before' after' := by
  induction text generalizing before before' with
  | nil => exact iff_of_true rfl (sigmasAgree_nil before after before' after')
  | cons c rest ih =>
    rw [lowerIn, lowerIn, sigmasAgree_cons, ← lowerAt_eq_iff, ← ih]
    constructor
    · exact fun h => List.append_inj h (length_lowerAt c _ _ _ _)
    · rintro ⟨hhere, hlater⟩
      rw [hhere, hlater]

/-! ## Open sigmas -/

/-- That a text has a sigma which can be read in both ways, as other characters stand around the
text: nothing but case-ignorable characters stand in front of it in the text, and no cased one comes
next; or nothing else stands behind it, and a cased one came last. -/
def HasOpenSigma (text : List Char) : Prop :=
  ∃ front rest, text = front ++ 'Σ' :: rest ∧
    (front.all isCaseIgnorable = true ∧ meetsCased rest = false ∨
      rest.all isCaseIgnorable = true ∧ meetsCased front.reverse = true)

theorem meetsCased_cons (c : Char) (rest : List Char) :
    meetsCased (c :: rest) = if isCaseIgnorable c then meetsCased rest else isCased c := by
  unfold meetsCased
  rw [List.dropWhile_cons]
  cases isCaseIgnorable c <;> rfl

theorem meetsCased_append (text more : List Char) :
    meetsCased (text ++ more) =
      if text.all isCaseIgnorable then meetsCased more else meetsCased text := by
  induction text with
  | nil => rfl
  | cons c rest ih =>
    rw [List.cons_append, meetsCased_cons, meetsCased_cons, List.all_cons, ih]
    cases isCaseIgnorable c <;> rfl

theorem meetsCased_of_all {text : List Char} (h : text.all isCaseIgnorable = true) :
    meetsCased text = false := by
  have happend := meetsCased_append text []
  rwa [List.append_nil, if_pos h] at happend

/-- A sigma that is not open reads alike in all surroundings. -/
theorem sigmasAgree_of_not_open {text : List Char} (h : ¬HasOpenSigma text)
    (before after : List Char) : SigmasAgree text before after [] [] := by
  intro front rest htext
  have hopen : ¬(front.all isCaseIgnorable = true ∧ meetsCased rest = false ∨
      rest.all isCaseIgnorable = true ∧ meetsCased front.reverse = true) :=
    fun hopen => h ⟨front, rest, htext, hopen⟩
  unfold endsWord
  rw [List.append_nil, List.append_nil, meetsCased_append, meetsCased_append, List.all_reverse]
  by_cases hfront : front.all isCaseIgnorable = true
  · have hnone : meetsCased front.reverse = false :=
      meetsCased_of_all (List.all_reverse.trans hfront)
    -- The sigma comes first, so a cased character comes next and settles it.
    have hnext : meetsCased rest = true := by
      cases hrest : meetsCased rest with
      | true => rfl
      | false => exact absurd (.inl ⟨hfront, hrest⟩) hopen
    have hrest : ¬rest.all isCaseIgnorable = true := by
      intro hall
      rw [meetsCased_of_all hall] at hnext
      cases hnext
    rw [if_neg hrest, hnext, hnone, Bool.not_true, Bool.and_false, Bool.and_false]
  · rw [if_neg hfront]
    by_cases hrest : rest.all isCaseIgnorable = true
    · have hlast : meetsCased front.reverse = false := by
        cases hlast : meetsCased front.reverse with
        | false => rfl
        | true => exact absurd (.inr ⟨hrest, hlast⟩) hopen
      rw [hlast, Bool.false_and, Bool.false_and]
    · rw [if_neg hrest]

/-! ## Surroundings in which a text is not found -/

/-- That one of two texts has no more final sigmas than the other and no fewer that are not, and as
many of either only if it is the other. -/
structure FewerFinal (first second : List Char) : Prop where
  final : first.count 'ς' ≤ second.count 'ς'
  inner : second.count 'σ' ≤ first.count 'σ'
  alike : first.count 'ς' = second.count 'ς' ∨ second.count 'σ' = first.count 'σ' → first = second

theorem FewerFinal.refl (text : List Char) : FewerFinal text text :=
  ⟨Nat.le_refl _, Nat.le_refl _, fun _ => rfl⟩

theorem FewerFinal.append {first second rest rest' : List Char} (h : FewerFinal first second)
    (hrest : FewerFinal rest rest') : FewerFinal (first ++ rest) (second ++ rest') where
  final := by
    rw [List.count_append, List.count_append]
    exact Nat.add_le_add h.final hrest.final
  inner := by
    rw [List.count_append, List.count_append]
    exact Nat.add_le_add h.inner hrest.inner
  alike := by
    have hfinal := h.final
    have hinner := h.inner
    have hfinal' := hrest.final
    have hinner' := hrest.inner
    simp only [List.count_append]
    intro hcount
    rw [h.alike (by omega), hrest.alike (by omega)]

theorem fewerFinal_lowerAt {c : Char} {before after before' after' : List Char}
    (h : c = 'Σ' → endsWord before after = true → endsWord before' after' = true) :
    FewerFinal (lowerAt before c after) (lowerAt before' c after') := by
  unfold lowerAt
  by_cases hc : c = 'Σ'
  · rw [if_pos hc, if_pos hc]
    cases hfirst : endsWord before after with
    | true =>
      rw [h hc hfirst]
      exact .refl _
    | false =>
      cases endsWord before' after' with
      | true => exact ⟨by decide, by decide, by decide⟩
      | false => exact .refl _
  · rw [if_neg hc, if_neg hc]
    exact .refl _

theorem fewerFinal_lowerIn {text before after before' after' : List Char}
    (h : ∀ front rest, text = front ++ 'Σ' :: rest →
      endsWord (front.reverse ++ before) (rest ++ after) = true →
        endsWord (front.reverse ++ before') (rest ++ after') = true) :
    FewerFinal (lowerIn before after text) (lowerIn before' after' text) := by
  induction text generalizing before before' with
  | nil => exact .refl _
  | cons c rest ih =>
    refine (fewerFinal_lowerAt ?_).append (ih fun front rest' hrest => ?_)
    · rintro rfl
      exact h [] rest rfl
    · simpa using h (c :: front) rest' (by rw [hrest, List.cons_append])

/-- With fewer sigmas that are not final, a text is not found in another one. -/
theorem FewerFinal.not_infix_cons {first second : List Char} (h : FewerFinal first second)
    (hne : first ≠ second) {c : Char} (hc : c ≠ 'σ') : ¬first <:+: c :: second := by
  intro hinfix
  have hcount := hinfix.count_le 'σ'
  rw [List.count_cons_of_ne hc] at hcount
  exact hne (h.alike (.inr (Nat.le_antisymm h.inner hcount)))

theorem FewerFinal.not_infix_concat {first second : List Char} (h : FewerFinal first second)
    (hne : first ≠ second) {c : Char} (hc : c ≠ 'ς') : ¬second <:+: first ++ [c] := by
  intro hinfix
  have hnone : [c].count 'ς' = 0 := List.count_eq_zero_of_not_mem (by simpa using hc.symm)
  have hcount := hinfix.count_le 'ς'
  rw [List.count_append, hnone] at hcount
  exact hne (h.alike (.inl (Nat.le_antisymm h.final hcount)))

theorem meetsCased_letter : meetsCased ['A'] = true := by decide

theorem lowerChar_letter : lowerChar 'A' = ['a'] := by decide

theorem endsWord_letter_before (front rest : List Char) :
    endsWord (front ++ ['A']) rest =
      ((front.all isCaseIgnorable || meetsCased front) && !meetsCased rest) := by
  rw [endsWord, meetsCased_append, meetsCased_letter]
  cases front.all isCaseIgnorable <;> rfl

theorem endsWord_letter_after (front rest : List Char) :
    endsWord front (rest ++ ['A']) =
      (meetsCased front && !(rest.all isCaseIgnorable || meetsCased rest)) := by
  rw [endsWord, meetsCased_append, meetsCased_letter]
  cases rest.all isCaseIgnorable <;> rfl

/-- A sigma that comes first ends a word if a letter stands in front of the text, and by itself it
does not. -/
theorem not_infix_behind_letter {front rest : List Char}
    (hfront : front.all isCaseIgnorable = true) (hrest : meetsCased rest = false) :
    ¬lowercase (front ++ 'Σ' :: rest) <:+: lowercase ('A' :: (front ++ 'Σ' :: rest)) := by
  have hlonger : lowercase ('A' :: (front ++ 'Σ' :: rest)) =
      'a' :: lowerIn ['A'] [] (front ++ 'Σ' :: rest) := by
    rw [lowercase, lowerFrom_eq, lowerIn, lowerAt, if_neg (by decide), lowerChar_letter,
      List.singleton_append]
  rw [hlonger, lowercase, lowerFrom_eq]
  refine FewerFinal.not_infix_cons (fewerFinal_lowerIn fun before after _ hends => ?_)
    (fun hsame => ?_) (by decide)
  · rw [List.append_nil, List.append_nil, endsWord, Bool.and_eq_true] at hends
    rw [List.append_nil, endsWord_letter_before, hends.1, hends.2, Bool.or_true, Bool.and_self]
  · have hagree := lowerIn_eq_iff.mp hsame front rest rfl
    rw [List.append_nil, List.append_nil, endsWord_letter_before, endsWord, List.all_reverse,
      hfront, hrest, meetsCased_of_all (List.all_reverse.trans hfront)] at hagree
    cases hagree

/-- A sigma that comes last ends no word if a letter stands behind the text, and by itself it
does. -/
theorem not_infix_before_letter {front rest : List Char}
    (hrest : rest.all isCaseIgnorable = true) (hfront : meetsCased front.reverse = true) :
    ¬lowercase (front ++ 'Σ' :: rest) <:+: lowercase (front ++ 'Σ' :: rest ++ ['A']) := by
  have hlonger : lowercase (front ++ 'Σ' :: rest ++ ['A']) =
      lowerIn [] ['A'] (front ++ 'Σ' :: rest) ++ ['a'] := by
    rw [lowercase, lowerFrom_append, lowerFrom, if_neg (by decide), lowerChar_letter, lowerFrom,
      List.append_nil]
  rw [hlonger, lowercase, lowerFrom_eq]
  refine FewerFinal.not_infix_concat (fewerFinal_lowerIn fun before after _ hends => ?_)
    (fun hsame => ?_) (by decide)
  · rw [List.append_nil, endsWord_letter_after, Bool.and_eq_true, Bool.not_eq_true',
      Bool.or_eq_false_iff] at hends
    rw [List.append_nil, List.append_nil, endsWord, hends.1, hends.2.2, Bool.not_false,
      Bool.and_self]
  · have hagree := lowerIn_eq_iff.mp hsame front rest rfl
    rw [List.append_nil, List.append_nil, endsWord_letter_after, endsWord, hrest, hfront,
      meetsCased_of_all hrest] at hagree
    cases hagree

/-- **A text is found in every longer one**, in lower case, exactly if it has no open sigma. A
letter in front of an open sigma or behind it is enough to hide the text. -/
theorem lowercase_infix_iff {text : List Char} :
    (∀ longer, text <:+: longer → lowercase text <:+: lowercase longer) ↔ ¬HasOpenSigma text := by
  constructor
  · rintro h ⟨front, rest, rfl, ⟨hfront, hrest⟩ | ⟨hrest, hfront⟩⟩
    · exact not_infix_behind_letter hfront hrest (h _ (List.infix_cons List.infix_rfl))
    · exact not_infix_before_letter hrest hfront (h _ (List.infix_append [] _ ['A']))
  · rintro h _ ⟨before, after, rfl⟩
    have hpart := lowerIn_infix before text after
    rwa [lowerIn_eq_iff.mpr (sigmasAgree_of_not_open h _ _), ← lowerFrom_eq] at hpart

end TemplateExpr.Text

import Mathlib
import TemplateExpr.Proofs.Token.Word

/-!
# Blanks between tokens

Where blanks stand is no part of what a source says. The texts of its tokens, with any blanks
between them, are read as the same tokens again, at other positions (`tokenize_spaced`). Blanks are
those of Unicode, and there may be some in front of the first text and behind the last one as well.

A blank stops every word: it is part of no name and no operator, and it is no point, which is all
that a numeral looks for behind its digits. So a word in front of a blank is a token by itself.
-/

namespace TemplateExpr

open Text Number

def Blanks (text : List Char) : Prop := ∀ c ∈ text, isBlank c = true

instance (text : List Char) : Decidable (Blanks text) :=
  decidable_of_iff (text.all isBlank = true) List.all_eq_true

/-- That a text is made of words in this order, with blanks between any two of them. -/
inductive Spaced : List (List Char) → List Char → Prop
  | blanks {text : List Char} (h : Blanks text) : Spaced [] text
  | word {before word gap more : List Char} {words : List (List Char)} (hbefore : Blanks before)
      (hgap : Blanks gap) (hsome : words ≠ [] → gap ≠ []) (hmore : Spaced words more) :
      Spaced (word :: words) (before ++ word ++ gap ++ more)

/-! ## Blanks stop words -/

theorem Seam.blank {rest : List Char} (h : ∀ c, rest.head? = some c → isBlank c = true) :
    Seam rest where
  joint := by
    intro c hc
    have hblank := h c hc
    refine ⟨?_, ?_⟩
    · by_contra hpart
      rw [not_isBlank_of_isNamePart (eq_true_of_ne_false hpart)] at hblank
      cases hblank
    · rintro rfl
      revert hblank
      decide
  operator := by
    intro c hc op hop hmem
    have hblank := h c hc
    have hall : (operators.flatMap String.toList).all (fun c => !isBlank c) = true := by
      decide
    have hnot := List.all_eq_true.mp hall c (List.mem_flatMap.mpr ⟨op, hop, hmem⟩)
    rw [hblank] at hnot
    cases hnot

theorem Spaced.seam {words : List (List Char)} {gap more : List Char} (hgap : Blanks gap)
    (hsome : words ≠ [] → gap ≠ []) (h : Spaced words more) : Seam (gap ++ more) := by
  apply Seam.blank
  intro c hc
  cases gap with
  | cons first gap =>
    cases hc
    exact hgap c List.mem_cons_self
  | nil =>
    cases h with
    | blanks hmore => exact hmore c (List.mem_of_head? hc)
    | word => exact absurd rfl (hsome (List.cons_ne_nil _ _))

/-! ## The tokens of a spaced text -/

/-- **Words with blanks between them are read one by one.** -/
theorem Spaced.passes {ts : List Token}
    (hwords : ∀ token ∈ ts, IsWord token.text.toList token.kind) {text : List Char}
    (h : Spaced (ts.map fun token => token.text.toList) text) (offset : Nat) :
    ∃ us stop, Cursor.Passes ⟨text, offset⟩ us ⟨[], stop⟩ ∧
      us.map (fun token => (token.text, token.kind)) =
        ts.map fun token => (token.text, token.kind) := by
  induction ts generalizing text offset with
  | nil =>
    cases h with
    | blanks h =>
      have hblanks := Cursor.passes_blanks h [] offset
      rw [List.append_nil] at hblanks
      exact ⟨[], _, hblanks, rfl⟩
  | cons token ts ih =>
    obtain ⟨hword, hwords⟩ := List.forall_mem_cons.mp hwords
    cases h with
    | @word before _ gap more _ hbefore hgap hsome hmore =>
      have hfront := Cursor.passes_blanks hbefore (token.text.toList ++ (gap ++ more)) offset
      have hthis := Cursor.passes_word hword (hmore.seam hgap hsome) (offset + before.length)
      have hbehind := Cursor.passes_blanks hgap more
        (offset + before.length + token.text.toList.length)
      obtain ⟨us, stop, hrest, hus⟩ := ih hwords hmore
        (offset + before.length + token.text.toList.length + gap.length)
      refine ⟨⟨token.text, token.kind, offset + before.length⟩ :: us, stop, ?_, ?_⟩
      · have hall := ((hfront.trans hthis).trans hbehind).trans hrest
        rw [String.ofList_toList] at hall
        rwa [List.append_assoc, List.append_assoc]
      · rw [List.map_cons, List.map_cons, hus]

/-- **Spacing is irrelevant.** A text made of the texts of a source's tokens, with blanks between
them, has as many tokens, with the same texts, kinds and values. -/
theorem tokenize_spaced {source other : String} {ts : List Token} (h : tokenize source = .ok ts)
    (hspaced : Spaced (ts.map fun token => token.text.toList) other.toList) :
    ∃ us, tokenize other = .ok us ∧ us.length = ts.length ∧
      us.map (fun token => (token.text, token.kind)) =
        ts.map fun token => (token.text, token.kind) := by
  obtain ⟨us, stop, hpasses, hus⟩ := hspaced.passes (tokenize_isWord h) 0
  refine ⟨us, hpasses.tokensFrom, ?_, hus⟩
  simpa using congrArg List.length hus

/-- A point between names, an operator of three characters and a numeral, moved apart by blanks of
which some are not ASCII. -/
theorem tokenize_spaced_wide :
    ∃ us, tokenize "\ta\u2003. b === \u00a042" = .ok us ∧
      us.map (·.text) = ["a", ".", "b", "===", "42"] := by
  have hread : tokenize "a.b===42" = .ok [⟨"a", .identifier, 0⟩, ⟨".", .symbol, 1⟩,
      ⟨"b", .identifier, 2⟩, ⟨"===", .symbol, 3⟩, ⟨"42", .constant (.integer 42), 6⟩] := by cbv
  have hspaced : Spaced [['a'], ['.'], ['b'], ['=', '=', '='], ['4', '2']]
      "\ta\u2003. b === \u00a042".toList := by
    show Spaced _
      (['\t'] ++ ['a'] ++ ['\u2003'] ++ ([] ++ ['.'] ++ [' '] ++ ([] ++ ['b'] ++ [' '] ++
        ([] ++ ['=', '=', '='] ++ [' ', '\u00a0'] ++ ([] ++ ['4', '2'] ++ [] ++ [])))))
    refine .word ?_ ?_ ?_ (.word ?_ ?_ ?_ (.word ?_ ?_ ?_ (.word ?_ ?_ ?_
      (.word ?_ ?_ ?_ (.blanks ?_)))))
    all_goals decide +kernel
  obtain ⟨us, hus, -, hsame⟩ := tokenize_spaced hread hspaced
  refine ⟨us, hus, ?_⟩
  simpa [Function.comp_def] using congrArg (List.map Prod.fst) hsame

end TemplateExpr

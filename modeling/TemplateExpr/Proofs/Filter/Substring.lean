import Mathlib
import TemplateExpr.Proofs.Filter.Leaves
import TemplateExpr.Proofs.Text.Lowercase

/-!
# Looking for a part of a text

The usual comparator looks for the lower case of a pattern in the lower case of each leaf. A part of
a text is found there if its sigmas read alike by themselves and in the text. A pattern without an
open sigma is found wherever it occurs, and any other one is missed in some text that contains it
(`Filter.select_substring`).
-/

namespace TemplateExpr

open Text

namespace Value

theorem resembles_text (pattern leaf : String) :
    (text pattern).Resembles (text leaf) ↔
      lowercase pattern.toList <:+: lowercase leaf.toList := by
  simp [Resembles, kind, display]

end Value

theorem Pattern.holds_text {part : String} (hpart : (Value.text part).IsPlain) (s : String) :
    holds similar (.text part) (.text s) = true ↔
      lowercase part.toList <:+: lowercase s.toList := by
  have hleaves : (Value.text s).leaves = [.text s] := rfl
  rw [holds_leaves hpart, ← Value.resembles_text, hleaves]
  simp only [List.mem_singleton, exists_eq_left]

namespace Filter

open Value

variable {σ : Type} (host : Host σ)

/-- **A part of a text is found** in every item with that text as a leaf, if its sigmas read alike
by itself and in the text. For all texts that contain it this holds exactly if it has no open
sigma. -/
theorem select_substring {comparator : Value} (h : Comparator.ofValue comparator = .similar)
    {part : String} (hpart : (Value.text part).IsPlain) :
    ∃ keeps : Value → Bool,
      (∀ items, select host (.array items) (.text part) comparator =
        pure (.array (items.filter keeps))) ∧
      (∀ s, keeps (.text s) = true ↔ lowercase part.toList <:+: lowercase s.toList) ∧
      (∀ (item : Value) (s : String) (before after : List Char),
        .text s ∈ item.leaves → s.toList = before ++ part.toList ++ after →
          SigmasAgree part.toList before.reverse after [] [] → keeps item = true) ∧
      ((∀ (item : Value) (s : String), .text s ∈ item.leaves → part.toList <:+: s.toList →
          keeps item = true) ↔ ¬HasOpenSigma part.toList) := by
  obtain ⟨hkind, htest⟩ := similar_of_ofValue h
  have hkeeps : ∀ {item : Value} {s : String}, .text s ∈ item.leaves →
      lowercase part.toList <:+: lowercase s.toList →
        Pattern.holds Pattern.similar (.text part) item = true := fun hleaf hinfix =>
    (Pattern.holds_leaves hpart _).mpr ⟨_, hleaf, (resembles_text _ _).mpr hinfix⟩
  refine ⟨Pattern.holds Pattern.similar (.text part), fun items => ?_,
    Pattern.holds_text hpart, ?_, ?_⟩
  · rw [select_items host hkind (by simp [kind]) items, htest]
  · intro item s before after hleaf hs hagree
    refine hkeeps hleaf ?_
    have hinfix := lowerIn_infix before part.toList after
    rwa [lowerIn_eq_iff.mpr hagree, ← lowerFrom_eq, ← hs] at hinfix
  · rw [← lowercase_infix_iff]
    constructor
    · intro hall longer hlonger
      have hmember : text (String.ofList longer) ∈ (text (String.ofList longer)).leaves :=
        (mem_leaves_atom rfl).mpr rfl
      have hheld := hall _ _ hmember (by rwa [String.toList_ofList])
      rwa [Pattern.holds_text hpart, String.toList_ofList] at hheld
    · intro hall item s hleaf hs
      exact hkeeps hleaf (hall _ hs)

/-- A sigma inside a part, and a letter whose lower case is two characters long. -/
theorem select_substring_inner_sigma :
    let item := record [("a", array [null, text "ΟΔΟΣΗ İ"])]
    (text "ΔΟΣΗ İ").IsPlain ∧ ¬HasOpenSigma "ΔΟΣΗ İ".toList ∧
      select Host.none (array [item]) (text "ΔΟΣΗ İ") undefined = pure (array [item]) := by
  intro item
  have hplain : (text "ΔΟΣΗ İ").IsPlain := by simp [IsPlain]
  have hpart : "ΔΟΣΗ İ".toList = ['Δ', 'Ο', 'Σ', 'Η', ' ', 'İ'] := by decide +kernel
  have hopen : ¬HasOpenSigma "ΔΟΣΗ İ".toList := by
    rw [hpart]
    rintro ⟨front, rest, htext, hopen⟩
    rcases front with _ | ⟨a, _ | ⟨b, _ | ⟨c, front⟩⟩⟩ <;>
      simp only [List.nil_append, List.cons_append, List.cons.injEq] at htext
    · exact absurd htext.1 (by decide)
    · exact absurd htext.2.1 (by decide)
    · obtain ⟨rfl, rfl, -, rfl⟩ := htext
      revert hopen
      decide +kernel
    · have hlater : 'Σ' ∈ ['Η', ' ', 'İ'] := by
        rw [htext.2.2.2]
        simp
      exact absurd hlater (by decide)
  have hleaf : text "ΟΔΟΣΗ İ" ∈ item.leaves := by
    simp [item, leaves, leavesOfEntries, leavesOfItems]
  have husual : Comparator.ofValue undefined = .similar := rfl
  obtain ⟨keeps, hselect, -, -, hall⟩ := select_substring Host.none husual hplain
  have hkept : keeps item = true := hall.mpr hopen item "ΟΔΟΣΗ İ" hleaf (by decide +kernel)
  refine ⟨hplain, hopen, ?_⟩
  rw [hselect, List.filter_cons_of_pos hkept, List.filter_nil]

/-- A sigma that ends the part ends no word where the word goes on, and so it is missed there. -/
theorem final_sigma_missed :
    "ΟΔΟΣ".toList <:+: "ΟΔΟΣΗΜΑ".toList ∧ (text "ΟΔΟΣ").IsPlain ∧
      select Host.none (array [text "ΟΔΟΣΗΜΑ"]) (text "ΟΔΟΣ") undefined = pure (array []) := by
  have hplain : (text "ΟΔΟΣ").IsPlain := by simp [IsPlain]
  have hmissed : ¬Pattern.holds Pattern.similar (text "ΟΔΟΣ") (text "ΟΔΟΣΗΜΑ") = true := by
    rw [Pattern.holds_text hplain]
    decide +kernel
  refine ⟨by decide +kernel, hplain, ?_⟩
  rw [select_items Host.none (by simp [kind]) (by simp [kind])]
  exact congrArg (fun kept => pure (array kept)) (List.filter_cons_of_neg hmissed)

end Filter

end TemplateExpr

/-!
# Ranges of code points

A property of characters is kept as a list of inclusive ranges of code points, in increasing
order. The modules beside this one hold one property each and name it.
-/

namespace TemplateExpr.Text

/-- Inclusive bounds of a run of code points. -/
abbrev Range := Nat × Nat

/-- Whether a code point lies in one of the ranges. The first range that starts behind it ends the
search. -/
def inRanges : List Range → Nat → Bool
  | [], _ => false
  | r :: ranges, code => r.1.ble code && (code.ble r.2 || inRanges ranges code)

def inOrder : List Range → Bool
  | r :: s :: ranges => r.1.ble s.1 && inOrder (s :: ranges)
  | _ => true

theorem start_le_of_inOrder {r : Range} {ranges : List Range} (h : inOrder (r :: ranges) = true) :
    ∀ s ∈ ranges, r.1 ≤ s.1 := by
  induction ranges generalizing r with
  | nil => intro s hs; cases hs
  | cons t ranges ih =>
    simp only [inOrder, Bool.and_eq_true, Nat.ble_eq] at h
    intro s hs
    rcases List.mem_cons.mp hs with rfl | hs
    · exact h.1
    · exact Nat.le_trans h.1 (ih h.2 s hs)

theorem inOrder_tail {r : Range} {ranges : List Range} (h : inOrder (r :: ranges) = true) :
    inOrder ranges = true := by
  cases ranges with
  | nil => rfl
  | cons s ranges => exact (Bool.and_eq_true_iff.mp h).2

/-- In ordered ranges nothing is missed by ending the search early. -/
theorem inRanges_iff {ranges : List Range} (h : inOrder ranges = true) (code : Nat) :
    inRanges ranges code = true ↔ ∃ r ∈ ranges, r.1 ≤ code ∧ code ≤ r.2 := by
  induction ranges with
  | nil => simp [inRanges]
  | cons r ranges ih =>
    simp only [inRanges, Bool.and_eq_true, Bool.or_eq_true, Nat.ble_eq, ih (inOrder_tail h),
      List.mem_cons, exists_eq_or_imp]
    constructor
    · rintro ⟨hstart, hend | hlater⟩
      · exact Or.inl ⟨hstart, hend⟩
      · exact Or.inr hlater
    · rintro (⟨hstart, hend⟩ | ⟨s, hs, hcode⟩)
      · exact ⟨hstart, Or.inl hend⟩
      · exact ⟨Nat.le_trans (start_le_of_inOrder h s hs) hcode.1, Or.inr ⟨s, hs, hcode⟩⟩

end TemplateExpr.Text

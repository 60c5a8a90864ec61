import Mathlib
import TemplateExpr.Json.Writer
import TemplateExpr.Proofs.Number.Plain
import TemplateExpr.Value.Equality

/-!
# Numbers as JSON text

A number is written as a plain numeral, and what a reader can make of the numeral equals the number:
the nearest float, and also, where there is no point, the integer that the digits spell. Which of
the two a reader takes is its own affair, so an integral float may come back as an integer, and an
integer beyond the range of a reader as a float (`render_number`).
-/

namespace TemplateExpr

open Number

/-- **What is read from the text of a number equals the number.** -/
theorem render_number {value : Value} (hnumber : value.isNumber = true)
    (hfinite : ∀ x, value = .float x → isFinite x = true) :
    ∃ negative whole fraction, Plain whole fraction ∧
      (∀ layout level, Json.render layout level value =
        (if negative then ['-'] else []) ++ plainText whole fraction) ∧
      (Value.float (plainFloat negative whole fraction)).strictEquals value = true ∧
      (fraction = [] → ∀ n : Int64, n.toInt = signedValue negative whole →
        (Value.integer n).strictEquals value = true) := by
  cases value with
  | integer n =>
    have hspells : n.toInt =
        signedValue (decide (n.toInt < 0)) (Nat.toDigits 10 n.toInt.natAbs) := by
      simp only [signedValue, digitsValue_toDigits, decide_eq_true_eq]
      split <;> omega
    refine ⟨decide (n.toInt < 0), Nat.toDigits 10 n.toInt.natAbs, [], plain_toDigits _, ?written,
      ofWord_eq hspells, ?wholeNumber⟩
    case written =>
      intro layout level
      rw [Json.render, integerText_plain]
      simp only [decide_eq_true_eq]
    case wholeNumber =>
      intro _ m hm
      rw [Int64.toInt_inj.mp (hm.trans hspells.symm), Value.strictEquals, beq_self_eq_true]
  | float x =>
    obtain ⟨negative, whole, fraction, magnitude, htext, hplain, hle, rfl, hreads⟩ :=
      render_plain (hfinite x rfl)
    refine ⟨negative, whole, fraction, hplain, ?written, ?nearest, ?wholeNumber⟩
    case written =>
      intro layout level
      rw [Json.render, if_pos (hfinite _ rfl), htext]
    case nearest =>
      rw [hreads, Value.strictEquals]
      exact beq_ofMagnitude hle
    case wholeNumber =>
      rintro rfl n hn
      rw [Value.strictEquals, ← hreads negative]
      exact ofWord_eq hn
  | _ => cases hnumber

end TemplateExpr

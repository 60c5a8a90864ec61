import Mathlib
import TemplateExpr.Number.Numeral

/-!
# Decimal digits

Digits and the number that they spell. A number has one spelling without a zero in front, so
spelling what was read gives back what was read (`toDigits_digitsValue`).
-/

namespace TemplateExpr.Number

theorem digitChar_of_isDigit {c : Char} (h : c.isDigit = true) :
    Nat.digitChar (c.toNat - '0'.toNat) = c := by
  obtain ⟨hlow, hhigh⟩ := Char.isDigit_iff_toNat.mp h
  have hall : ∀ code, 48 ≤ code → code ≤ 57 → Nat.digitChar (code - 48) = Char.ofNat code := by
    decide
  exact (hall c.toNat hlow hhigh).trans (Char.ofNat_toNat c)

theorem digitsValue_append (digits more : List Char) :
    digitsValue (digits ++ more) = 10 ^ more.length * digitsValue digits + digitsValue more := by
  rw [digitsValue, Nat.ofDigitChars_append, Nat.ofDigitChars_eq_ofDigitChars_zero]
  rfl

theorem digitsValue_singleton (c : Char) : digitsValue [c] = c.toNat - '0'.toNat := by
  simp [digitsValue, Nat.ofDigitChars_cons]

theorem digitsValue_replicate_zero (count : Nat) :
    digitsValue (List.replicate count '0') = 0 := by
  simp [digitsValue]

theorem digitsValue_toDigits (n : Nat) : digitsValue (Nat.toDigits 10 n) = n :=
  Nat.ofDigitChars_ten_toDigits

theorem head?_toDigits {n : Nat} (h : 0 < n) : (Nat.toDigits 10 n).head? ≠ some '0' := by
  induction n using Nat.strongRecOn with
  | ind n ih =>
    by_cases hsmall : n < 10
    · have hall : ∀ n < 10, 0 < n → Nat.digitChar n ≠ '0' := by decide
      rw [Nat.toDigits_of_lt_base hsmall, List.head?_cons]
      exact fun heq => hall n hsmall h (Option.some.inj heq)
    · rw [Nat.toDigits_of_base_le (by decide) (by omega), List.head?_append_of_ne_nil]
      · exact ih (n / 10) (by omega) (by omega)
      · exact Nat.toDigits_ne_nil

/-- **A number has one spelling.** Digits without a zero in front are those that their value is
spelt with. -/
theorem toDigits_digitsValue {digits : List Char} (hdigits : ∀ c ∈ digits, c.isDigit = true)
    (hhead : digits.head? ≠ some '0') (hne : digits ≠ []) :
    Nat.toDigits 10 (digitsValue digits) = digits ∧ 0 < digitsValue digits := by
  induction digits using List.reverseRecOn with
  | nil => exact absurd rfl hne
  | append_singleton front last ih =>
    have hlast : last.isDigit = true := hdigits last (by simp)
    have hsmall : last.toNat - '0'.toNat < 10 := by
      have hhigh : last.toNat ≤ 57 := (Char.isDigit_iff_toNat.mp hlast).2
      show last.toNat - 48 < 10
      omega
    rw [digitsValue_append, digitsValue_singleton]
    have hspelt : Nat.toDigits 10 (last.toNat - '0'.toNat) = [last] := by
      rw [Nat.toDigits_of_lt_base hsmall, digitChar_of_isDigit hlast]
    cases front with
    | nil =>
      have hnonzero : last.toNat - '0'.toNat ≠ 0 := by
        intro hzero
        have hchar := digitChar_of_isDigit hlast
        rw [hzero] at hchar
        exact hhead (by rw [List.nil_append, List.head?_cons, ← hchar]; rfl)
      have hnothing : digitsValue [] = 0 := rfl
      rw [hnothing, Nat.mul_zero, Nat.zero_add, List.nil_append]
      exact ⟨hspelt, Nat.pos_of_ne_zero hnonzero⟩
    | cons first rest =>
      obtain ⟨hfront, hpos⟩ :=
        ih (fun c hc => hdigits c (List.mem_append_left _ hc)) hhead (by simp)
      rw [List.length_singleton, pow_one,
        ← Nat.toDigits_append_toDigits (by omega) hpos hsmall, hfront, hspelt]
      exact ⟨rfl, by omega⟩

end TemplateExpr.Number

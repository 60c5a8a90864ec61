import Mathlib
import TemplateExpr.Proofs.Token.Front

/-!
# Writing numbers

Many numerals spell the same number, and which one is written makes no difference as long as it is
read back as the number, an integer as an integer and a float as a float. `Numerals` is a choice of
numerals for the numbers that have some: a numeral has no sign, and no infinity or NaN is written
with digits. One such choice are the digits without an exponent (`Numerals.plain`).
-/

namespace TemplateExpr

open Number

/-! ## Numerals of numbers -/

def Number.IsMagnitude (x : Float) : Prop :=
  ∃ mantissa exponent, parts x = .finite false mantissa exponent

/-- A way to write numbers as numerals that are read back. -/
structure Numerals where
  integer : Int64 → List Char
  float : Float → List Char
  isNumeral_integer {n : Int64} : 0 ≤ n.toInt → IsNumeral (integer n)
  read_integer {n : Int64} : 0 ≤ n.toInt → numeralValue? (integer n) = some (.integer n)
  isNumeral_float {x : Float} : IsMagnitude x → IsNumeral (float x)
  read_float {x : Float} : IsMagnitude x → numeralValue? (float x) = some (.float x)

/-! ## Integers -/

theorem Number.integerText_of_nonneg {n : Int} (h : 0 ≤ n) :
    integerText n = Nat.toDigits 10 n.toNat := by
  rw [integerText, if_neg (not_lt.mpr h), List.nil_append]
  congr 1
  omega

theorem numeralValue?_integerText {n : Int64} (h : 0 ≤ n.toInt) :
    numeralValue? (integerText n.toInt) = some (.integer n) := by
  have hall : (Nat.toDigits 10 n.toInt.toNat).all Char.isDigit = true :=
    List.all_eq_true.mpr fun _ hc => isDigit_of_mem_toDigits hc
  have hword : toWord? n.toInt = some n := by
    rw [toWord?, if_pos ⟨n.le_toInt, n.toInt_le⟩, Int64.ofInt_toInt]
  rw [integerText_of_nonneg h, numeralValue?, if_pos hall, digitsValue_toDigits,
    Int.toNat_of_nonneg h, hword]

/-! ## Floats -/

def floatNumeral (x : Float) : List Char :=
  let text := plainLayout.render x
  if '.' ∈ text then text else text ++ ['.', '0']

theorem numeralValue?_point {whole fraction : List Char} (h : Plain whole fraction)
    (hfraction : fraction ≠ []) : numeralValue? (plainText whole fraction) =
      some (.float (plainFloat false whole fraction)) := by
  rcases numeralValue?_plain h with hvalue | ⟨n, -, hnone, -⟩
  · exact hvalue
  · exact absurd hnone hfraction

theorem plainFloat_zero (negative : Bool) (whole : List Char) :
    plainFloat negative whole ['0'] = plainFloat negative whole [] := by
  refine ofDecimal_congr negative ?_
  have hvalue : digitsValue (whole ++ ['0']) = 10 * digitsValue whole := by
    rw [digitsValue_append, digitsValue_singleton]
    rfl
  rw [hvalue, List.append_nil]
  push_cast
  norm_num
  ring

theorem Number.IsMagnitude.render {x : Float} (h : IsMagnitude x) :
    ∃ whole fraction, plainLayout.render x = plainText whole fraction ∧ Plain whole fraction ∧
      plainFloat false whole fraction = x := by
  obtain ⟨mantissa, exponent, hparts⟩ := h
  have hfinite : isFinite x = true := by rw [isFinite, hparts]
  obtain ⟨negative, whole, fraction, size, htext, hplain, hsize, hx, hreads⟩ :=
    render_plain hfinite
  have hpositive : negative = false := by
    obtain ⟨hcanonical, hmagnitude⟩ := ofMagnitude_of_parts hparts
    have hlt := magnitude_lt hcanonical
    have hbits : (ofMagnitude false (magnitude mantissa exponent)).toBits.toNat = _ :=
      toNat_toBits_ofMagnitude hlt.le
    rw [hmagnitude, hx, toNat_toBits_ofMagnitude hsize] at hbits
    by_contra hnegative
    rw [if_pos (eq_true_of_ne_false hnegative)] at hbits
    simp only [Bool.false_eq_true, if_false] at hbits
    omega
  subst hpositive
  exact ⟨whole, fraction, htext, hplain, (hreads false).trans hx.symm⟩

theorem floatNumeral_spec {x : Float} (h : IsMagnitude x) :
    ∃ whole fraction, floatNumeral x = plainText whole fraction ∧ Plain whole fraction ∧
      fraction ≠ [] ∧ plainFloat false whole fraction = x := by
  obtain ⟨whole, fraction, htext, hplain, hx⟩ := h.render
  have hpoint : '.' ∉ whole := fun hmem => by cases hplain.whole_digits _ hmem
  by_cases hfraction : fraction = []
  · subst hfraction
    refine ⟨whole, ['0'], ?_, ?_, by decide, (plainFloat_zero false whole).trans hx⟩
    · rw [floatNumeral, htext, plainText, if_pos rfl, List.append_nil, if_neg hpoint]
      rfl
    · exact { hplain with fraction_digits := by simp }
  · have hmem : '.' ∈ plainText whole fraction := by
      rw [plainText, if_neg hfraction]
      exact List.mem_append_right _ List.mem_cons_self
    refine ⟨whole, fraction, ?_, hplain, hfraction, hx⟩
    rw [floatNumeral, htext, if_pos hmem]

def Numerals.plain : Numerals where
  integer n := integerText n.toInt
  float := floatNumeral
  isNumeral_integer {n} h := by
    have hplain := (plain_toDigits n.toInt.toNat).isNumeral
    rw [plainText, if_pos rfl, List.append_nil] at hplain
    rw [integerText_of_nonneg h]
    exact hplain
  read_integer := numeralValue?_integerText
  isNumeral_float h := by
    obtain ⟨whole, fraction, htext, hplain, -⟩ := floatNumeral_spec h
    rw [htext]
    exact hplain.isNumeral
  read_float h := by
    obtain ⟨whole, fraction, htext, hplain, hfraction, rfl⟩ := floatNumeral_spec h
    rw [htext, numeralValue?_point hplain hfraction]

example : Numerals.plain.integer 42 = ['4', '2'] := by decide +kernel
example : Numerals.plain.float 42 = ['4', '2', '.', '0'] := by decide +kernel

end TemplateExpr

import Mathlib
import TemplateExpr.Number.Integer
import TemplateExpr.Number.Layout
import TemplateExpr.Number.Numeral
import TemplateExpr.Proofs.Number.Digits
import TemplateExpr.Proofs.Number.Shortest

/-!
# Numerals without an exponent

Integers and floats are written in JSON as plain numerals: a sign where they are negative, digits
without a zero in front of others, and possibly a point with more digits behind it. Reading the
digits as a decimal gives the number back, for an integer (`integerText_plain`) and for every finite
float (`render_plain`).
-/

namespace TemplateExpr.Number

def plainText (whole fraction : List Char) : List Char :=
  whole ++ if fraction = [] then [] else '.' :: fraction

structure Plain (whole fraction : List Char) : Prop where
  whole_digits : ∀ c ∈ whole, c.isDigit = true
  fraction_digits : ∀ c ∈ fraction, c.isDigit = true
  whole_ne_nil : whole ≠ []
  canonical : whole = ['0'] ∨ whole.head? ≠ some '0'

def plainFloat (negative : Bool) (whole fraction : List Char) : Float :=
  ofDecimal negative (digitsValue (whole ++ fraction)) (-(fraction.length : Int))

theorem neg_ofDecimal (mantissa : Nat) (exponent : Int) :
    -ofDecimal false mantissa exponent = ofDecimal true mantissa exponent := by
  rw [ofDecimal_eq, ofDecimal_eq, ofRatio, ofRatio, neg_ofMagnitude (magnitudeBits_le _ _)]
  rfl

theorem beq_ofDecimal (negative : Bool) (mantissa : Nat) (exponent : Int) :
    (ofDecimal negative mantissa exponent == ofDecimal negative mantissa exponent) = true := by
  rw [ofDecimal_eq, ofRatio, beq_ofMagnitude (magnitudeBits_le _ _)]

theorem plainFloat_whole (negative : Bool) (digits : List Char) :
    plainFloat negative digits [] = ofRatio negative (digitsValue digits) 1 := by
  rw [plainFloat, ofDecimal_eq, List.append_nil]
  show ofRatio negative (digitsValue digits * tenTo 0) (tenTo 0) = _
  rw [tenTo_zero, Nat.mul_one]

def signedValue (negative : Bool) (digits : List Char) : Int :=
  if negative then -(digitsValue digits : Int) else digitsValue digits

/-- A whole number and the numeral of it are the same float, up to the sign of zero. -/
theorem ofWord_eq {n : Int64} {negative : Bool} {digits : List Char}
    (h : n.toInt = signedValue negative digits) :
    (ofWord n == plainFloat negative digits []) = true := by
  have hsame :=
    beq_ofDecimal negative (digitsValue (digits ++ [])) (-(([] : List Char).length : Int))
  rw [← plainFloat, plainFloat_whole] at hsame
  rw [plainFloat_whole, ofWord, ofInt, h]
  unfold signedValue
  by_cases hzero : digitsValue digits = 0
  · rw [hzero]
    cases negative <;> decide
  · cases negative with
    | false =>
      rw [if_neg (by simp), decide_eq_false (by omega), Int.natAbs_natCast]
      exact hsame
    | true =>
      rw [if_pos rfl, decide_eq_true (by omega), Int.natAbs_neg, Int.natAbs_natCast]
      exact hsame

/-! ## Integers of 64 bits -/

theorem toInt_ofInt {n : Int} (h : minInt ≤ n ∧ n ≤ maxInt) : (Int64.ofInt n).toInt = n := by
  obtain ⟨hlow, hhigh⟩ := h
  unfold minInt at hlow
  unfold maxInt at hhigh
  exact Int64.toInt_ofInt_of_le (by omega) (by omega)

theorem toWord?_eq_some {n : Int} {word : Int64} (h : toWord? n = some word) : word.toInt = n := by
  obtain ⟨hrange, heq⟩ := Option.ite_none_right_eq_some.mp h
  rw [← Option.some.inj heq, toInt_ofInt hrange]

/-! ## Reading -/

theorem spanDigits_append {digits rest : List Char} (h : ∀ c ∈ digits, c.isDigit = true)
    (hrest : ∀ c, rest.head? = some c → c.isDigit = false) :
    spanDigits (digits ++ rest) = (digits, rest) := by
  have hnone : rest.takeWhile Char.isDigit = [] ∧ rest.dropWhile Char.isDigit = rest := by
    cases rest with
    | nil => exact ⟨rfl, rfl⟩
    | cons c rest =>
      rw [List.takeWhile_cons, List.dropWhile_cons, hrest c rfl]
      exact ⟨rfl, rfl⟩
  rw [spanDigits, List.takeWhile_append_of_pos h, List.dropWhile_append_of_pos h, hnone.1, hnone.2,
    List.append_nil]

theorem Plain.starts {whole fraction : List Char} (h : Plain whole fraction) :
    ∃ first tail, plainText whole fraction = first :: tail ∧ first.isDigit = true := by
  cases whole with
  | nil => exact absurd rfl h.whole_ne_nil
  | cons first whole => exact ⟨first, _, rfl, h.whole_digits first List.mem_cons_self⟩

theorem spanSign_of_isDigit {first : Char} (h : first.isDigit = true) (tail : List Char) :
    spanSign (first :: tail) = (false, first :: tail) := by
  unfold spanSign
  split
  · next heq =>
    cases heq
    cases h
  · next heq =>
    cases heq
    cases h
  · rfl

/-- **Reading a plain numeral rounds it.** -/
theorem readFloat?_plain {whole fraction : List Char} (h : Plain whole fraction) :
    readFloat? (plainText whole fraction) = some (plainFloat false whole fraction) := by
  obtain ⟨first, tail, hfirst, hdigit⟩ := h.starts
  have hread : readUnsigned? false (plainText whole fraction) =
      some (plainFloat false whole fraction) := by
    unfold readUnsigned? plainText
    by_cases hfraction : fraction = []
    · rw [if_pos hfraction, spanDigits_append h.whole_digits (by simp), hfraction]
      simp [h.whole_ne_nil, readExponent?, plainFloat]
    · rw [if_neg hfraction, spanDigits_append h.whole_digits (by rintro c ⟨⟩; rfl)]
      have hall : spanDigits (fraction ++ []) = (fraction, []) :=
        spanDigits_append h.fraction_digits (by simp)
      rw [List.append_nil] at hall
      simp [h.whole_ne_nil, hall, readExponent?, plainFloat]
  unfold readFloat?
  rw [hfirst, spanSign_of_isDigit hdigit, ← hfirst]
  simp only [hread]

/-! ## Digits around a point -/

theorem isDigit_of_mem_toDigits {n : Nat} {c : Char} (h : c ∈ Nat.toDigits 10 n) :
    c.isDigit = true :=
  Nat.isDigit_of_mem_toDigits (by decide) (by decide) h

theorem isDigit_of_mem_replicate {count : Nat} {c : Char} (h : c ∈ List.replicate count '0') :
    c.isDigit = true := by
  rw [List.eq_of_mem_replicate h]
  rfl

theorem plain_toDigits (n : Nat) : Plain (Nat.toDigits 10 n) [] where
  whole_digits _ := isDigit_of_mem_toDigits
  fraction_digits _ h := by cases h
  whole_ne_nil := Nat.toDigits_ne_nil
  canonical := by
    rcases Nat.eq_zero_or_pos n with rfl | hpos
    · exact .inl rfl
    · exact .inr (head?_toDigits hpos)

def IsPlain (text digits : List Char) (exponent : Int) : Prop :=
  ∃ whole fraction, text = plainText whole fraction ∧ Plain whole fraction ∧
    (digitsValue (whole ++ fraction) : ℚ) * 10 ^ (-(fraction.length : Int)) =
      digitsValue digits * 10 ^ exponent

section

variable {digits : List Char} (hall : ∀ c ∈ digits, c.isDigit = true)

include hall

theorem isPlain_zeros_behind (hhead : digits.head? ≠ some '0') (hne : digits ≠ []) (zeros : Nat) :
    IsPlain (digits ++ List.replicate zeros '0') digits zeros := by
  refine ⟨digits ++ List.replicate zeros '0', [], ?_, ⟨?_, ?_, ?_, ?_⟩, ?_⟩
  · rw [plainText, if_pos rfl, List.append_nil]
  · intro c hc
    rcases List.mem_append.mp hc with hc | hc
    · exact hall c hc
    · exact isDigit_of_mem_replicate hc
  · exact fun _ h => nomatch h
  · simp [hne]
  · rw [List.head?_append_of_ne_nil _ hne]
    exact .inr hhead
  · rw [List.append_nil, digitsValue_append, digitsValue_replicate_zero, List.length_replicate,
      zpow_natCast]
    simp [mul_comm]

theorem isPlain_point_inside (hhead : digits.head? ≠ some '0') {places : Nat} (hpos : 0 < places)
    (hplaces : places < digits.length) :
    IsPlain (digits.take (digits.length - places) ++ '.' :: digits.drop (digits.length - places))
      digits (-places) := by
  refine ⟨digits.take (digits.length - places), digits.drop (digits.length - places), ?_,
    ⟨fun c hc => hall c (List.mem_of_mem_take hc), fun c hc => hall c (List.mem_of_mem_drop hc),
      ?_, ?_⟩, ?_⟩
  · rw [plainText, if_neg]
    rw [List.drop_eq_nil_iff]
    omega
  · rw [Ne, List.take_eq_nil_iff, not_or]
    exact ⟨by omega, List.ne_nil_of_length_pos (by omega)⟩
  · rw [List.head?_take, if_neg (by omega)]
    exact .inr hhead
  · rw [List.take_append_drop, List.length_drop]
    congr 3
    omega

theorem isPlain_zeros_before (hne : digits ≠ []) {places : Nat} (hplaces : digits.length ≤ places) :
    IsPlain ('0' :: '.' :: (List.replicate (places - digits.length) '0' ++ digits)) digits
      (-places) := by
  refine ⟨['0'], List.replicate (places - digits.length) '0' ++ digits, ?_,
    ⟨?_, ?_, ?_, ?_⟩, ?_⟩
  · rw [plainText, if_neg (by simp [hne]), List.singleton_append]
  · simp
  · intro c hc
    rcases List.mem_append.mp hc with hc | hc
    · exact isDigit_of_mem_replicate hc
    · exact hall c hc
  · decide
  · exact .inl rfl
  · have hzero : digitsValue ['0'] = 0 := rfl
    rw [digitsValue_append, digitsValue_append, digitsValue_replicate_zero, hzero,
      List.length_append, List.length_replicate]
    congr 1
    · simp
    · congr 2
      omega

end

/-- **Digits around a point are a plain numeral of the same value.** -/
theorem positionalText_plain {mantissa : Nat} (hpos : 0 < mantissa) (exponent : Int) :
    IsPlain (positionalText (Nat.toDigits 10 mantissa) exponent) (Nat.toDigits 10 mantissa)
      exponent := by
  have hne := Nat.toDigits_ne_nil (n := mantissa) (b := 10)
  have hhead := head?_toDigits hpos
  have hall : ∀ c ∈ Nat.toDigits 10 mantissa, c.isDigit = true := fun _ => isDigit_of_mem_toDigits
  unfold positionalText
  split
  case isTrue hexponent =>
    obtain ⟨zeros, rfl⟩ := Int.eq_ofNat_of_zero_le hexponent
    exact isPlain_zeros_behind hall hhead hne zeros
  case isFalse hexponent =>
    obtain ⟨places, rfl, hplaces⟩ : ∃ places : Nat, exponent = -(places : Int) ∧ 0 < places :=
      ⟨(-exponent).toNat, by omega, by omega⟩
    rw [neg_neg, Int.toNat_natCast]
    dsimp only
    split
    case isTrue hinside => exact isPlain_point_inside hall hhead hplaces hinside
    case isFalse hbefore => exact isPlain_zeros_before hall hne (not_lt.mp hbefore)

/-- **Every finite float is written as a plain numeral that reads back.** Reading it without its
sign gives the float without its sign. -/
theorem render_plain {x : Float} (h : isFinite x = true) :
    ∃ negative whole fraction magnitude,
      plainLayout.render x = (if negative then ['-'] else []) ++ plainText whole fraction ∧
        Plain whole fraction ∧ magnitude ≤ 2047 * 2 ^ 52 ∧ x = ofMagnitude negative magnitude ∧
          ∀ sign, plainFloat sign whole fraction = ofMagnitude sign magnitude := by
  unfold isFinite at h
  split at h
  case h_1 negative mantissa exponent hparts =>
    obtain ⟨hcanonical, hx⟩ := ofMagnitude_of_parts hparts
    unfold NumberLayout.render
    rw [hparts]
    dsimp only
    split
    · next hzero =>
      refine ⟨negative, ['0'], [], 0, ?_, plain_toDigits 0, Nat.zero_le _, ?_, fun sign => rfl⟩
      · cases negative <;> rfl
      · rw [← hx]
        unfold Canonical at hcanonical
        congr 1
        unfold magnitude
        omega
    · next hmantissa =>
      have hpos := shortestDigits_pos hcanonical (Nat.pos_of_ne_zero hmantissa)
      obtain ⟨whole, fraction, htext, hplain, hvalue⟩ :=
        positionalText_plain hpos (shortestDigits mantissa exponent).exponent
      refine ⟨negative, whole, fraction, magnitude mantissa exponent, ?_, hplain,
        (magnitude_lt hcanonical).le, hx.symm, ?_⟩
      · rw [show plainLayout.positional _ = true from rfl, if_pos rfl, htext]
      · intro sign
        rw [plainFloat, ofDecimal_congr sign hvalue, digitsValue_toDigits,
          shortestDigits_reads hcanonical]
  case h_2 => cases h

/-- **Every integer is written as a plain numeral that reads back.** -/
theorem integerText_plain (n : Int) :
    integerText n = (if n < 0 then ['-'] else []) ++ plainText (Nat.toDigits 10 n.natAbs) [] := by
  rw [integerText, plainText, if_pos rfl, List.append_nil]

end TemplateExpr.Number

import Mathlib
import TemplateExpr.Text.Blank
import TemplateExpr.Text.Escape

/-!
# Characters by their code

Four hexadecimal digits, in either case, are the code of a character, unless they are half a pair
(`HexCode`). The code of a control character has four such digits, and reading them gives the
character back (`unicodeEscape?_hexCode`).
-/

namespace TemplateExpr.Text

/-! ## Hexadecimal digits -/

def HexDigit (c : Char) (value : Nat) : Prop :=
  "0123456789abcdef".toList[value]? = some c ∨ "0123456789ABCDEF".toList[value]? = some c

inductive HexCode : List Char → Nat → Prop
  | quad {a b c d : Char} {i j k l : Nat} (first : HexDigit a i) (second : HexDigit b j)
      (third : HexDigit c k) (fourth : HexDigit d l) :
      HexCode [a, b, c, d] (i * 16 ^ 3 + j * 16 ^ 2 + k * 16 + l)

theorem HexDigit.lt {c : Char} {value : Nat} (h : HexDigit c value) : value < 16 := by
  rcases h with h | h <;> exact (List.getElem?_eq_some_iff.mp h).1

theorem hexDigit?_eq_some {c : Char} {value : Nat} :
    hexDigit? c = some value ↔ HexDigit c value := by
  constructor
  · intro h
    -- The digits are among the first characters, which can be looked through.
    have hcode : c.toNat < 103 := by
      unfold hexDigit? at h
      split at h
      · next hrange => exact lt_of_le_of_lt (show c.toNat ≤ '9'.toNat from hrange.2) (by decide)
      split at h
      · next hrange => exact lt_of_le_of_lt (show c.toNat ≤ 'f'.toNat from hrange.2) (by decide)
      split at h
      · next hrange => exact lt_of_le_of_lt (show c.toNat ≤ 'F'.toNat from hrange.2) (by decide)
      · cases h
    have hall : ∀ code < 103, ∀ value ∈ hexDigit? (Char.ofNat code),
        HexDigit (Char.ofNat code) value := by
      unfold HexDigit
      decide
    have hc := hall c.toNat hcode value
    rw [Char.ofNat_toNat] at hc
    exact hc h
  · intro h
    have hvalue := h.lt
    interval_cases value <;> rcases h with h | h <;> cases h <;> rfl

namespace HexCode

variable {digits : List Char} {code : Nat}

theorem length (h : HexCode digits code) : digits.length = 4 := by
  cases h
  rfl

theorem lt (h : HexCode digits code) : code < 0x10000 := by
  cases h with
  | quad first second third fourth =>
    have hfirst := first.lt
    have hsecond := second.lt
    have hthird := third.lt
    have hfourth := fourth.lt
    omega

theorem hexQuad? (h : HexCode digits code) (rest : List Char) :
    Text.hexQuad? (digits ++ rest) = some code := by
  cases h with
  | quad first second third fourth =>
    rw [← hexDigit?_eq_some] at first second third fourth
    simp only [List.cons_append, List.nil_append, Text.hexQuad?, first, second, third, fourth,
      Option.bind_eq_bind, Option.bind_some]
    exact congrArg some (by ring)

end HexCode

theorem hexCode_of_hexQuad? {text : List Char} {code : Nat} (h : hexQuad? text = some code) :
    ∃ digits rest, text = digits ++ rest ∧ HexCode digits code := by
  match text, h with
  | a :: b :: c :: d :: rest, h =>
    obtain ⟨i, hi, h⟩ := Option.bind_eq_some_iff.mp h
    obtain ⟨j, hj, h⟩ := Option.bind_eq_some_iff.mp h
    obtain ⟨k, hk, h⟩ := Option.bind_eq_some_iff.mp h
    obtain ⟨l, hl, h⟩ := Option.bind_eq_some_iff.mp h
    rw [hexDigit?_eq_some] at hi hj hk hl
    obtain rfl := Option.some.inj h
    refine ⟨[a, b, c, d], rest, rfl, ?_⟩
    rw [show ((i * 16 + j) * 16 + k) * 16 + l = i * 16 ^ 3 + j * 16 ^ 2 + k * 16 + l by ring]
    exact .quad hi hj hk hl

/-! ## Codes of characters -/

theorem not_surrogate_toNat (c : Char) :
    isHighSurrogate c.toNat = false ∧ isLowSurrogate c.toNat = false := by
  have hvalid : c.toNat.isValidChar := c.valid
  unfold Nat.isValidChar at hvalid
  simp only [isHighSurrogate, isLowSurrogate, Bool.and_eq_false_iff, decide_eq_false_iff_not]
  omega

theorem toNat_ofNat_of_not_surrogate {code : Nat} (h : code < 0x110000)
    (hhigh : isHighSurrogate code = false) (hlow : isLowSurrogate code = false) :
    (Char.ofNat code).toNat = code := by
  simp only [isHighSurrogate, isLowSurrogate, Bool.and_eq_false_iff, decide_eq_false_iff_not]
    at hhigh hlow
  have hvalid : code.isValidChar := by
    unfold Nat.isValidChar
    omega
  rw [Char.toNat_ofNat, if_pos hvalid]

theorem unicodeEscape?_of_hexQuad? {text : List Char} {c : Char}
    (h : hexQuad? text = some c.toNat) : unicodeEscape? text = some (c, 4) := by
  obtain ⟨hhigh, hlow⟩ := not_surrogate_toNat c
  rw [unicodeEscape?, h, Option.bind_eq_bind, Option.bind_some, if_neg (by simp [hhigh]),
    if_neg (by simp [hlow]), Char.ofNat_toNat]

/-! ## Control characters -/

/-- There are few control characters, so they can be looked through. -/
theorem lt_of_isControl {c : Char} (h : isControl c = true) : c.toNat < 160 := by
  simp only [isControl, Bool.or_eq_true, Bool.and_eq_true, decide_eq_true_eq] at h
  omega

theorem hexCode_hexCode {c : Char} (h : isControl c = true) : HexCode (hexCode c) c.toNat := by
  have hall : (List.range 160).all (fun code =>
      (hexCode (Char.ofNat code)).length == 4 &&
        hexQuad? (hexCode (Char.ofNat code)) == some code) = true := by decide
  have hcode := List.all_eq_true.mp hall c.toNat (List.mem_range.mpr (lt_of_isControl h))
  rw [Char.ofNat_toNat, Bool.and_eq_true, beq_iff_eq, beq_iff_eq] at hcode
  obtain ⟨hlength, hquad⟩ := hcode
  obtain ⟨digits, rest, htext, hdigits⟩ := hexCode_of_hexQuad? hquad
  have hrest : rest = [] := by
    have hcount := congrArg List.length htext
    rw [hlength, List.length_append, hdigits.length] at hcount
    exact List.length_eq_zero_iff.mp (by omega)
  rwa [htext, hrest, List.append_nil]

/-- **The code of a control character is read back.** -/
theorem unicodeEscape?_hexCode {c : Char} (h : isControl c = true) (rest : List Char) :
    unicodeEscape? (hexCode c ++ rest) = some (c, 4) :=
  unicodeEscape?_of_hexQuad? ((hexCode_hexCode h).hexQuad? rest)

end TemplateExpr.Text

import Mathlib
import TemplateExpr.Proofs.Token.Longest

/-!
# Words at the front of a text

A name, a numeral and an operator are tokens wherever they stand, if what follows does not go on
with them: after a name or a numeral no part of a word and no point (`Joint`), after an operator no
character of an operator. So a text that is put together of such words and of symbols has the tokens
that it was put together of.
-/

namespace TemplateExpr

open Text Number

/-! ## First characters -/

theorem not_isBlank_of_isNamePart {c : Char} (h : isNamePart c = true) : isBlank c = false := by
  by_contra hnot
  have hblank : inRanges blankRanges c.toNat = true := eq_true_of_ne_false hnot
  obtain ⟨range, hrange, hlow, hhigh⟩ := (inRanges_iff (by decide +kernel) c.toNat).mp hblank
  have hall : ∀ range ∈ blankRanges, ∀ code ∈ List.range' range.1 (range.2 - range.1 + 1),
      isNamePart (Char.ofNat code) = false := by decide +kernel
  have hpart := hall range hrange c.toNat (List.mem_range'_1.mpr ⟨hlow, by omega⟩)
  rw [Char.ofNat_toNat, h] at hpart
  cases hpart

theorem not_isBlank_of_isDigit {c : Char} (h : c.isDigit = true) : isBlank c = false := by
  obtain ⟨hlow, hhigh⟩ := Char.isDigit_iff_toNat.mp h
  have hall : ∀ code ≤ 57, 48 ≤ code → inRanges blankRanges code = false := by decide
  exact hall c.toNat hhigh hlow

theorem not_isDigit_of_isNameStart {c : Char} (h : isNameStart c = true) : c.isDigit = false := by
  by_contra hnot
  obtain ⟨hlow, hhigh⟩ := Char.isDigit_iff_toNat.mp (eq_true_of_ne_false hnot)
  have hall : ∀ code ≤ 57, 48 ≤ code → isNameStart (Char.ofNat code) = false := by decide
  have hstart := hall c.toNat hhigh hlow
  rw [Char.ofNat_toNat, h] at hstart
  cases hstart

/-- What starts a name is no sign, no quote and no part of an operator. -/
theorem not_mem_of_isNameStart {c : Char} (h : isNameStart c = true) :
    c ∉ '\'' :: '"' :: structuralSymbols ∧ ∀ op ∈ operators, c ∉ op.toList := by
  have hall : ('\'' :: '"' :: structuralSymbols ++ operators.flatMap String.toList).all
      (fun c => !isNameStart c) = true := by decide
  have hno : c ∉ '\'' :: '"' :: structuralSymbols ++ operators.flatMap String.toList := by
    intro hmem
    have hstart := List.all_eq_true.mp hall c hmem
    rw [h] at hstart
    cases hstart
  rw [List.mem_append, not_or, List.mem_flatMap] at hno
  refine ⟨hno.1, ?_⟩
  intro op hop hmem
  exact hno.2 ⟨op, hop, hmem⟩

theorem operator_starts {op : String} (h : op ∈ operators) :
    ∃ first tail, op.toList = first :: tail ∧ isBlank first = false ∧ first.isDigit = false ∧
      isNameStart first = false ∧ first ∉ '\'' :: '"' :: structuralSymbols := by
  have hall : operators.all (fun op => op.toList.head?.any fun first =>
      !isBlank first && !first.isDigit && !isNameStart first &&
        !('\'' :: '"' :: structuralSymbols).contains first) = true := by decide
  have hop := List.all_eq_true.mp hall op h
  cases hsome : op.toList with
  | nil =>
    rw [hsome] at hop
    cases hop
  | cons first tail =>
    rw [hsome] at hop
    simp only [List.head?_cons, Option.any_some, Bool.and_eq_true, Bool.not_eq_true'] at hop
    obtain ⟨⟨⟨hblank, hdigit⟩, hname⟩, hsign⟩ := hop
    refine ⟨first, tail, rfl, hblank, hdigit, hname, ?_⟩
    intro hmem
    rw [List.contains_iff_mem.mpr hmem] at hsign
    cases hsign

/-! ## Names and operators -/

namespace Cursor

variable {rest : List Char}

theorem passes_name {name : String} (h : IsName name.toList) (hrest : Joint rest) (offset : Nat) :
    Passes ⟨name.toList ++ rest, offset⟩ [⟨name, .identifier, offset⟩]
      ⟨rest, offset + name.toList.length⟩ := by
  have hall := h.all
  obtain ⟨first, tail, hname, hstart, -⟩ := h
  obtain ⟨hsign, -⟩ := not_mem_of_isNameStart hstart
  simp only [List.mem_cons, not_or] at hsign
  obtain ⟨hsingle, hdouble, hsymbol⟩ := hsign
  have hpoint : first ≠ '.' := by
    rintro rfl
    exact hsymbol (by decide)
  have hnumeral : startsNumeral (name.toList ++ rest) = false := by
    rw [hname, List.cons_append, startsNumeral_cons hpoint, not_isDigit_of_isNameStart hstart]
  have htake : (name.toList ++ rest).takeWhile isNamePart = name.toList := by
    rw [List.takeWhile_append_of_pos hall, hrest.takeWhile_isNamePart, List.append_nil]
  apply passes_token (by rw [hname]; rfl)
  · exact not_isBlank_of_isNamePart (isNamePart_of_isNameStart hstart)
  · rw [nextToken, if_neg (by simp [hnumeral]), if_neg (by tauto), if_neg hsymbol, if_pos hstart,
      nextName, htake, take, skip, List.take_left, List.drop_left, String.ofList_toList]

theorem passes_operator {op : String} (h : op ∈ operators)
    (hrest : ∀ c, rest.head? = some c → ∀ op ∈ operators, c ∉ op.toList) (offset : Nat) :
    Passes ⟨op.toList ++ rest, offset⟩ [⟨op, .symbol, offset⟩]
      ⟨rest, offset + op.toList.length⟩ := by
  obtain ⟨first, tail, hop, hblank, hdigit, hname, hsign⟩ := operator_starts h
  simp only [List.mem_cons, not_or] at hsign
  obtain ⟨hsingle, hdouble, hsymbol⟩ := hsign
  have hpoint : first ≠ '.' := by
    rintro rfl
    exact hsymbol (by decide)
  have hnumeral : startsNumeral (op.toList ++ rest) = false := by
    rw [hop, List.cons_append, startsNumeral_cons hpoint, hdigit]
  have hlongest : operatorAt? (op.toList ++ rest) = some op := by
    have hall : operators.all (fun op => operatorAt? op.toList == some op) = true := by
      decide +kernel
    rw [operatorAt?_seam hrest]
    exact beq_iff_eq.mp (List.all_eq_true.mp hall op h)
  apply passes_token (by rw [hop]; rfl) hblank
  rw [nextToken, if_neg (by simp [hnumeral]), if_neg (by tauto), if_neg hsymbol,
    if_neg (by simp [hname])]
  simp only [nextOperator, hlongest, take, skip, List.take_left, List.drop_left,
    String.ofList_toList]

theorem passes_point {c : Char} (h : c.isDigit = false) (offset : Nat) :
    Passes ⟨'.' :: c :: rest, offset⟩ [⟨".", .symbol, offset⟩] ⟨c :: rest, offset + 1⟩ := by
  apply passes_token rfl (by decide)
  have hnumeral : startsNumeral ('.' :: c :: rest) = false := h
  rw [nextToken, if_neg (by simp [hnumeral]), if_neg (by decide), if_pos (by decide)]
  rfl

end Cursor

/-! ## Numerals -/

section

variable {word mantissa exponent rest : List Char}

theorem spanMantissa_append (h : IsMantissa mantissa)
    (hrest : ∀ c, rest.head? = some c → c.isDigit = false ∧ c ≠ '.') :
    spanMantissa (mantissa ++ rest) = (mantissa, rest) := by
  have hdigit : ∀ c, rest.head? = some c → c.isDigit = false := fun c hc => (hrest c hc).1
  cases h with
  | whole hdigits =>
    unfold spanMantissa
    rw [spanDigits_append hdigits hdigit]
    dsimp only
    split
    · next after => exact absurd rfl (hrest '.' rfl).2
    · rfl
  | @point whole fraction hwhole hfraction =>
    unfold spanMantissa
    rw [List.append_assoc, List.cons_append, spanDigits_append hwhole (by rintro c ⟨⟩; rfl)]
    show (whole ++ '.' :: (spanDigits (fraction ++ rest)).1, (spanDigits (fraction ++ rest)).2) = _
    rw [spanDigits_append hfraction hdigit]

theorem spanExponent?_append (h : IsExponent exponent) (hrest : Joint rest) :
    spanExponent? (exponent ++ rest) = some (exponent, rest) := by
  cases h with
  | none => exact hrest.spanExponent?
  | @some letter sign digits hletter hsign hdigits hsome =>
    have hspan := spanDigits_append hdigits hrest.not_isDigit
    obtain ⟨first, tail, rfl⟩ := List.exists_cons_of_ne_nil hsome
    have hfirst : ¬(first = '+' ∨ first = '-') := by
      have hdigit := hdigits first List.mem_cons_self
      rintro (rfl | rfl) <;> cases hdigit
    unfold spanExponent?
    rcases hsign with rfl | rfl | rfl
    all_goals
      rw [List.cons_append] at hspan
      simp [hletter, hfirst, hspan]

theorem head?_exponent (h : IsExponent exponent) (hrest : Joint rest) :
    ∀ c, (exponent ++ rest).head? = some c → c.isDigit = false ∧ c ≠ '.' := by
  intro c hc
  cases h with
  | none => exact ⟨hrest.not_isDigit c hc, (hrest c hc).2⟩
  | some hletter =>
    cases hc
    rcases hletter with rfl | rfl <;> decide

theorem IsMantissa.starts (h : IsMantissa mantissa) (rest : List Char) :
    ∃ first tail, mantissa ++ rest = first :: tail ∧ isBlank first = false ∧
      Cursor.startsNumeral (first :: tail) = true := by
  have hdigits : ∀ digits more : List Char, digits ≠ [] → (∀ c ∈ digits, c.isDigit = true) →
      ∃ first tail, digits ++ more = first :: tail ∧ isBlank first = false ∧
        Cursor.startsNumeral (first :: tail) = true := by
    intro digits more hsome hall
    obtain ⟨first, tail, rfl⟩ := List.exists_cons_of_ne_nil hsome
    have hdigit := hall first List.mem_cons_self
    refine ⟨first, tail ++ more, rfl, not_isBlank_of_isDigit hdigit, ?_⟩
    rw [Cursor.startsNumeral_cons, hdigit]
    rintro rfl
    cases hdigit
  cases h with
  | whole hall hsome => exact hdigits _ rest hsome hall
  | @point whole fraction hwhole hfraction hsome =>
    by_cases hnone : whole = []
    · subst hnone
      obtain ⟨first, tail, rfl⟩ := List.exists_cons_of_ne_nil (hsome.resolve_left (by simp))
      exact ⟨'.', first :: (tail ++ rest), rfl, by decide,
        hfraction first List.mem_cons_self⟩
    · rw [List.append_assoc]
      exact hdigits whole _ hnone hwhole

theorem Cursor.passes_numeral (h : IsNumeral word) (hrest : Joint rest) {value : Literal}
    (hvalue : numeralValue? word = some value) (offset : Nat) :
    Passes ⟨word ++ rest, offset⟩ [⟨String.ofList word, .constant value, offset⟩]
      ⟨rest, offset + word.length⟩ := by
  obtain ⟨mantissa, exponent, rfl, hmantissa, hexponent⟩ := h
  have hspan := spanMantissa_append hmantissa (head?_exponent hexponent hrest)
  have hspan' := spanExponent?_append hexponent hrest
  obtain ⟨first, tail, htext, hblank, hnumeral⟩ := hmantissa.starts (exponent ++ rest)
  rw [List.append_assoc]
  apply passes_token htext hblank
  rw [nextToken, if_pos (by rw [htext]; exact hnumeral)]
  simp only [nextNumber, hspan, hspan', hvalue]
  rw [← List.append_assoc, take, skip, List.take_left, List.drop_left]

end

section

variable {whole fraction : List Char}

theorem Number.Plain.isNumeral (h : Plain whole fraction) :
    IsNumeral (plainText whole fraction) := by
  refine ⟨plainText whole fraction, [], (List.append_nil _).symm, ?_, .none⟩
  unfold plainText
  by_cases hfraction : fraction = []
  · rw [if_pos hfraction, List.append_nil]
    exact .whole h.whole_digits h.whole_ne_nil
  · rw [if_neg hfraction]
    exact .point h.whole_digits h.fraction_digits (.inl h.whole_ne_nil)

theorem numeralValue?_plain (h : Plain whole fraction) :
    numeralValue? (plainText whole fraction) = some (.float (plainFloat false whole fraction)) ∨
      ∃ n : Int64, numeralValue? (plainText whole fraction) = some (.integer n) ∧ fraction = [] ∧
        n.toInt = signedValue false whole := by
  have hread := readFloat?_plain h
  unfold numeralValue?
  split
  case isFalse => exact .inl (by rw [hread]; rfl)
  case isTrue hall =>
    have hfraction : fraction = [] := by
      by_contra hne
      rw [plainText, if_neg hne, List.all_append] at hall
      simp at hall
    subst hfraction
    rw [plainText, if_pos rfl, List.append_nil] at hread ⊢
    cases hword : toWord? (digitsValue whole : Int) with
    | none => exact .inl (by rw [hread]; rfl)
    | some n => exact .inr ⟨n, rfl, rfl, toWord?_eq_some hword⟩

end

end TemplateExpr

import Mathlib
import TemplateExpr.Proofs.Token.Seam
import TemplateExpr.Proofs.Token.Spelling

/-!
# The longest word of a class

What a name, a symbol and a numeral are can be said without a scanner, as a condition on characters.
At one place of a source several words of a class may stand, each the start of the next: `=`, `==`
and `===`, or `1`, `1.` and `1.5e3`. The scanners take the longest one (`Longest`).
-/

namespace TemplateExpr

open Text Number

/-! ## Classes of words -/

def IsName (word : List Char) : Prop :=
  ∃ first rest, word = first :: rest ∧ isNameStart first = true ∧
    ∀ c ∈ rest, isNamePart c = true

theorem isName_cons {first : Char} {rest : List Char} :
    IsName (first :: rest) ↔ isNameStart first = true ∧ rest.all isNamePart = true := by
  rw [List.all_eq_true]
  constructor
  · rintro ⟨_, _, hword, hstart, hparts⟩
    cases hword
    exact ⟨hstart, hparts⟩
  · rintro ⟨hstart, hparts⟩
    exact ⟨first, rest, rfl, hstart, hparts⟩

instance : DecidablePred IsName
  | [] => .isFalse (by rintro ⟨_, _, hword, _⟩; cases hword)
  | _ :: _ => decidable_of_iff _ isName_cons.symm

def IsSymbol (word : List Char) : Prop := ∃ text ∈ symbolTexts, word = text.toList

inductive IsMantissa : List Char → Prop
  | whole {digits : List Char} (h : ∀ c ∈ digits, c.isDigit = true) (hsome : digits ≠ []) :
    IsMantissa digits
  | point {whole fraction : List Char} (h : ∀ c ∈ whole, c.isDigit = true)
    (h' : ∀ c ∈ fraction, c.isDigit = true) (hsome : whole ≠ [] ∨ fraction ≠ []) :
    IsMantissa (whole ++ '.' :: fraction)

inductive IsExponent : List Char → Prop
  | none : IsExponent []
  | some {letter : Char} {sign digits : List Char} (hletter : letter = 'e' ∨ letter = 'E')
    (hsign : sign = [] ∨ sign = ['+'] ∨ sign = ['-']) (h : ∀ c ∈ digits, c.isDigit = true)
    (hsome : digits ≠ []) : IsExponent (letter :: sign ++ digits)

def IsNumeral (word : List Char) : Prop :=
  ∃ mantissa exponent, word = mantissa ++ exponent ∧ IsMantissa mantissa ∧ IsExponent exponent

structure Longest (Class : List Char → Prop) (word text : List Char) : Prop where
  isWord : Class word
  stands : word <+: text
  greatest : ∀ other, Class other → other <+: text → other.length ≤ word.length

/-! ## Stretches of one kind of character -/

section

variable {p : Char → Bool} {word more text : List Char} {c : Char}

theorem length_le_takeWhile (hword : ∀ c ∈ word, p c = true) (h : word <+: text) :
    word.length ≤ (text.takeWhile p).length := by
  obtain ⟨more, rfl⟩ := h
  rw [List.takeWhile_append_of_pos hword, List.length_append]
  exact Nat.le_add_right _ _

theorem takeWhile_stop (hword : ∀ c ∈ word, p c = true) (hc : p c = false)
    (h : word ++ c :: more <+: text) :
    text.takeWhile p = word ∧ c :: more <+: text.dropWhile p := by
  obtain ⟨behind, rfl⟩ := h
  rw [List.append_assoc, List.takeWhile_append_of_pos hword, List.dropWhile_append_of_pos hword]
  simp [hc]

end

/-! ## Names -/

theorem isNamePart_of_isNameStart {c : Char} (h : isNameStart c = true) : isNamePart c = true := by
  simp only [isNameStart, isNamePart] at h ⊢
  grind

theorem IsName.all {word : List Char} (h : IsName word) : ∀ c ∈ word, isNamePart c = true := by
  obtain ⟨first, rest, rfl, hfirst, hrest⟩ := h
  exact List.forall_mem_cons.mpr ⟨isNamePart_of_isNameStart hfirst, hrest⟩

theorem longest_name {first : Char} {tail : List Char} (hfirst : isNameStart first = true) :
    Longest IsName ((first :: tail).takeWhile isNamePart) (first :: tail) where
  isWord := by
    refine ⟨first, tail.takeWhile isNamePart, ?_, hfirst, fun c hc => List.mem_takeWhile_imp hc⟩
    rw [List.takeWhile_cons, if_pos (isNamePart_of_isNameStart hfirst)]
  stands := List.takeWhile_prefix _
  greatest _ hother hstands := length_le_takeWhile hother.all hstands

/-! ## Symbols -/

theorem isSymbol_cases {word : List Char} (h : IsSymbol word) :
    (∃ sign ∈ structuralSymbols, word = [sign]) ∨ ∃ op ∈ operators, word = op.toList := by
  obtain ⟨text, htext, rfl⟩ := h
  rcases List.mem_append.mp htext with htext | hop
  · obtain ⟨sign, hsign, rfl⟩ := List.mem_map.mp htext
    exact .inl ⟨sign, hsign, String.toList_singleton sign⟩
  · exact .inr ⟨text, hop, rfl⟩

theorem operator_first {op : String} (h : op ∈ operators) :
    ∀ first, op.toList.head? = some first → first ∉ structuralSymbols := by
  have hall : operators.all (fun op => !op.toList.head?.any structuralSymbols.contains) = true := by
    decide
  intro first hfirst hmem
  have hop := List.all_eq_true.mp hall op h
  rw [hfirst] at hop
  simp [hmem] at hop

theorem longest_structural {first : Char} (h : first ∈ structuralSymbols) (tail : List Char) :
    Longest IsSymbol [first] (first :: tail) where
  isWord := ⟨first.toString, List.mem_append_left _ (List.mem_map_of_mem h),
    (String.toList_singleton first).symm⟩
  stands := ⟨tail, rfl⟩
  greatest := by
    intro other hother hstands
    rcases isSymbol_cases hother with ⟨sign, -, rfl⟩ | ⟨op, hop, rfl⟩
    · exact Nat.le_refl 1
    · cases hsome : op.toList with
      | nil => exact Nat.zero_le 1
      | cons c rest =>
        rw [hsome] at hstands
        obtain ⟨rfl, -⟩ := List.cons_prefix_cons.mp hstands
        exact absurd h (operator_first hop c (by rw [hsome]; rfl))

theorem longest_operator {text : List Char} {op : String} (h : operatorAt? text = some op)
    (hfirst : ∀ first, text.head? = some first → first ∉ structuralSymbols) :
    Longest IsSymbol op.toList text where
  isWord := ⟨op, List.mem_append_right _ (List.mem_of_find?_eq_some h), rfl⟩
  stands := List.isPrefixOf_iff_prefix.mp
    (List.find?_some (p := fun op : String => op.toList.isPrefixOf text) h)
  greatest := by
    intro other hother hstands
    rcases isSymbol_cases hother with ⟨sign, hsign, rfl⟩ | ⟨symbol, hop, rfl⟩
    · obtain ⟨behind, rfl⟩ := hstands
      exact absurd hsign (hfirst sign rfl)
    -- The list of operators goes down in length, and those before `op` do not stand there.
    · obtain ⟨-, longer, shorter, hsplit, hlonger⟩ := List.find?_eq_some_iff_append.mp h
      have hdown : operators.Pairwise fun op other => other.toList.length ≤ op.toList.length := by
        decide
      rw [hsplit, List.pairwise_append, List.pairwise_cons] at hdown
      rw [hsplit, List.mem_append, List.mem_cons] at hop
      rcases hop with hmem | rfl | hmem
      · have hnot := hlonger symbol hmem
        rw [List.isPrefixOf_iff_prefix.mpr hstands] at hnot
        cases hnot
      · exact Nat.le_refl _
      · exact hdown.2.1.1 symbol hmem

/-! ## Numerals -/

theorem not_isDigit_point : Char.isDigit '.' = false := by decide

theorem mem_spanDigits {text : List Char} : ∀ c ∈ (spanDigits text).1, c.isDigit = true :=
  fun _ hc => List.mem_takeWhile_imp hc

theorem isMantissa_spanMantissa {text : List Char} (h : Cursor.startsNumeral text = true) :
    IsMantissa (spanMantissa text).1 := by
  have hsome := Cursor.spanMantissa_ne_nil h
  have hdot : ∀ after, text = '.' :: after → (spanDigits after).1 ≠ [] := by
    rintro after rfl
    cases after with
    | nil => cases h
    | cons d rest =>
      have hd : d.isDigit = true := h
      simp [spanDigits, hd]
  have htext := spanDigits_text text
  unfold spanMantissa at hsome ⊢
  dsimp only at hsome ⊢
  split at hsome
  · next after hafter =>
    refine .point mem_spanDigits mem_spanDigits ?_
    by_cases hwhole : (spanDigits text).1 = []
    · rw [hwhole, hafter] at htext
      exact .inr (hdot after htext.symm)
    · exact .inl hwhole
  · exact .whole mem_spanDigits hsome

theorem longest_mantissa {text : List Char} (h : Cursor.startsNumeral text = true) :
    Longest IsMantissa (spanMantissa text).1 text where
  isWord := isMantissa_spanMantissa h
  stands := ⟨_, spanMantissa_text text⟩
  greatest := by
    intro other hother hstands
    cases hother with
    | whole hdigits =>
      have hle := length_le_takeWhile hdigits hstands
      unfold spanMantissa
      dsimp only
      split
      · exact hle.trans (by simp [spanDigits])
      · exact hle
    | point hwhole hfraction =>
      obtain ⟨heq, hrest⟩ := takeWhile_stop hwhole not_isDigit_point hstands
      unfold spanMantissa
      simp only [spanDigits, heq]
      cases hdrop : text.dropWhile Char.isDigit with
      | nil =>
        rw [hdrop] at hrest
        cases List.prefix_nil.mp hrest
      | cons c after =>
        rw [hdrop] at hrest
        obtain ⟨rfl, hafter⟩ := List.cons_prefix_cons.mp hrest
        simpa using length_le_takeWhile hfraction hafter

theorem spanExponent?_letter {c : Char} {after exponent rest : List Char}
    (hletter : c = 'e' ∨ c = 'E') (h : spanExponent? (c :: after) = some (exponent, rest)) :
    ∃ sign unsigned, after = sign ++ unsigned ∧ (sign = [] ∨ sign = ['+'] ∨ sign = ['-']) ∧
      (sign = [] → ∀ s, unsigned.head? = some s → s ≠ '+' ∧ s ≠ '-') ∧
      exponent = c :: sign ++ (spanDigits unsigned).1 ∧ (spanDigits unsigned).1 ≠ [] := by
  have hdigits : ∀ sign unsigned, (if (spanDigits unsigned).1 = [] then none
      else some (c :: sign ++ (spanDigits unsigned).1, (spanDigits unsigned).2)) =
        some (exponent, rest) →
      exponent = c :: sign ++ (spanDigits unsigned).1 ∧ (spanDigits unsigned).1 ≠ [] := by
    intro sign unsigned hspan
    split at hspan
    · cases hspan
    · next hsome =>
      cases hspan
      exact ⟨rfl, hsome⟩
  unfold spanExponent? at h
  dsimp only at h
  rw [if_pos hletter] at h
  cases after with
  | nil => simp [spanDigits] at h
  | cons s more =>
    dsimp only at h
    by_cases hsign : s = '+' ∨ s = '-'
    · simp only [if_pos hsign] at h
      refine ⟨[s], more, rfl, ?_, by simp, hdigits [s] more h⟩
      rcases hsign with rfl | rfl
      · exact .inr (.inl rfl)
      · exact .inr (.inr rfl)
    · simp only [if_neg hsign] at h
      refine ⟨[], s :: more, rfl, .inl rfl, ?_, hdigits [] (s :: more) h⟩
      rintro - _ ⟨⟩
      exact not_or.mp hsign

/-- Only one sign can stand in front of digits. -/
theorem signed_prefix {sign sign' digits unsigned : List Char}
    (hsign : sign = [] ∨ sign = ['+'] ∨ sign = ['-'])
    (hsign' : sign' = [] ∨ sign' = ['+'] ∨ sign' = ['-'])
    (hnone : sign = [] → ∀ s, unsigned.head? = some s → s ≠ '+' ∧ s ≠ '-')
    (hdigits : ∀ c ∈ digits, c.isDigit = true) (hsome : digits ≠ [])
    (h : sign' ++ digits <+: sign ++ unsigned) : sign' = sign ∧ digits <+: unsigned := by
  obtain ⟨d, more, rfl⟩ := List.exists_cons_of_ne_nil hsome
  have hd := hdigits d List.mem_cons_self
  rcases hsign with rfl | rfl | rfl
  · rcases hsign' with rfl | rfl | rfl
    · exact ⟨rfl, h⟩
    all_goals
      obtain ⟨behind, rfl⟩ := h
      have hhead := hnone rfl _ rfl
      simp at hhead
  all_goals
    rcases hsign' with rfl | rfl | rfl
    all_goals
      rw [List.singleton_append] at h
      obtain ⟨heq, hrest⟩ := List.cons_prefix_cons.mp h
  all_goals first
    | exact ⟨rfl, hrest⟩
    | (subst heq; cases hd)
    | cases heq

theorem longest_exponent {text exponent rest : List Char}
    (h : spanExponent? text = some (exponent, rest)) : Longest IsExponent exponent text := by
  have hnothing : (∀ c, text.head? = some c → ¬(c = 'e' ∨ c = 'E')) →
      Longest IsExponent [] text := by
    refine fun hfirst => ⟨.none, List.nil_prefix, fun other hother hstands => ?_⟩
    cases hother with
    | none => exact Nat.le_refl _
    | some hletter =>
      obtain ⟨behind, rfl⟩ := hstands
      exact absurd hletter (hfirst _ rfl)
  cases text with
  | nil =>
    cases h
    exact hnothing (by simp)
  | cons c after =>
    by_cases hletter : c = 'e' ∨ c = 'E'
    case neg =>
      unfold spanExponent? at h
      dsimp only at h
      rw [if_neg hletter] at h
      cases h
      refine hnothing ?_
      rintro _ ⟨⟩
      exact hletter
    case pos =>
      obtain ⟨sign, unsigned, rfl, hsign, hnone, rfl, hsome⟩ := spanExponent?_letter hletter h
      refine ⟨.some hletter hsign mem_spanDigits hsome, ?_, fun other hother hstands => ?_⟩
      · rw [List.cons_append, List.cons_prefix_cons]
        exact ⟨rfl, (List.prefix_append_right_inj sign).mpr ⟨_, spanDigits_text unsigned⟩⟩
      · cases hother with
        | none => exact Nat.zero_le _
        | some hletter' hsign' hdigits hsome' =>
          obtain ⟨-, hstands⟩ := List.cons_prefix_cons.mp hstands
          obtain ⟨rfl, hdigits'⟩ := signed_prefix hsign hsign' hnone hdigits hsome' hstands
          have hle := length_le_takeWhile hdigits hdigits'
          simpa [spanDigits] using hle

theorem IsMantissa.mem {word : List Char} (h : IsMantissa word) :
    ∀ c ∈ word, c.isDigit = true ∨ c = '.' := by
  cases h with
  | whole hdigits => exact fun c hc => .inl (hdigits c hc)
  | point hwhole hfraction =>
    intro c hc
    rcases List.mem_append.mp hc with hc | hc
    · exact .inl (hwhole c hc)
    rcases List.mem_cons.mp hc with rfl | hc
    · exact .inr rfl
    · exact .inl (hfraction c hc)

/-- **A numeral goes as far as it can.** An exponent can only begin where the mantissa ends, for no
mantissa contains its letter. -/
theorem longest_numeral {text exponent rest : List Char}
    (hstarts : Cursor.startsNumeral text = true)
    (h : spanExponent? (spanMantissa text).2 = some (exponent, rest)) :
    Longest IsNumeral ((spanMantissa text).1 ++ exponent) text := by
  have hmantissa := longest_mantissa hstarts
  have hexponent := longest_exponent h
  have htext := spanMantissa_text text
  refine ⟨⟨_, _, rfl, hmantissa.isWord, hexponent.isWord⟩, ?_, ?_⟩
  · obtain ⟨behind, hbehind⟩ := hexponent.stands
    exact ⟨behind, by rw [List.append_assoc, hbehind, htext]⟩
  · rintro _ ⟨mantissa, other, rfl, hother, hotherExponent⟩ hstands
    have hmantissaStands := (List.prefix_append mantissa other).trans hstands
    have hle := hmantissa.greatest mantissa hother hmantissaStands
    rw [List.length_append, List.length_append]
    cases hotherExponent with
    | none => exact hle.trans (Nat.le_add_right _ _)
    | @some letter sign digits hletter hsign hdigits hsome =>
      obtain ⟨more, hmore⟩ :=
        List.prefix_of_prefix_length_le hmantissaStands hmantissa.stands hle
      rw [← htext, ← hmore, List.append_assoc] at hstands
      have hstands := (List.prefix_append_right_inj mantissa).mp hstands
      cases more with
      | nil =>
        rw [List.append_nil] at hmore
        have hlong := hexponent.greatest _ (.some hletter hsign hdigits hsome) hstands
        rw [← hmore]
        exact Nat.add_le_add_left hlong _
      | cons c more =>
        obtain ⟨rfl, -⟩ := List.cons_prefix_cons.mp hstands
        have hmem := hmantissa.isWord.mem letter (by rw [← hmore]; simp)
        rcases hletter with rfl | rfl <;> simp at hmem

end TemplateExpr

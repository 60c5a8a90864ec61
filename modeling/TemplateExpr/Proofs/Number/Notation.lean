import Mathlib
import TemplateExpr.Number.Layout
import TemplateExpr.Proofs.Number.Order
import TemplateExpr.Proofs.Number.Plain

/-!
# When a float is written with an exponent

Two outputs write a float with the same digits but not always in the same notation: one never uses
an exponent, the other does below `1e-6` and from `1e21` on. Which notation is used is decided on
the digits, by the place of the first one; but it can be told by comparing the floats
(`positional_iff`), because the digits are read as the float and reading keeps the order. So the two
outputs agree on zero and on the floats in between, and on no other (`render_eq_iff`).
-/

namespace TemplateExpr.Number

/-! ## The place of the first digit -/

/-- The exponent of the first digit. -/
def Digits.lead (digits : Digits) : Int :=
  digits.exponent + (Nat.toDigits 10 digits.mantissa).length - 1

theorem Digits.lead_bounds {digits : Digits} (h : 0 < digits.mantissa) :
    (10 : ℚ) ^ digits.lead ≤ digits.mantissa * 10 ^ digits.exponent ∧
      (digits.mantissa : ℚ) * 10 ^ digits.exponent < 10 ^ (digits.lead + 1) := by
  have hten : (0 : ℚ) < 10 ^ digits.exponent := by positivity
  obtain ⟨count, hcount⟩ : ∃ count, (Nat.toDigits 10 digits.mantissa).length = count + 1 :=
    Nat.exists_eq_succ_of_ne_zero (Nat.length_toDigits_pos).ne'
  have hhigh : digits.mantissa < 10 ^ (count + 1) :=
    (Nat.length_toDigits_le_iff (by decide) (Nat.succ_pos count)).mp hcount.le
  have hlow : 10 ^ count ≤ digits.mantissa := by
    rcases Nat.eq_zero_or_pos count with rfl | hpos
    · exact h
    · by_contra hless
      have hle := (Nat.length_toDigits_le_iff (by decide) hpos).mpr (not_le.mp hless)
      omega
  have hlead : digits.lead = count + digits.exponent := by
    rw [lead, hcount]
    push_cast
    ring
  rw [hlead, add_right_comm, zpow_add₀ (by norm_num), zpow_add₀ (by norm_num) (count + 1 : Int)]
  constructor
  · refine mul_le_mul_of_nonneg_right ?_ hten.le
    exact_mod_cast hlow
  · refine mul_lt_mul_of_pos_right ?_ hten
    exact_mod_cast hhigh

section

variable {mantissa bound : Nat} {exponent place power : Int}

theorem canonical_unique {mantissa' : Nat} {exponent' : Int} (h : Canonical mantissa exponent)
    (h' : Canonical mantissa' exponent')
    (hsame : magnitude mantissa exponent = magnitude mantissa' exponent') :
    mantissa = mantissa' ∧ exponent = exponent' := by
  unfold Canonical at h h'
  unfold magnitude at hsame
  omega

/-- **The first digit stands at a place or before it exactly if the float is no less than the power
of ten of that place**, taken as a float. -/
theorem le_lead_iff (h : Canonical mantissa exponent) (hpos : 0 < mantissa)
    (hbound : Canonical bound power) (hshort : shortestDigits bound power = ⟨1, place⟩) :
    place ≤ (shortestDigits mantissa exponent).lead ↔
      magnitude bound power ≤ magnitude mantissa exponent := by
  have hreads := shortestDigits_reads h false
  have hreadsBound := shortestDigits_reads hbound false
  obtain ⟨hlow, hhigh⟩ := Digits.lead_bounds (shortestDigits_pos h hpos)
  have hbits := toNat_toBits_unsigned (magnitude_lt h).le
  have hbitsBound := toNat_toBits_unsigned (magnitude_lt hbound).le
  rw [hshort] at hreadsBound
  constructor
  · intro hle
    have hmono := ofDecimal_mono <| calc
      ((1 : Nat) : ℚ) * 10 ^ place = 10 ^ place := by rw [Nat.cast_one, one_mul]
      _ ≤ 10 ^ (shortestDigits mantissa exponent).lead :=
        zpow_le_zpow_right₀ (by norm_num) hle
      _ ≤ _ := hlow
    rwa [hreads, hreadsBound, hbits, hbitsBound] at hmono
  · intro hle
    by_contra hless
    have hmono := ofDecimal_mono <| calc
      _ ≤ (10 : ℚ) ^ ((shortestDigits mantissa exponent).lead + 1) := hhigh.le
      _ ≤ 10 ^ place := zpow_le_zpow_right₀ (by norm_num) (by omega)
      _ = ((1 : Nat) : ℚ) * 10 ^ place := by rw [Nat.cast_one, one_mul]
    rw [hreads, hreadsBound, hbits, hbitsBound] at hmono
    -- Being no less and no more, the float is the power of ten, and that is written as such.
    obtain ⟨rfl, rfl⟩ := canonical_unique h hbound (le_antisymm hmono hle)
    rw [hshort, Digits.lead, Nat.toDigits_of_lt_base (by norm_num)] at hless
    simp at hless

end

/-! ## The range of positional notation -/

/-- That a float is in the range that is written without an exponent. -/
def InPlainRange (x : Float) : Prop := 1e-6 ≤ x ∧ x < 1e21

section

variable {x : Float} {mantissa : Nat} {exponent : Int}

theorem parts_unsigned (h : IsUnsigned x) :
    (∃ mantissa exponent, parts x = .finite false mantissa exponent) ∨
      parts x = .infinite false ∧ x.toBits.toNat = 2047 * 2 ^ 52 := by
  unfold IsUnsigned at h
  have hnegative : (x.toBits.toNat / twoTo 63 == 1) = false := by
    rw [twoTo_eq, beq_eq_false_iff_ne]
    omega
  unfold parts
  dsimp only
  rw [hnegative]
  by_cases hlargest : x.toBits.toNat / twoTo 52 % twoTo 11 = 2047
  · have hsize : x.toBits.toNat = 2047 * 2 ^ 52 := by
      rw [twoTo_eq, twoTo_eq] at hlargest
      omega
    have hzero : x.toBits.toNat % twoTo 52 = 0 := by
      rw [hsize, twoTo_eq]
      norm_num
    rw [if_pos hlargest, if_pos hzero]
    exact .inr ⟨rfl, hsize⟩
  · rw [if_neg hlargest]
    by_cases hleast : x.toBits.toNat / twoTo 52 % twoTo 11 = 0
    · rw [if_pos hleast]
      exact .inl ⟨_, _, rfl⟩
    · rw [if_neg hleast]
      exact .inl ⟨_, _, rfl⟩

theorem toBits_of_parts (h : parts x = .finite false mantissa exponent) :
    Canonical mantissa exponent ∧ x.toBits.toNat = magnitude mantissa exponent := by
  obtain ⟨hcanonical, hx⟩ := ofMagnitude_of_parts h
  refine ⟨hcanonical, ?_⟩
  have hbits := toNat_toBits_unsigned (magnitude_lt hcanonical).le
  rwa [hx] at hbits

theorem isUnsigned_of_parts (h : parts x = .finite false mantissa exponent) : IsUnsigned x := by
  obtain ⟨hcanonical, hbits⟩ := toBits_of_parts h
  rw [IsUnsigned, hbits]
  exact (magnitude_lt hcanonical).le

/-- **The notation can be told without the digits.** -/
theorem positional_iff (h : parts x = .finite false mantissa exponent) (hpos : 0 < mantissa) :
    displayLayout.positional (shortestDigits mantissa exponent).lead = true ↔ InPlainRange x := by
  obtain ⟨hcanonical, hbits⟩ := toBits_of_parts h
  have hsmall : parts 1e-6 = .finite false 4722366482869645 (-72) := by decide
  have hlarge : parts 1e21 = .finite false 7629394531250000 17 := by decide
  have hsmallest : shortestDigits 4722366482869645 (-72) = ⟨1, -6⟩ := by decide
  have hlargest : shortestDigits 7629394531250000 17 = ⟨1, 21⟩ := by decide
  obtain ⟨hcanonicalSmall, hbitsSmall⟩ := toBits_of_parts hsmall
  obtain ⟨hcanonicalLarge, hbitsLarge⟩ := toBits_of_parts hlarge
  rw [InPlainRange, le_iff_toBits (isUnsigned_of_parts hsmall) (isUnsigned_of_parts h),
    lt_iff_toBits (isUnsigned_of_parts h) (isUnsigned_of_parts hlarge), hbits, hbitsSmall,
    hbitsLarge, ← not_le, ← le_lead_iff hcanonical hpos hcanonicalSmall hsmallest,
    ← le_lead_iff hcanonical hpos hcanonicalLarge hlargest]
  simp [displayLayout]

theorem isUnsigned_of_readUnsigned? {text : List Char} (h : readUnsigned? false text = some x) :
    IsUnsigned x := by
  unfold readUnsigned? at h
  obtain ⟨-, hvalue⟩ := Option.ite_none_left_eq_some.mp h
  obtain ⟨power, -, rfl⟩ := Option.map_eq_some_iff.mp hvalue
  rw [IsUnsigned, ofDecimal_eq, ofRatio, toNat_toBits_unsigned (magnitudeBits_le _ _)]
  exact magnitudeBits_le _ _

/-! ## Two outputs -/

theorem mem_positionalText {c : Char} (hpos : 0 < mantissa)
    (h : c ∈ positionalText (Nat.toDigits 10 mantissa) exponent) : c.isDigit = true ∨ c = '.' := by
  obtain ⟨whole, fraction, htext, hplain, -⟩ := positionalText_plain hpos exponent
  rw [htext, plainText] at h
  rcases List.mem_append.mp h with hwhole | hrest
  · exact .inl (hplain.whole_digits c hwhole)
  · split at hrest
    · cases hrest
    · exact (List.mem_cons.mp hrest).symm.imp_left (hplain.fraction_digits c)

theorem mem_exponentText {c : Char}
    (h : c ∈ exponentText (Nat.toDigits 10 mantissa) exponent) :
    c.isDigit = true ∨ c = '.' ∨ c = 'e' ∨ c = '-' ∨ c = '+' := by
  unfold exponentText at h
  rcases List.mem_append.mp h with hfront | hbehind
  · refine (List.mem_append.mp hfront).elim (fun hlead => ?_) fun hmore => ?_
    · exact .inl (isDigit_of_mem_toDigits (List.mem_of_mem_take hlead))
    · split at hmore
      · rcases List.mem_cons.mp hmore with hpoint | hmore
        · exact .inr (.inl hpoint)
        · exact .inl (isDigit_of_mem_toDigits (List.mem_of_mem_drop hmore))
      · cases hmore
  · rcases List.mem_cons.mp hbehind with hletter | hbehind
    · exact .inr (.inr (.inl hletter))
    rcases List.mem_cons.mp hbehind with hsign | hpower
    · refine .inr (.inr (.inr ?_))
      split at hsign
      · exact .inl hsign
      · exact .inr hsign
    · exact .inl (isDigit_of_mem_toDigits hpower)

theorem letter_mem_exponentText (digits : List Char) (exponent : Int) :
    'e' ∈ exponentText digits exponent := by
  unfold exponentText
  exact List.mem_append_right _ List.mem_cons_self

theorem NumberLayout.mem_render {layout : NumberLayout} {c : Char} (h : c ∈ layout.render x) :
    c.isDigit = true ∨ c ∈ ['.', 'e', '-', '+'] ∨ c ∈ layout.infinity.toList ∨
      c ∈ "NaN".toList := by
  have hsign : ∀ {negative : Bool}, c ∈ (if negative then ['-'] else []) → c = '-' := by
    rintro (_ | _) hc
    · cases hc
    · exact List.mem_singleton.mp hc
  unfold render at h
  split at h
  · exact .inr (.inr (.inr h))
  · rcases List.mem_append.mp h with hc | hc
    · simp [hsign hc]
    · exact .inr (.inr (.inl hc))
  · next mantissa exponent hparts =>
    obtain ⟨hcanonical, -⟩ := ofMagnitude_of_parts hparts
    split at h
    · rcases List.mem_append.mp h with hc | hc
      · simp [hsign hc]
      · rw [List.mem_singleton.mp hc]
        exact .inl rfl
    · next hzero =>
      have hpos := shortestDigits_pos hcanonical (Nat.pos_of_ne_zero hzero)
      dsimp only at h
      rcases List.mem_append.mp h with hc | hc
      · simp [hsign hc]
      · split at hc
        · rcases mem_positionalText hpos hc with hdigit | rfl
          · exact .inl hdigit
          · simp
        · rcases mem_exponentText hc with hdigit | hother
          · exact .inl hdigit
          · simp [hother]

theorem eq_zero_iff (h : parts x = .finite false mantissa exponent) : x = 0 ↔ mantissa = 0 := by
  have hzero : parts 0 = .finite false 0 (-1074) := by decide
  constructor
  · rintro rfl
    rw [hzero] at h
    injection h with _ hmantissa
    exact hmantissa.symm
  · rintro rfl
    obtain ⟨hcanonical, hx⟩ := ofMagnitude_of_parts h
    obtain ⟨-, hx'⟩ := ofMagnitude_of_parts hzero
    have hexponent : exponent = -1074 := by
      unfold Canonical at hcanonical
      omega
    rw [← hx, ← hx', hexponent]

/-- **The two outputs agree on zero and where neither uses an exponent.** -/
theorem render_eq_iff (h : IsUnsigned x) :
    plainLayout.render x = displayLayout.render x ↔ x = 0 ∨ InPlainRange x := by
  rcases parts_unsigned h with ⟨mantissa, exponent, hparts⟩ | ⟨hparts, hbits⟩
  · by_cases hzero : mantissa = 0
    · refine iff_of_true ?_ (.inl ((eq_zero_iff hparts).mpr hzero))
      unfold NumberLayout.render
      rw [hparts]
      dsimp only
      rw [if_pos hzero, if_pos hzero]
      rfl
    · have hpos := Nat.pos_of_ne_zero hzero
      have hdigits := shortestDigits_pos (toBits_of_parts hparts).1 hpos
      rw [or_iff_right (mt (eq_zero_iff hparts).mp hzero), ← positional_iff hparts hpos]
      unfold NumberLayout.render
      rw [hparts]
      dsimp only
      rw [if_neg hzero, if_neg hzero, ← Digits.lead]
      by_cases hplace : displayLayout.positional (shortestDigits mantissa exponent).lead = true
      · rw [if_pos hplace]
        exact iff_of_true rfl hplace
      · rw [if_neg hplace]
        refine iff_of_false (fun hsame => ?_) hplace
        have hmem := letter_mem_exponentText
          (Nat.toDigits 10 (shortestDigits mantissa exponent).mantissa)
          (shortestDigits mantissa exponent).exponent
        rw [← List.append_cancel_left hsame] at hmem
        rcases mem_positionalText hdigits hmem with hdigit | hpoint
        · cases hdigit
        · cases hpoint
  · have hlarge : parts 1e21 = .finite false 7629394531250000 17 := by decide
    refine iff_of_false ?_ ?_
    · unfold NumberLayout.render
      rw [hparts]
      decide
    · rintro (rfl | ⟨-, hless⟩)
      · have hzero : parts 0 = .finite false 0 (-1074) := by decide
        rw [hzero] at hparts
        cases hparts
      · rw [lt_iff_toBits h (isUnsigned_of_parts hlarge), hbits] at hless
        exact absurd (isUnsigned_of_parts hlarge) (not_le.mpr hless)

end

end TemplateExpr.Number

import Mathlib
import TemplateExpr.Proofs.Token.Scan

/-!
# Tokens in a longer source

A source can stand inside a longer one: behind other text, and in front of more. Its tokens are the
same there, only further on, provided that none of them runs on into what stands behind (`Seam`).
A semicolon is such a seam, and so is the end. So the tokens of two sources with a semicolon between
them are the tokens of the first, the semicolon, and the tokens of the second
(`tokenize_semicolon`).

Each scanner is followed where it succeeds. It has then looked no further than a character behind
its token, but for the digits of an exponent and of an escape, which it found.
-/

namespace TemplateExpr

open Text Number

/-- That no token runs on into a text that stands behind it. -/
structure Seam (behind : List Char) : Prop where
  joint : Joint behind
  operator : ∀ c, behind.head? = some c → ∀ op ∈ operators, c ∉ op.toList

theorem Seam.nil : Seam [] where
  joint := .nil
  operator _ h := nomatch h

theorem Seam.semicolon (rest : List Char) : Seam (';' :: rest) where
  joint := .cons (by decide) (by decide) rest
  operator := by
    rintro _ ⟨⟩
    decide

/-! ## Classes of characters -/

theorem takeWhile_seam {p : Char → Bool} {behind : List Char}
    (h : ∀ c, behind.head? = some c → p c = false) (text : List Char) :
    (text ++ behind).takeWhile p = text.takeWhile p := by
  induction text with
  | nil =>
    cases behind with
    | nil => rfl
    | cons c rest => simp [h c rfl]
  | cons c text ih => simp [List.takeWhile_cons, ih]

theorem dropWhile_seam {p : Char → Bool} {behind : List Char}
    (h : ∀ c, behind.head? = some c → p c = false) (text : List Char) :
    (text ++ behind).dropWhile p = text.dropWhile p ++ behind := by
  induction text with
  | nil =>
    cases behind with
    | nil => rfl
    | cons c rest => simp [h c rfl]
  | cons c text ih =>
    rw [List.cons_append, List.dropWhile_cons, List.dropWhile_cons, ih]
    split <;> rfl

section

variable {behind : List Char}

theorem spanDigits_seam (h : Joint behind) (text : List Char) :
    spanDigits (text ++ behind) = ((spanDigits text).1, (spanDigits text).2 ++ behind) := by
  rw [spanDigits, takeWhile_seam h.not_isDigit, dropWhile_seam h.not_isDigit]
  rfl

theorem spanDigits_text (text : List Char) : (spanDigits text).1 ++ (spanDigits text).2 = text :=
  List.takeWhile_append_dropWhile

/-! ## Numerals -/

theorem spanMantissa_text (text : List Char) :
    (spanMantissa text).1 ++ (spanMantissa text).2 = text := by
  have htext := spanDigits_text text
  unfold spanMantissa
  dsimp only
  split
  · next after hrest =>
    rw [hrest] at htext
    dsimp only
    rw [List.append_assoc, List.cons_append, spanDigits_text]
    exact htext
  · exact htext

theorem spanMantissa_seam (h : Joint behind) (text : List Char) :
    spanMantissa (text ++ behind) = ((spanMantissa text).1, (spanMantissa text).2 ++ behind) := by
  unfold spanMantissa
  rw [spanDigits_seam h]
  dsimp only
  cases hrest : (spanDigits text).2 with
  | nil =>
    rw [List.nil_append]
    split
    · next after => exact absurd rfl (h '.' rfl).2
    · rfl
  | cons c rest =>
    rw [List.cons_append]
    split
    · next after heq =>
      cases heq
      simp only [spanDigits_seam h]
    · next hpoint =>
      split
      · next after heq =>
        cases heq
        exact absurd rfl (hpoint _)
      · rfl

theorem exponentDigits_seam (h : Joint behind) {head unsigned exponent rest : List Char}
    (hspan : (if (spanDigits unsigned).1 = [] then none
      else some (head ++ (spanDigits unsigned).1, (spanDigits unsigned).2)) =
        some (exponent, rest)) :
    exponent ++ rest = head ++ unsigned ∧
      (if (spanDigits (unsigned ++ behind)).1 = [] then none
        else some (head ++ (spanDigits (unsigned ++ behind)).1,
          (spanDigits (unsigned ++ behind)).2)) = some (exponent, rest ++ behind) := by
  simp only [spanDigits_seam h]
  split at hspan
  · cases hspan
  · next hdigits =>
    cases hspan
    rw [if_neg hdigits, List.append_assoc, spanDigits_text]
    exact ⟨rfl, rfl⟩

/-- An exponent that is complete stays as it is; one without digits would take them from behind. -/
theorem spanExponent?_seam (h : Joint behind) {text exponent rest : List Char}
    (hspan : spanExponent? text = some (exponent, rest)) :
    exponent ++ rest = text ∧ spanExponent? (text ++ behind) = some (exponent, rest ++ behind) := by
  cases text with
  | nil =>
    cases hspan
    exact ⟨rfl, h.spanExponent?⟩
  | cons c after =>
    rw [List.cons_append]
    unfold spanExponent? at hspan ⊢
    dsimp only at hspan ⊢
    split at hspan
    case isFalse hletter =>
      cases hspan
      rw [if_neg hletter]
      exact ⟨rfl, rfl⟩
    case isTrue hletter =>
      rw [if_pos hletter]
      cases after with
      | nil => simp [spanDigits] at hspan
      | cons s more =>
        rw [List.cons_append]
        dsimp only at hspan ⊢
        by_cases hsign : s = '+' ∨ s = '-'
        · simp only [if_pos hsign] at hspan ⊢
          exact exponentDigits_seam h hspan
        · simp only [if_neg hsign] at hspan ⊢
          exact exponentDigits_seam h hspan

theorem startsNumeral_seam (h : Joint behind) {text : List Char} (htext : text ≠ []) :
    Cursor.startsNumeral (text ++ behind) = Cursor.startsNumeral text := by
  match text, htext with
  | [c], _ =>
    by_cases hpoint : c = '.'
    · subst hpoint
      cases behind with
      | nil => rfl
      | cons d rest => exact h.not_isDigit d rfl
    · rw [List.singleton_append, Cursor.startsNumeral_cons hpoint,
        Cursor.startsNumeral_cons hpoint]
  | c :: d :: rest, _ =>
    by_cases hpoint : c = '.'
    · subst hpoint
      rfl
    · rw [List.cons_append, Cursor.startsNumeral_cons hpoint, Cursor.startsNumeral_cons hpoint]

end

/-! ## Escapes

What an escape takes it has in full, whatever stands behind. -/

section

variable {text : List Char}

theorem hexQuad?_prefix {code : Nat} (h : hexQuad? text = some code) (behind : List Char) :
    4 ≤ text.length ∧ hexQuad? (text ++ behind) = some code := by
  match text, h with
  | _ :: _ :: _ :: _ :: rest, h => exact ⟨by simp, h⟩

theorem unicodeEscape?_prefix {value : Char} {count : Nat}
    (h : unicodeEscape? text = some (value, count)) (behind : List Char) :
    count ≤ text.length ∧ unicodeEscape? (text ++ behind) = some (value, count) := by
  unfold unicodeEscape? at h ⊢
  obtain ⟨code, hcode, h⟩ := Option.bind_eq_some_iff.mp h
  obtain ⟨hlength, hcode⟩ := hexQuad?_prefix hcode behind
  rw [hcode]
  show _ ∧ (if isHighSurrogate code then _ else _) = _
  split at h
  case isTrue hhigh =>
    rw [if_pos hhigh, List.drop_append_of_le_length hlength]
    split at h
    · next more hmore =>
      obtain ⟨low, hlow, h⟩ := Option.bind_eq_some_iff.mp h
      obtain ⟨hlowLength, hlow⟩ := hexQuad?_prefix hlow behind
      split at h
      · next hpair =>
        obtain ⟨rfl, rfl⟩ := Prod.mk.inj (Option.some.inj h)
        have hdrop := congrArg List.length hmore
        simp only [List.length_drop, List.length_cons] at hdrop
        refine ⟨by omega, ?_⟩
        rw [hmore]
        simp only [List.cons_append, hlow, Option.bind_eq_bind, Option.bind_some, if_pos hpair]
      · cases h
    · cases h
  case isFalse hhigh =>
    rw [if_neg hhigh]
    split at h
    · cases h
    · next hlow =>
      cases h
      exact ⟨hlength, if_neg hlow⟩

theorem escapeAt_prefix {value : Char} {count : Nat} (h : escapeAt text = .ok (value, count))
    (behind : List Char) :
    count ≤ text.length ∧ escapeAt (text ++ behind) = .ok (value, count) := by
  cases text with
  | nil => cases h
  | cons c rest =>
    rw [List.cons_append]
    unfold escapeAt at h ⊢
    dsimp only at h ⊢
    split at h
    case isTrue hcode =>
      rw [if_pos hcode]
      split at h
      · next value count hunicode =>
        cases h
        obtain ⟨hcount, hunicode⟩ := unicodeEscape?_prefix hunicode behind
        rw [hunicode]
        exact ⟨Nat.succ_le_succ hcount, rfl⟩
      · cases h
    case isFalse hcode =>
      rw [if_neg hcode]
      split at h
      · next value hsimple =>
        cases h
        exact ⟨by simp, rfl⟩
      · cases h

/-! ## Operators -/

theorem isPrefixOf_seam {op behind : List Char} (h : ∀ c, behind.head? = some c → c ∉ op) :
    op.isPrefixOf (text ++ behind) = op.isPrefixOf text := by
  induction text generalizing op with
  | nil =>
    cases op with
    | nil => simp
    | cons d op =>
      cases behind with
      | nil => rfl
      | cons c rest =>
        have hne : d ≠ c := fun heq => h c rfl (heq ▸ List.mem_cons_self)
        simp [List.isPrefixOf, hne]
  | cons e text ih =>
    cases op with
    | nil => rfl
    | cons d op =>
      rw [List.cons_append, List.isPrefixOf, List.isPrefixOf,
        ih fun c hc hmem => h c hc (List.mem_cons_of_mem d hmem)]

theorem operatorAt?_seam {behind : List Char}
    (h : ∀ c, behind.head? = some c → ∀ op ∈ operators, c ∉ op.toList) :
    operatorAt? (text ++ behind) = operatorAt? text :=
  List.find?_congr fun op hop => isPrefixOf_seam fun c hc => h c hc op hop

theorem operatorAt?_length {op : String} (h : operatorAt? text = some op) :
    op.toList.length ≤ text.length := by
  have hprefix := List.find?_some (p := fun op : String => op.toList.isPrefixOf text) h
  exact (List.isPrefixOf_iff_prefix.mp hprefix).length_le

end

/-! ## The longer source -/

/-- A token as it stands in a source with `distance` characters more in front. -/
def Token.moved (distance : Nat) (token : Token) : Token :=
  { token with position := token.position + distance }

theorem Token.moved_zero (token : Token) : token.moved 0 = token := rfl

namespace Cursor

def within (cursor : Cursor) (before : Nat) (behind : List Char) : Cursor :=
  ⟨cursor.rest ++ behind, cursor.offset + before⟩

variable {cursor after : Cursor} {token : Token} {behind : List Char}

theorem skip_within {count : Nat} (h : count ≤ cursor.rest.length) (before : Nat)
    (behind : List Char) :
    (cursor.within before behind).skip count = (cursor.skip count).within before behind := by
  simp only [skip, within, List.drop_append_of_le_length h, Nat.add_right_comm]

theorem take_within {count : Nat} {kind : TokenKind}
    (h : cursor.take count kind = (.ok token, after)) (hcount : count ≤ cursor.rest.length)
    (before : Nat) (behind : List Char) :
    (cursor.within before behind).take count kind =
      (.ok (token.moved before), after.within before behind) := by
  cases h
  rw [take, skip_within hcount]
  simp only [within, List.take_append_of_le_length hcount]
  rfl

theorem nextName_within (hseam : Seam behind) (h : cursor.nextName = (.ok token, after))
    (before : Nat) :
    (cursor.within before behind).nextName =
      (.ok (token.moved before), after.within before behind) := by
  have hword : (cursor.within before behind).rest.takeWhile isNamePart =
      cursor.rest.takeWhile isNamePart :=
    takeWhile_seam (fun c hc => (hseam.joint c hc).1) cursor.rest
  rw [nextName, hword]
  exact take_within h (List.takeWhile_prefix _).length_le before behind

theorem nextNumber_within (hseam : Seam behind) (h : cursor.nextNumber = (.ok token, after))
    (before : Nat) :
    (cursor.within before behind).nextNumber =
      (.ok (token.moved before), after.within before behind) := by
  unfold nextNumber at h ⊢
  have hmantissa : spanMantissa (cursor.within before behind).rest = _ :=
    spanMantissa_seam hseam.joint cursor.rest
  rw [hmantissa]
  dsimp only at h ⊢
  split at h
  · cases h
  · next exponent rest hspan =>
    obtain ⟨htext, hspan⟩ := spanExponent?_seam hseam.joint hspan
    rw [hspan]
    dsimp only
    split at h
    · next value hvalue =>
      have hlength : ((spanMantissa cursor.rest).1 ++ exponent).length ≤ cursor.rest.length := by
        have hrest := congrArg List.length (spanMantissa_text cursor.rest)
        rw [← htext] at hrest
        simp only [List.length_append] at hrest ⊢
        omega
      exact take_within h hlength before behind
    · cases h

theorem nextOperator_within (hseam : Seam behind) {first : Char}
    (h : cursor.nextOperator first = (.ok token, after)) (before : Nat) :
    (cursor.within before behind).nextOperator first =
      (.ok (token.moved before), after.within before behind) := by
  unfold nextOperator at h ⊢
  have hoperator : operatorAt? (cursor.within before behind).rest = operatorAt? cursor.rest :=
    operatorAt?_seam hseam.operator
  rw [hoperator]
  split at h
  · next op hop => exact take_within h (operatorAt?_length hop) before behind
  · cases h

/-! ## String literals -/

theorem scanBody_length (quote : Char) (opening : Nat) (rest : List Char) (offset : Nat) :
    (scanBody quote opening rest offset).2.offset +
      (scanBody quote opening rest offset).2.rest.length = offset + rest.length := by
  fun_induction scanBody quote opening rest offset with
  | case1 => rfl
  | case2 | case4 | case5 | case6 =>
    simp only [List.length_cons]
    omega
  | case3 offset after value count hescape body closed hscan hquote ih =>
    obtain ⟨hcount, -⟩ := escapeAt_prefix hescape []
    rw [hscan] at ih
    simp only [List.length_drop, List.length_cons] at ih ⊢
    omega
  | case7 offset c after hquote hslash body closed hscan ih =>
    rw [hscan] at ih
    simp only [List.length_cons] at ih ⊢
    omega

/-- A body that is closed is closed there whatever stands behind; where it opened matters for an
error only. -/
theorem scanBody_within {quote : Char} {opening : Nat} {rest : List Char} {offset : Nat}
    {body : List Char} {closed : Cursor}
    (h : scanBody quote opening rest offset = (.ok body, closed)) (opening' before : Nat)
    (behind : List Char) :
    scanBody quote opening' (rest ++ behind) (offset + before) =
      (.ok body, closed.within before behind) := by
  fun_induction scanBody quote opening rest offset generalizing body closed with
  | case1 | case4 | case5 | case6 => cases h
  | case2 offset after =>
    cases h
    rw [List.cons_append, scanBody, if_pos rfl, Nat.add_right_comm]
    rfl
  | case3 offset after value count hescape part stop hscan hquote ih =>
    obtain ⟨hcount, hescape⟩ := escapeAt_prefix hescape behind
    obtain fault | tail := part
    · cases h
    cases h
    have htail := ih hscan
    rw [← List.drop_append_of_le_length hcount, Nat.add_right_comm, Nat.add_right_comm offset]
      at htail
    rw [List.cons_append, scanBody, if_neg hquote, if_pos rfl, hescape]
    dsimp only
    rw [htail]
    rfl
  | case7 offset c after hquote hslash part stop hscan ih =>
    obtain fault | tail := part
    · cases h
    cases h
    have htail := ih hscan
    rw [Nat.add_right_comm] at htail
    rw [List.cons_append, scanBody, if_neg hquote, if_neg hslash, htail]
    rfl

theorem nextString_within {quote : Char} (hrest : cursor.rest ≠ [])
    (h : cursor.nextString quote = (.ok token, after)) (before : Nat) (behind : List Char) :
    (cursor.within before behind).nextString quote =
      (.ok (token.moved before), after.within before behind) := by
  have hpos := List.length_pos_iff.mpr hrest
  have hoffset := scanBody_length quote cursor.offset (cursor.rest.drop 1) (cursor.offset + 1)
  unfold nextString at h ⊢
  split at h
  · next body closed hscan =>
    cases h
    rw [hscan, List.length_drop] at hoffset
    dsimp only at hoffset
    have hscan := scanBody_within hscan (cursor.offset + before) before behind
    rw [← List.drop_append_of_le_length hpos, Nat.add_right_comm] at hscan
    simp only [within]
    rw [hscan]
    dsimp only [within]
    rw [Nat.add_sub_add_right, List.take_append_of_le_length (by omega)]
    rfl
  · cases h

/-! ## All tokens -/

/-- **The next token is the same in the longer source.** -/
theorem nextToken_within (hseam : Seam behind) {first : Char} {tail : List Char}
    (hfirst : cursor.rest = first :: tail) (h : cursor.nextToken first = (.ok token, after))
    (before : Nat) :
    (cursor.within before behind).nextToken first =
      (.ok (token.moved before), after.within before behind) := by
  have hrest : cursor.rest ≠ [] := by simp [hfirst]
  have hnumeral : startsNumeral (cursor.within before behind).rest = startsNumeral cursor.rest :=
    startsNumeral_seam hseam.joint hrest
  unfold nextToken at h ⊢
  rw [hnumeral]
  split at h
  case isTrue hstarts =>
    rw [if_pos hstarts]
    exact nextNumber_within hseam h before
  case isFalse hstarts =>
    rw [if_neg hstarts]
    split at h
    case isTrue hquote =>
      rw [if_pos hquote]
      exact nextString_within hrest h before behind
    case isFalse hquote =>
      rw [if_neg hquote]
      split at h
      case isTrue hsymbol =>
        rw [if_pos hsymbol]
        exact take_within h (List.length_pos_iff.mpr hrest) before behind
      case isFalse hsymbol =>
        rw [if_neg hsymbol]
        split at h
        case isTrue hname =>
          rw [if_pos hname]
          exact nextName_within hseam h before
        case isFalse hname =>
          rw [if_neg hname]
          exact nextOperator_within hseam h before

theorem next_token (h : cursor.next = (.ok (some token), after)) :
    ∃ first tail, cursor.skipBlanks.rest = first :: tail ∧
      cursor.skipBlanks.nextToken first = (.ok token, after) := by
  unfold next at h
  dsimp only at h
  split at h
  · cases h
  · next first tail hfirst =>
    refine ⟨first, tail, hfirst, ?_⟩
    rcases hstep : cursor.skipBlanks.nextToken first with ⟨fault | found, stop⟩
    · rw [hstep] at h
      cases h
    · rw [hstep] at h
      cases h
      rfl

theorem next_end (h : cursor.next = (.ok none, after)) : cursor.skipBlanks.rest = [] := by
  unfold next at h
  dsimp only at h
  split at h
  · assumption
  · next first tail hfirst =>
    rcases hstep : cursor.skipBlanks.nextToken first with ⟨fault | found, stop⟩
    · rw [hstep] at h
      cases h
    · rw [hstep] at h
      cases h

theorem takeWhile_append_skipBlanks (cursor : Cursor) :
    cursor.rest.takeWhile isBlank ++ cursor.skipBlanks.rest = cursor.rest :=
  (List.prefix_iff_eq_append.mp (List.takeWhile_prefix isBlank))

theorem skipBlanks_not_blank {first : Char} {tail : List Char}
    (h : cursor.skipBlanks.rest = first :: tail) : isBlank first = false := by
  have hdrop : cursor.skipBlanks.rest = cursor.rest.dropWhile isBlank :=
    List.append_cancel_left (cursor.takeWhile_append_skipBlanks.trans
      List.takeWhile_append_dropWhile.symm)
  have hhead := List.head?_dropWhile_not isBlank cursor.rest
  rw [← hdrop, h] at hhead
  exact hhead

theorem passes_skipBlanks (cursor : Cursor) (before : Nat) (behind : List Char) :
    (cursor.within before behind).Passes [] (cursor.skipBlanks.within before behind) := by
  have hblanks : ∀ c ∈ cursor.rest.takeWhile isBlank, isBlank c = true :=
    fun c hc => List.mem_takeWhile_imp hc
  have hpasses := passes_blanks hblanks (cursor.skipBlanks.rest ++ behind) (cursor.offset + before)
  rw [← List.append_assoc, cursor.takeWhile_append_skipBlanks, Nat.add_right_comm] at hpasses
  exact hpasses

/-- **All tokens are the same in the longer source**, and what stands behind is read after them. -/
theorem passes_within (hseam : Seam behind) {ts : List Token} (h : cursor.tokensFrom = .ok ts)
    (before : Nat) :
    ∃ offset, (cursor.within before behind).Passes (ts.map (·.moved before)) ⟨behind, offset⟩ := by
  induction cursor using tokensFrom.induct generalizing ts with
  | case1 cursor stop hnext =>
    rw [tokensFrom_eq, hnext] at h
    cases h
    refine ⟨cursor.skipBlanks.offset + before, ?_⟩
    have hpasses := passes_skipBlanks cursor before behind
    rwa [within, within, next_end hnext, List.nil_append] at hpasses
  | case2 cursor token after hnext ih =>
    rw [tokensFrom_eq, hnext] at h
    dsimp only at h
    rcases hafter : after.tokensFrom with fault | more
    · rw [hafter] at h
      cases h
    rw [hafter] at h
    cases h
    obtain ⟨first, tail, hfirst, htoken⟩ := next_token hnext
    obtain ⟨offset, hmore⟩ := ih hafter
    have hthis := passes_token (by rw [within, hfirst]; rfl) (skipBlanks_not_blank hfirst)
      (nextToken_within hseam hfirst htoken before)
    exact ⟨offset, ((passes_skipBlanks cursor before behind).trans hthis).trans hmore⟩
  | case3 cursor fault stop hnext =>
    rw [tokensFrom_eq, hnext] at h
    cases h

end Cursor

/-- **A semicolon splits the tokens.** The tokens of two sources with a semicolon between them are
those of the first, the semicolon, and those of the second, further on. -/
theorem tokenize_semicolon {first second : String} {us vs : List Token}
    (hfirst : tokenize first = .ok us) (hsecond : tokenize second = .ok vs) :
    ∃ position distance, tokenize (first ++ ";" ++ second) =
      .ok (us ++ ⟨";", .symbol, position⟩ :: vs.map (·.moved distance)) := by
  obtain ⟨position, hfront⟩ := Cursor.passes_within (.semicolon second.toList) hfirst 0
  have hsymbol := Cursor.passes_symbol (c := ';') (by decide) second.toList position
  obtain ⟨stop, hback⟩ :
      ∃ stop, Cursor.Passes ⟨second.toList, position + 1⟩ (vs.map (·.moved (position + 1)))
        ⟨[], stop⟩ := by
    simpa [Cursor.within, Cursor.start, Nat.add_comm] using
      Cursor.passes_within .nil hsecond (position + 1)
  have hall := (hfront.trans hsymbol).trans hback
  have hsource : Cursor.start (first ++ ";" ++ second) =
      (Cursor.start first).within 0 (';' :: second.toList) := by
    simp [Cursor.start, Cursor.within]
  refine ⟨position, position + 1, ?_⟩
  rw [tokenize, hsource, hall.tokensFrom]
  simp [Token.moved_zero]

end TemplateExpr

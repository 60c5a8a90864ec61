import Mathlib
import TemplateExpr.Proofs.Text.Escape
import TemplateExpr.Proofs.Token.Tiling

/-!
# String literals

What stands between the quotes of a string literal is a sequence of units, each of which writes one
character: the character itself, an escape of a letter or a sign, an escape of four hexadecimal
digits, or two of these that are the halves of a pair. `StringBody` says so without a scanner.

The scanner takes such a body off the front of any text (`Cursor.scanBody_of_stringBody`) and takes
nothing else (`Cursor.stringBody_of_scanBody`). So a text between quotes is one constant exactly if
it is a body, and every text has a literal in either quotes (`tokenize_quoted_iff`).
-/

namespace TemplateExpr

open Text

/-! ## The units of a body -/

def letterEscapes : List (Char × Char) :=
  [('n', '\n'), ('f', '\x0c'), ('r', '\r'), ('t', '\t'), ('v', '\x0b'), ('\'', '\''), ('"', '"'),
    ('\\', '\\')]

/-- What follows the backslash of an escape, and the character that it writes. The code of a
character is never that of half a pair. -/
inductive Escape : List Char → Char → Prop
  | letter {letter c : Char} (h : (letter, c) ∈ letterEscapes) : Escape [letter] c
  | code {digits : List Char} {c : Char} (h : HexCode digits c.toNat) : Escape ('u' :: digits) c
  | pair {digits digits' : List Char} {high low : Nat} {c : Char} (first : HexCode digits high)
      (second : HexCode digits' low) (hhigh : 0xd800 ≤ high ∧ high ≤ 0xdbff)
      (hlow : 0xdc00 ≤ low ∧ low ≤ 0xdfff)
      (h : c.toNat = 0x10000 + (high - 0xd800) * 0x400 + (low - 0xdc00)) :
      Escape ('u' :: digits ++ '\\' :: 'u' :: digits') c

/-- A unit between two quotes, and the character that it writes. -/
inductive StringUnit (quote : Char) : List Char → Char → Prop
  | itself {c : Char} (no_quote : c ≠ quote) (no_escape : c ≠ '\\') : StringUnit quote [c] c
  | escape {written : List Char} {c : Char} (h : Escape written c) :
      StringUnit quote ('\\' :: written) c

/-- What stands between two quotes, and the characters that it writes. -/
inductive StringBody (quote : Char) : List Char → List Char → Prop
  | nil : StringBody quote [] []
  | cons {unit body characters : List Char} {c : Char} (first : StringUnit quote unit c)
      (rest : StringBody quote body characters) :
      StringBody quote (unit ++ body) (c :: characters)

/-! ## Escapes -/

theorem simpleEscape?_eq_some {letter c : Char} :
    simpleEscape? letter = some c ↔ (letter, c) ∈ letterEscapes := by
  constructor
  · intro h
    unfold simpleEscape? at h
    split at h <;> cases h <;> decide
  · intro h
    simp only [letterEscapes, List.mem_cons, Prod.mk.injEq, List.not_mem_nil, or_false] at h
    rcases h with ⟨rfl, rfl⟩ | ⟨rfl, rfl⟩ | ⟨rfl, rfl⟩ | ⟨rfl, rfl⟩ | ⟨rfl, rfl⟩ | ⟨rfl, rfl⟩ |
      ⟨rfl, rfl⟩ | ⟨rfl, rfl⟩ <;> rfl

theorem unicodeEscape?_pair {digits digits' : List Char} {high low : Nat} {c : Char}
    (first : HexCode digits high) (second : HexCode digits' low)
    (hhigh : 0xd800 ≤ high ∧ high ≤ 0xdbff) (hlow : 0xdc00 ≤ low ∧ low ≤ 0xdfff)
    (h : c.toNat = 0x10000 + (high - 0xd800) * 0x400 + (low - 0xdc00)) (rest : List Char) :
    unicodeEscape? (digits ++ '\\' :: 'u' :: digits' ++ rest) = some (c, 10) := by
  have hdrop : (digits ++ ('\\' :: 'u' :: digits' ++ rest)).drop 4 =
      '\\' :: 'u' :: (digits' ++ rest) := by
    rw [← first.length, List.drop_left]
    rfl
  rw [List.append_assoc, unicodeEscape?, first.hexQuad?, Option.bind_eq_bind, Option.bind_some,
    if_pos (by simpa [isHighSurrogate] using hhigh), hdrop]
  simp only [second.hexQuad?, Option.bind_some]
  rw [if_pos (by simpa [isLowSurrogate] using hlow), ofSurrogates, ← h, Char.ofNat_toNat]

theorem escape_of_unicodeEscape? {text : List Char} {c : Char} {count : Nat}
    (h : unicodeEscape? text = some (c, count)) :
    ∃ digits rest, text = digits ++ rest ∧ count = digits.length ∧ Escape ('u' :: digits) c := by
  obtain ⟨code, hquad, h⟩ := Option.bind_eq_some_iff.mp h
  obtain ⟨digits, after, rfl, hcode⟩ := hexCode_of_hexQuad? hquad
  have hlt := hcode.lt
  cases hhigh : isHighSurrogate code with
  | true =>
    rw [if_pos hhigh, ← hcode.length, List.drop_left] at h
    split at h
    case h_2 => cases h
    case h_1 more =>
      obtain ⟨low, hquad', hpair⟩ := Option.bind_eq_some_iff.mp h
      obtain ⟨digits', rest, rfl, hcode'⟩ := hexCode_of_hexQuad? hquad'
      cases hlow : isLowSurrogate low with
      | false =>
        rw [if_neg (by simp [hlow])] at hpair
        cases hpair
      | true =>
        rw [if_pos hlow] at hpair
        obtain ⟨rfl, rfl⟩ := Prod.mk.inj (Option.some.inj hpair)
        simp only [isHighSurrogate, isLowSurrogate, Bool.and_eq_true, decide_eq_true_eq]
          at hhigh hlow
        refine ⟨digits ++ '\\' :: 'u' :: digits', rest, by simp, ?_,
          .pair hcode hcode' hhigh hlow ?_⟩
        · simp [hcode.length, hcode'.length]
        · apply toNat_ofNat_of_not_surrogate
          · omega
          · simp only [isHighSurrogate, Bool.and_eq_false_iff, decide_eq_false_iff_not]
            omega
          · simp only [isLowSurrogate, Bool.and_eq_false_iff, decide_eq_false_iff_not]
            omega
  | false =>
    rw [if_neg (by simp [hhigh])] at h
    cases hlow : isLowSurrogate code with
    | true =>
      rw [if_pos hlow] at h
      cases h
    | false =>
      rw [if_neg (by simp [hlow])] at h
      obtain ⟨rfl, rfl⟩ := Prod.mk.inj (Option.some.inj h)
      refine ⟨digits, after, rfl, hcode.length.symm, .code ?_⟩
      rwa [toNat_ofNat_of_not_surrogate (by omega) hhigh hlow]

theorem Escape.escapeAt {written : List Char} {c : Char} (h : Escape written c)
    (rest : List Char) : TemplateExpr.escapeAt (written ++ rest) = .ok (c, written.length) := by
  cases h with
  | @letter letter _ h =>
    have hletter : letter ≠ 'u' := by
      rintro rfl
      simp [letterEscapes] at h
    rw [List.singleton_append, TemplateExpr.escapeAt, if_neg hletter, simpleEscape?_eq_some.mpr h]
    rfl
  | code h =>
    rw [List.cons_append, TemplateExpr.escapeAt, if_pos rfl,
      unicodeEscape?_of_hexQuad? (h.hexQuad? rest), List.length_cons, h.length]
  | pair first second hhigh hlow h =>
    rw [List.cons_append, List.cons_append, TemplateExpr.escapeAt, if_pos rfl,
      unicodeEscape?_pair first second hhigh hlow h]
    simp [first.length, second.length]

theorem escape_of_escapeAt {text : List Char} {c : Char} {count : Nat}
    (h : escapeAt text = .ok (c, count)) :
    ∃ written rest, text = written ++ rest ∧ count = written.length ∧ Escape written c := by
  unfold escapeAt at h
  split at h
  · cases h
  · next first rest =>
    split at h
    · next hfirst =>
      subst hfirst
      split at h
      · next value count hunicode =>
        obtain ⟨rfl, rfl⟩ := Prod.mk.inj (Except.ok.inj h)
        obtain ⟨digits, rest, rfl, rfl, hescape⟩ := escape_of_unicodeEscape? hunicode
        exact ⟨'u' :: digits, rest, rfl, rfl, hescape⟩
      · cases h
    · split at h
      · next value hsimple =>
        obtain ⟨rfl, rfl⟩ := Prod.mk.inj (Except.ok.inj h)
        exact ⟨[first], rest, rfl, rfl, .letter (simpleEscape?_eq_some.mp hsimple)⟩
      · cases h

/-! ## Bodies -/

namespace Cursor

variable {quote : Char}

theorem scanBody_unit (hquote : quote ≠ '\\') {unit : List Char} {c : Char}
    (h : StringUnit quote unit c) (opening : Nat) (rest : List Char) (offset : Nat) :
    scanBody quote opening (unit ++ rest) offset =
      ((scanBody quote opening rest (offset + unit.length)).1.map (c :: ·),
        (scanBody quote opening rest (offset + unit.length)).2) := by
  cases h with
  | itself no_quote no_escape =>
    rw [List.singleton_append, scanBody, if_neg no_quote, if_neg no_escape]
    rfl
  | @escape written c h =>
    rw [List.cons_append, scanBody, if_neg hquote.symm, if_pos rfl, h.escapeAt]
    simp only [List.drop_left, List.length_cons, Nat.add_assoc, Nat.add_comm 1]

theorem scanBody_of_stringBody (hquote : quote ≠ '\\') {body characters : List Char}
    (h : StringBody quote body characters) (opening : Nat) (rest : List Char) (offset : Nat) :
    scanBody quote opening (body ++ quote :: rest) offset =
      (.ok characters, ⟨rest, offset + body.length + 1⟩) := by
  induction h generalizing offset with
  | nil =>
    rw [List.nil_append, scanBody, if_pos rfl]
    rfl
  | cons first _ ih =>
    rw [List.append_assoc, scanBody_unit hquote first, ih, List.length_append]
    simp [Except.map, Nat.add_assoc]

theorem stringBody_of_scanBody {opening : Nat} {text : List Char} {offset : Nat}
    {characters : List Char} {closed : Cursor}
    (h : scanBody quote opening text offset = (.ok characters, closed)) :
    ∃ body, text = body ++ quote :: closed.rest ∧ StringBody quote body characters := by
  fun_induction scanBody quote opening text offset generalizing characters closed with
  | case1 | case4 | case5 | case6 => cases h
  | case2 offset after =>
    cases h
    exact ⟨[], rfl, .nil⟩
  | case3 offset after value count hescape part stop hscan hquote ih =>
    obtain fault | tail := part
    · cases h
    cases h
    obtain ⟨written, rest, rfl, rfl, hwritten⟩ := escape_of_escapeAt hescape
    simp only [List.drop_left] at hscan ih
    obtain ⟨body, hbody, hcharacters⟩ := ih hscan
    refine ⟨'\\' :: written ++ body, ?_, .cons (.escape hwritten) hcharacters⟩
    rw [hbody, List.cons_append, List.cons_append, List.append_assoc]
  | case7 offset c after hquote hslash part stop hscan ih =>
    obtain fault | tail := part
    · cases h
    cases h
    obtain ⟨body, hbody, hcharacters⟩ := ih hscan
    exact ⟨c :: body, by rw [hbody]; rfl, .cons (.itself hquote hslash) hcharacters⟩

theorem isBlank_of_quote (hquote : quote = '\'' ∨ quote = '"') : isBlank quote = false := by
  have hblank : isBlank '\'' = false ∧ isBlank '"' = false := by decide
  rcases hquote with rfl | rfl
  · exact hblank.1
  · exact hblank.2

theorem nextToken_quote (hquote : quote = '\'' ∨ quote = '"') (rest : List Char) (offset : Nat) :
    nextToken quote ⟨quote :: rest, offset⟩ = nextString quote ⟨quote :: rest, offset⟩ := by
  have hpoint : quote ≠ '.' ∧ quote.isDigit = false := by
    rcases hquote with rfl | rfl <;> decide
  rw [nextToken, startsNumeral_cons hpoint.1, if_neg (by simp [hpoint.2]), if_pos hquote]

/-- A body between quotes is one constant, wherever it stands. -/
theorem passes_string (hquote : quote = '\'' ∨ quote = '"') {body characters : List Char}
    (h : StringBody quote body characters) (rest : List Char) (offset : Nat) :
    Passes ⟨quote :: body ++ quote :: rest, offset⟩
      [⟨String.ofList (quote :: body ++ [quote]), .constant (.text (String.ofList characters)),
        offset⟩]
      ⟨rest, offset + body.length + 2⟩ := by
  have hslash : quote ≠ '\\' := by
    rcases hquote with rfl | rfl <;> decide
  have hscan := scanBody_of_stringBody hslash h offset rest (offset + 1)
  have hclosed : offset + 1 + body.length + 1 = offset + body.length + 2 := by omega
  rw [hclosed] at hscan
  have htext : (quote :: body ++ quote :: rest).take (offset + body.length + 2 - offset) =
      quote :: body ++ [quote] := by
    have hcount : offset + body.length + 2 - offset = (quote :: body ++ [quote]).length := by
      rw [List.length_append, List.length_cons, List.length_singleton]
      omega
    rw [hcount, ← List.singleton_append (l := rest), ← List.append_assoc, List.take_left]
  apply passes_token rfl (isBlank_of_quote hquote)
  rw [List.cons_append, nextToken_quote hquote, nextString]
  simp only [List.drop_one, List.tail_cons, hscan]
  rw [← List.cons_append, htext]

theorem next_of_tokensFrom {cursor : Cursor} {token : Token} {ts : List Token}
    (h : cursor.tokensFrom = .ok (token :: ts)) :
    ∃ after, cursor.next = (.ok (some token), after) := by
  rw [tokensFrom_eq] at h
  rcases hnext : cursor.next with ⟨step, after⟩
  rw [hnext] at h
  cases step with
  | error fault => cases h
  | ok found =>
    cases found with
    | none => cases h
    | some first =>
      dsimp only at h
      cases hmore : after.tokensFrom with
      | error fault =>
        rw [hmore] at h
        cases h
      | ok more =>
        rw [hmore] at h
        cases h
        exact ⟨after, rfl⟩

theorem stringBody_of_nextString {body : List Char} {value : String} {offset : Nat}
    {after : Cursor}
    (h : nextString quote ⟨quote :: body ++ [quote], offset⟩ =
      (.ok ⟨String.ofList (quote :: body ++ [quote]), .constant (.text value), offset⟩, after)) :
    StringBody quote body value.toList := by
  have hcovers := nextString_covers rfl h
  -- The token is the whole text, so nothing is left behind its closing quote.
  have hrest : after.rest = [] := by
    have htext := hcovers.text
    rw [String.toList_ofList] at htext
    exact List.append_right_eq_self.mp htext
  unfold nextString at h
  split at h
  · next characters closed hscan =>
    obtain ⟨htoken, rfl⟩ := Prod.mk.inj h
    obtain ⟨read, htext, hread⟩ := stringBody_of_scanBody hscan
    obtain ⟨-, hkind, -⟩ := Token.mk.inj (Except.ok.inj htoken)
    have hvalue := Literal.text.inj (TokenKind.constant.inj hkind)
    rw [hrest, List.cons_append, List.drop_one, List.tail_cons] at htext
    rw [List.append_cancel_right htext, ← hvalue, String.toList_ofList]
    exact hread
  · cases h

end Cursor

/-! ## Literals -/

section

variable {quote : Char}

/-- The unit that writes a character: itself, or an escape where it would end the literal. -/
theorem exists_stringUnit (hquote : quote = '\'' ∨ quote = '"') (c : Char) :
    ∃ unit, StringUnit quote unit c := by
  by_cases hescaped : (c, c) ∈ letterEscapes
  · exact ⟨_, .escape (.letter hescaped)⟩
  · refine ⟨[c], .itself ?_ ?_⟩
    · rintro rfl
      rcases hquote with rfl | rfl <;> exact hescaped (by decide)
    · rintro rfl
      exact hescaped (by decide)

theorem exists_stringBody (hquote : quote = '\'' ∨ quote = '"') (characters : List Char) :
    ∃ body, StringBody quote body characters := by
  induction characters with
  | nil => exact ⟨[], .nil⟩
  | cons c characters ih =>
    obtain ⟨unit, hunit⟩ := exists_stringUnit hquote c
    obtain ⟨body, hbody⟩ := ih
    exact ⟨unit ++ body, .cons hunit hbody⟩

/-- **A text between quotes is one constant exactly if it is a body**, and its value is what the
body writes. Every text can be written so, in either quotes. -/
theorem tokenize_quoted_iff (hquote : quote = '\'' ∨ quote = '"') :
    (∀ (body : List Char) (value : String),
      tokenize (String.ofList (quote :: body ++ [quote])) =
          .ok [⟨String.ofList (quote :: body ++ [quote]), .constant (.text value), 0⟩] ↔
        StringBody quote body value.toList) ∧
    ∀ value : String, ∃ body, StringBody quote body value.toList ∧
      tokenize (String.ofList (quote :: body ++ [quote])) =
        .ok [⟨String.ofList (quote :: body ++ [quote]), .constant (.text value), 0⟩] := by
  have hread : ∀ (body : List Char) (value : String), StringBody quote body value.toList →
      tokenize (String.ofList (quote :: body ++ [quote])) =
        .ok [⟨String.ofList (quote :: body ++ [quote]), .constant (.text value), 0⟩] := by
    intro body value h
    have hpasses := Cursor.passes_string hquote h [] 0
    have hend : (Cursor.mk [] (0 + body.length + 2)).tokensFrom = .ok [] := by
      rw [Cursor.tokensFrom_eq]
      rfl
    rw [Cursor.Passes, hend, String.ofList_toList] at hpasses
    rw [tokenize, Cursor.start, String.toList_ofList]
    exact hpasses
  refine ⟨fun body value => ⟨fun h => ?_, hread body value⟩, fun value => ?_⟩
  · rw [tokenize, Cursor.start, String.toList_ofList] at h
    obtain ⟨after, hnext⟩ := Cursor.next_of_tokensFrom h
    obtain ⟨first, tail, hfirst, htoken⟩ := Cursor.next_token hnext
    have hhere : (Cursor.mk (quote :: body ++ [quote]) 0).skipBlanks =
        ⟨quote :: body ++ [quote], 0⟩ := by
      rw [Cursor.skipBlanks, List.cons_append, List.takeWhile_cons,
        Cursor.isBlank_of_quote hquote]
      rfl
    rw [hhere] at hfirst htoken
    obtain ⟨rfl, -⟩ := List.cons.inj hfirst
    rw [List.cons_append, Cursor.nextToken_quote hquote] at htoken
    exact Cursor.stringBody_of_nextString htoken
  · obtain ⟨body, hbody⟩ := exists_stringBody hquote value.toList
    exact ⟨body, hbody, hread body value hbody⟩

/-- Both halves of a pair in digits of either case, an escaped quote, and a bare quote of the other
kind. -/
theorem tokenize_quoted_pair :
    let body := ['\\', 'u', 'D', '8', '3', 'D', '\\', 'u', 'd', 'e', '0', '0', '\\', '"', '\'']
    tokenize (String.ofList ('"' :: body ++ ['"'])) =
      .ok [⟨String.ofList ('"' :: body ++ ['"']), .constant (.text "😀\"'"), 0⟩] := by
  intro body
  have hhigh : HexCode ['D', '8', '3', 'D'] (13 * 16 ^ 3 + 8 * 16 ^ 2 + 3 * 16 + 13) :=
    .quad (.inr rfl) (.inl rfl) (.inl rfl) (.inr rfl)
  have hlow : HexCode ['d', 'e', '0', '0'] (13 * 16 ^ 3 + 14 * 16 ^ 2 + 0 * 16 + 0) :=
    .quad (.inl rfl) (.inl rfl) (.inl rfl) (.inl rfl)
  have hpair : Escape ['u', 'D', '8', '3', 'D', '\\', 'u', 'd', 'e', '0', '0'] '😀' :=
    .pair hhigh hlow (by decide) (by decide) (by decide)
  have hbody : StringBody '"' body ['😀', '"', '\''] :=
    .cons (.escape hpair) (.cons (.escape (.letter (by decide)))
      (.cons (.itself (by decide) (by decide)) .nil))
  exact ((tokenize_quoted_iff (.inr rfl)).1 body "😀\"'").mpr hbody

end

end TemplateExpr

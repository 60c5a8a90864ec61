import Mathlib
import TemplateExpr.Proofs.Token.Word

/-!
# Number literals

What a number literal looks like, which value it has and when it is an error, without a scanner. A
numeral is an integer exactly if it is made of digits and in range, and any other is the float that
it spells (`NumberToken`). Every numeral spells one, so the error of a numeral without a value never
occurs (`Cursor.next_ne_invalidNumber`). What does occur is a mantissa with an `e` behind it that
starts no exponent (`StrayExponent`), and nothing else keeps a numeral from being read
(`Cursor.nextNumber_stray`, `Cursor.nextNumber_read`).
-/

namespace TemplateExpr

open Text Number

/-! ## Every numeral spells a float -/

section

variable {whole fraction exponent : List Char}

theorem readExponent?_isExponent (h : IsExponent exponent) :
    ∃ power, readExponent? exponent = some power := by
  cases h with
  | none => exact ⟨0, rfl⟩
  | @some letter sign digits hletter hsign hdigits hsome =>
    have hspan : ∃ negative, spanSign (sign ++ digits) = (negative, digits) := by
      obtain ⟨first, tail, rfl⟩ := List.exists_cons_of_ne_nil hsome
      rcases hsign with rfl | rfl | rfl
      · exact ⟨false, spanSign_of_isDigit (hdigits first List.mem_cons_self) tail⟩
      · exact ⟨false, rfl⟩
      · exact ⟨true, rfl⟩
    obtain ⟨negative, hspan⟩ := hspan
    have hall : digits ≠ [] ∧ digits.all Char.isDigit = true :=
      ⟨hsome, List.all_eq_true.mpr hdigits⟩
    rw [List.cons_append, readExponent?, if_pos hletter, hspan]
    exact ⟨_, if_pos hall⟩

theorem readUnsigned?_whole (h : ∀ c ∈ whole, c.isDigit = true) (hsome : whole ≠ [])
    (hexponent : IsExponent exponent) (negative : Bool) :
    readUnsigned? negative (whole ++ exponent) = (readExponent? exponent).map fun power =>
      ofDecimal negative (digitsValue whole) power := by
  have hends := head?_exponent hexponent .nil
  rw [List.append_nil] at hends
  unfold readUnsigned?
  rw [spanDigits_append h fun c hc => (hends c hc).1]
  dsimp only
  split
  · next after => exact absurd rfl (hends '.' rfl).2
  · simp [hsome]

theorem readUnsigned?_point (h : ∀ c ∈ whole, c.isDigit = true)
    (h' : ∀ c ∈ fraction, c.isDigit = true) (hsome : whole ≠ [] ∨ fraction ≠ [])
    (hexponent : IsExponent exponent) (negative : Bool) :
    readUnsigned? negative (whole ++ '.' :: fraction ++ exponent) =
      (readExponent? exponent).map fun power =>
        ofDecimal negative (digitsValue (whole ++ fraction)) (power - fraction.length) := by
  have hends := head?_exponent hexponent .nil
  rw [List.append_nil] at hends
  have hnonempty : ¬whole ++ fraction = [] := by
    rw [List.append_eq_nil_iff]
    tauto
  unfold readUnsigned?
  rw [List.append_assoc, List.cons_append, spanDigits_append h (by rintro c ⟨⟩; rfl)]
  simp only [spanDigits_append h' fun c hc => (hends c hc).1, if_neg hnonempty]

theorem readFloat?_of_readUnsigned? {word : List Char} {x : Float}
    (hsign : spanSign word = (false, word)) (h : readUnsigned? false word = some x) :
    readFloat? word = some x := by
  rw [readFloat?, hsign]
  simp only [h]

theorem IsMantissa.spanSign {mantissa : List Char} (h : IsMantissa mantissa) (rest : List Char) :
    spanSign (mantissa ++ rest) = (false, mantissa ++ rest) := by
  obtain ⟨first, tail, hfirst, -, hstarts⟩ := h.starts rest
  rw [hfirst]
  by_cases hpoint : first = '.'
  · subst hpoint
    rfl
  · rw [Cursor.startsNumeral_cons hpoint] at hstarts
    exact spanSign_of_isDigit hstarts tail

/-- **Every numeral spells a float.** -/
theorem IsNumeral.readUnsigned? {word : List Char} (h : IsNumeral word) :
    ∃ x, readUnsigned? false word = some x ∧ readFloat? word = some x := by
  obtain ⟨mantissa, exponent, rfl, hmantissa, hexponent⟩ := h
  obtain ⟨power, hpower⟩ := readExponent?_isExponent hexponent
  have hread : ∃ x, Number.readUnsigned? false (mantissa ++ exponent) = some x := by
    cases hmantissa with
    | whole h hsome =>
      rw [readUnsigned?_whole h hsome hexponent, hpower]
      exact ⟨_, rfl⟩
    | point h h' hsome =>
      rw [readUnsigned?_point h h' hsome hexponent, hpower]
      exact ⟨_, rfl⟩
  obtain ⟨x, hx⟩ := hread
  exact ⟨x, hx, readFloat?_of_readUnsigned? (hmantissa.spanSign exponent) hx⟩

def padded : List Char → List Char
  | '.' :: rest => '0' :: '.' :: rest
  | word => word

theorem readFloat?_padded {word : List Char} (h : IsNumeral word) :
    readFloat? (padded word) = readFloat? word := by
  unfold padded
  split
  case h_2 => rfl
  case h_1 rest =>
    obtain ⟨x, hx, hfloat⟩ := h.readUnsigned?
    obtain ⟨mantissa, exponent, hword, hmantissa, hexponent⟩ := h
    have hpadded : readUnsigned? false ('0' :: '.' :: rest) = some x := by
      cases hmantissa with
      | whole h hsome =>
        obtain ⟨first, tail, rfl⟩ := List.exists_cons_of_ne_nil hsome
        cases hword
        cases h '.' List.mem_cons_self
      | @point whole fraction h h' hsome =>
        cases whole with
        | cons first tail =>
          cases hword
          cases h '.' List.mem_cons_self
        | nil =>
          have hdigit : ∀ c ∈ ['0'], c.isDigit = true := by simp
          have hzero := readUnsigned?_point hdigit h' (by simp) hexponent false
          rw [hword, readUnsigned?_point h h' hsome hexponent] at hx
          rw [hword]
          exact hzero.trans hx
    rw [hfloat]
    exact readFloat?_of_readUnsigned? rfl hpadded

end

/-! ## The value of a numeral -/

def IsInRange (word : List Char) : Prop :=
  (∀ c ∈ word, c.isDigit = true) ∧ (digitsValue word : Int) ≤ maxInt

structure NumberToken (word : List Char) (value : Literal) : Prop where
  form : IsNumeral word
  integer_iff : (∃ n, value = .integer n) ↔ IsInRange word
  /-- An integer is exact. -/
  toInt_eq : ∀ n, value = .integer n → n.toInt = digitsValue word
  /-- Every other numeral is the float that it spells. -/
  float_eq : ¬IsInRange word → ∃ x, readFloat? (padded word) = some x ∧ value = .float x

section

variable {word : List Char}

theorem numeralValue?_inRange (h : IsInRange word) :
    ∃ n : Int64, numeralValue? word = some (.integer n) ∧ n.toInt = digitsValue word := by
  obtain ⟨hdigits, hle⟩ := h
  have hrange : minInt ≤ (digitsValue word : Int) ∧ (digitsValue word : Int) ≤ maxInt :=
    ⟨by unfold minInt; omega, hle⟩
  refine ⟨Int64.ofInt (digitsValue word), ?_, toInt_ofInt hrange⟩
  rw [numeralValue?, if_pos (List.all_eq_true.mpr hdigits), toWord?, if_pos hrange]

theorem numeralValue?_float (h : ¬IsInRange word) :
    numeralValue? word = (readFloat? word).map .float := by
  unfold numeralValue?
  split
  case isFalse => rfl
  case isTrue hdigits =>
    have hword : toWord? (digitsValue word : Int) = none := by
      rw [toWord?, if_neg]
      exact fun hrange => h ⟨List.all_eq_true.mp hdigits, hrange.2⟩
    rw [hword]

/-- **Every numeral has a value**, and it is the integer or the float that it spells. -/
theorem IsNumeral.numeralValue? (h : IsNumeral word) :
    ∃ value, numeralValue? word = some value ∧ NumberToken word value := by
  by_cases hrange : IsInRange word
  · obtain ⟨n, hvalue, hn⟩ := numeralValue?_inRange hrange
    refine ⟨.integer n, hvalue, h, ⟨fun _ => hrange, fun _ => ⟨n, rfl⟩⟩, ?_, absurd hrange⟩
    rintro _ ⟨⟩
    exact hn
  · obtain ⟨x, -, hx⟩ := h.readUnsigned?
    have hvalue : TemplateExpr.numeralValue? word = some (.float x) := by
      rw [numeralValue?_float hrange, hx]
      rfl
    refine ⟨.float x, hvalue, h, ⟨?_, fun h => absurd h hrange⟩, ?_,
      fun _ => ⟨x, (readFloat?_padded h).trans hx, rfl⟩⟩
    · rintro ⟨n, ⟨⟩⟩
    · rintro n ⟨⟩

theorem IsWord.numberToken {value : Literal} (h : IsWord word (.constant value))
    (htext : ∀ body, value ≠ .text body) : NumberToken word value := by
  cases h with
  | numeral h hvalue =>
    obtain ⟨value', hvalue', htoken⟩ := h.numeralValue?
    rw [hvalue] at hvalue'
    cases hvalue'
    exact htoken
  | quoted => exact absurd rfl (htext _)

end

/-! ## Letters that start no exponent -/

inductive StartsExponent : List Char → Prop
  | digit {d : Char} (h : d.isDigit = true) (rest : List Char) : StartsExponent (d :: rest)
  | signed {sign d : Char} (hsign : sign = '+' ∨ sign = '-') (h : d.isDigit = true)
      (rest : List Char) : StartsExponent (sign :: d :: rest)

/-- A letter of an exponent with none behind it. -/
def StrayExponent (text : List Char) : Prop :=
  ∃ letter after, text = letter :: after ∧ (letter = 'e' ∨ letter = 'E') ∧ ¬StartsExponent after

theorem startsExponent_cons {s : Char} {more : List Char} :
    StartsExponent (s :: more) ↔ s.isDigit = true ∨
      ((s = '+' ∨ s = '-') ∧ ∃ d rest, more = d :: rest ∧ d.isDigit = true) := by
  constructor
  · intro h
    cases h with
    | digit h => exact .inl h
    | signed hsign h rest => exact .inr ⟨hsign, _, rest, rfl, h⟩
  · rintro (h | ⟨hsign, d, rest, rfl, h⟩)
    · exact .digit h more
    · exact .signed hsign h rest

theorem spanDigits_eq_nil {text : List Char} :
    (spanDigits text).1 = [] ↔ ¬∃ d rest, text = d :: rest ∧ d.isDigit = true := by
  cases text with
  | nil => simp [spanDigits]
  | cons c text => simp [spanDigits, List.takeWhile_cons]

/-- **An exponent is missing exactly where its letter stands alone.** -/
theorem spanExponent?_eq_none {text : List Char} :
    spanExponent? text = none ↔ StrayExponent text := by
  cases text with
  | nil => simp [spanExponent?, StrayExponent]
  | cons letter after =>
    have hdigits : ∀ head unsigned, (if (spanDigits unsigned).1 = [] then none
        else some (head ++ (spanDigits unsigned).1, (spanDigits unsigned).2)) = none ↔
          ¬∃ d rest, unsigned = d :: rest ∧ d.isDigit = true := by
      intro head unsigned
      rw [← spanDigits_eq_nil]
      split <;> simp [*]
    have hstray : StrayExponent (letter :: after) ↔
        (letter = 'e' ∨ letter = 'E') ∧ ¬StartsExponent after := by
      simp [StrayExponent]
    rw [hstray]
    unfold spanExponent?
    dsimp only
    by_cases hletter : letter = 'e' ∨ letter = 'E'
    case neg => simp [hletter]
    case pos =>
      rw [if_pos hletter, and_iff_right hletter]
      cases after with
      | nil =>
        have hnot : ¬StartsExponent [] := fun h => nomatch h
        simpa [hnot] using hdigits [letter] []
      | cons s more =>
        dsimp only
        rw [startsExponent_cons]
        by_cases hsign : s = '+' ∨ s = '-'
        · have hdigit : s.isDigit = false := by rcases hsign with rfl | rfl <;> rfl
          simp only [if_pos hsign, hdigits]
          simp [hsign, hdigit]
        · simp only [if_neg hsign, hdigits]
          simp [hsign]

/-! ## Scanning a numeral -/

namespace Cursor

variable {cursor : Cursor}

theorem spanMantissa_drop (text : List Char) :
    (spanMantissa text).2 = text.drop (spanMantissa text).1.length := by
  have hdrop := congrArg (List.drop (spanMantissa text).1.length) (spanMantissa_text text)
  rwa [List.drop_left] at hdrop

theorem nextNumber_stray (h : StrayExponent (spanMantissa cursor.rest).2) :
    cursor.nextNumber = (.error (.invalidExponent
      (cursor.offset + (spanMantissa cursor.rest).1.length)),
        cursor.skip (spanMantissa cursor.rest).1.length) := by
  unfold nextNumber
  simp only [spanExponent?_eq_none.mpr h]
  rfl

theorem nextNumber_read (hstarts : startsNumeral cursor.rest = true)
    (h : ¬StrayExponent (spanMantissa cursor.rest).2) :
    ∃ token after, cursor.nextNumber = (.ok token, after) := by
  rw [← spanExponent?_eq_none, ← Ne, Option.ne_none_iff_exists'] at h
  obtain ⟨⟨exponent, rest⟩, hspan⟩ := h
  obtain ⟨value, hvalue, -⟩ := (longest_numeral hstarts hspan).isWord.numeralValue?
  unfold nextNumber
  simp only [hspan, hvalue]
  exact ⟨_, _, rfl⟩

theorem next_of_startsNumeral (h : startsNumeral cursor.skipBlanks.rest = true) :
    cursor.next =
      (cursor.skipBlanks.nextNumber.1.map some, cursor.skipBlanks.nextNumber.2) := by
  unfold next
  dsimp only
  split
  · next hrest =>
    rw [hrest] at h
    cases h
  · rw [nextToken, if_pos h]

/-! ## The error that does not occur -/

theorem scanBody_ne_invalidNumber {quote : Char} {opening : Nat} {rest : List Char} {offset : Nat}
    {text : String} {position : Nat} :
    (scanBody quote opening rest offset).1 ≠ .error (.invalidNumber text position) := by
  fun_induction scanBody quote opening rest offset with
  | case1 | case2 | case4 | case5 | case6 => rintro ⟨⟩
  | case3 offset after value count hescape part stop hscan hquote ih =>
    rw [hscan] at ih
    cases part with
    | error fault => exact ih
    | ok tail => rintro ⟨⟩
  | case7 offset c after hquote hslash part stop hscan ih =>
    rw [hscan] at ih
    cases part with
    | error fault => exact ih
    | ok tail => rintro ⟨⟩

theorem nextToken_ne_invalidNumber {first : Char} {text : String} {position : Nat} :
    (cursor.nextToken first).1 ≠ .error (.invalidNumber text position) := by
  unfold nextToken
  split
  case isTrue hstarts =>
    by_cases hstray : StrayExponent (spanMantissa cursor.rest).2
    · rw [nextNumber_stray hstray]
      rintro ⟨⟩
    · obtain ⟨token, after, hread⟩ := nextNumber_read hstarts hstray
      rw [hread]
      rintro ⟨⟩
  split
  case isTrue hquote =>
    unfold nextString
    split
    · rintro ⟨⟩
    · next fault stop hscan =>
      rintro ⟨⟩
      exact scanBody_ne_invalidNumber (congrArg Prod.fst hscan)
  split
  · rintro ⟨⟩
  split
  · rintro ⟨⟩
  · unfold nextOperator
    split <;> rintro ⟨⟩

/-- No place of any source has a numeral without a value. -/
theorem next_ne_invalidNumber {text : String} {position : Nat} :
    cursor.next.1 ≠ .error (.invalidNumber text position) := by
  unfold next
  dsimp only
  split
  · rintro ⟨⟩
  · next first tail hrest =>
    cases htoken : (cursor.skipBlanks.nextToken first).1 with
    | error fault =>
      rintro ⟨⟩
      exact nextToken_ne_invalidNumber htoken
    | ok token => rintro ⟨⟩

theorem tokensFrom_ne_invalidNumber {text : String} {position : Nat} :
    cursor.tokensFrom ≠ .error (.invalidNumber text position) := by
  induction cursor using tokensFrom.induct with
  | case1 cursor stop hnext =>
    rw [tokensFrom_eq, hnext]
    rintro ⟨⟩
  | case2 cursor token after hnext ih =>
    rw [tokensFrom_eq, hnext]
    dsimp only
    cases hafter : after.tokensFrom with
    | error fault =>
      rw [hafter] at ih
      exact ih
    | ok more => rintro ⟨⟩
  | case3 cursor fault stop hnext =>
    rw [tokensFrom_eq, hnext]
    rintro ⟨⟩
    exact next_ne_invalidNumber (congrArg Prod.fst hnext)

end Cursor

/-! ## The law -/

/-- **Number literals are what the grammar says.** No source has a numeral without a value. The
constants of a source that are no texts are numerals with the value that they spell. And where a
numeral starts, the longest mantissa decides: the scanner fails exactly if a letter of an exponent
stands behind it with no exponent, and then it fails at that letter. -/
theorem tokenize_numbers (source : String) :
    (∀ text position, tokenize source ≠ .error (.invalidNumber text position)) ∧
    (∀ ts, tokenize source = .ok ts → ∀ token ∈ ts, ∀ value, token.kind = .constant value →
      (∀ body, value ≠ .text body) → NumberToken token.text.toList value) ∧
    ∀ cursor : Cursor, Cursor.startsNumeral cursor.skipBlanks.rest = true →
      ∃ mantissa, Longest IsMantissa mantissa cursor.skipBlanks.rest ∧
        ((∃ fault stop, cursor.next = (.error fault, stop)) ↔
          StrayExponent (cursor.skipBlanks.rest.drop mantissa.length)) ∧
        ∀ fault stop, cursor.next = (.error fault, stop) →
          fault = .invalidExponent (cursor.skipBlanks.offset + mantissa.length) := by
  refine ⟨fun text position => Cursor.tokensFrom_ne_invalidNumber, ?_, ?_⟩
  · intro ts hread token htoken value hkind htext
    have hword := tokenize_isWord hread token htoken
    rw [hkind] at hword
    exact hword.numberToken htext
  · intro cursor hstarts
    refine ⟨_, longest_mantissa hstarts, ?_⟩
    rw [Cursor.next_of_startsNumeral hstarts, ← Cursor.spanMantissa_drop]
    by_cases hstray : StrayExponent (spanMantissa cursor.skipBlanks.rest).2
    · rw [Cursor.nextNumber_stray hstray]
      refine ⟨⟨fun _ => hstray, fun _ => ⟨_, _, rfl⟩⟩, ?_⟩
      rintro _ _ ⟨⟩
      rfl
    · obtain ⟨token, after, hread⟩ := Cursor.nextNumber_read hstarts hstray
      rw [hread]
      refine ⟨⟨?_, fun h => absurd h hstray⟩, ?_⟩
      · rintro ⟨_, _, ⟨⟩⟩
      · rintro _ _ ⟨⟩

/-- Digits that are in range, and a mantissa in front of a letter with a sign and no digit. -/
theorem tokenize_numbers_stray :
    (∃ ts, tokenize "12+7" = .ok ts ∧ ∀ token ∈ ts, ∀ value, token.kind = .constant value →
      (∀ body, value ≠ .text body) → NumberToken token.text.toList value) ∧
    ∃ mantissa, Longest IsMantissa mantissa ['1', '.', '2', 'e', '+', 'x'] ∧
      StrayExponent (['1', '.', '2', 'e', '+', 'x'].drop mantissa.length) := by
  obtain ⟨-, hvalues, hfails⟩ := tokenize_numbers "12+7"
  obtain ⟨ts, hts⟩ : ∃ ts, tokenize "12+7" = .ok ts := ⟨_, by cbv⟩
  obtain ⟨mantissa, hlongest, hstray, -⟩ :=
    hfails ⟨[' ', '1', '.', '2', 'e', '+', 'x'], 4⟩ (by decide +kernel)
  have hnext : (Cursor.mk [' ', '1', '.', '2', 'e', '+', 'x'] 4).next =
      (.error (.invalidExponent 8), ⟨['e', '+', 'x'], 8⟩) := by cbv
  exact ⟨⟨ts, hts, hvalues ts hts⟩, mantissa, hlongest, hstray.mp ⟨_, _, hnext⟩⟩

end TemplateExpr

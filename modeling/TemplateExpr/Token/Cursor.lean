import TemplateExpr.Token.Lexeme

/-!
# Scanning

A `Cursor` stands between two characters of a source: it holds the characters that follow and how
many were passed. `Cursor.next` reads one token and says where the cursor is afterwards, also when
it fails, so that scanning can be taken up again behind an error.

A token always moves the cursor forward (`next_shrinks`), which bounds `tokensFrom` by what is left
of the source.
-/

namespace TemplateExpr

open Text Number

/-- Why a source cannot be split into tokens. Positions count characters from its start. -/
inductive LexError where
  | unexpectedCharacter (c : Char) (position : Nat)
  | invalidExponent (position : Nat)
  | invalidNumber (text : String) (position : Nat)
  | unterminatedString (position : Nat)
  | invalidEscape (c : Char) (position : Nat)
  | invalidUnicodeEscape (digits : String) (position : Nat)
deriving DecidableEq

def LexError.message : LexError → String
  | .unexpectedCharacter c p =>
    "Unexpected character '" ++ c.toString ++ "' at position " ++ toString p
  | .invalidExponent p => "Invalid exponent in number literal at position " ++ toString p
  | .invalidNumber text p => "Invalid number literal '" ++ text ++ "' at position " ++ toString p
  | .unterminatedString p => "Unterminated string starting at position " ++ toString p
  | .invalidEscape c p =>
    "Invalid escape sequence '\\" ++ c.toString ++ "' at position " ++ toString p
  | .invalidUnicodeEscape digits p =>
    "Invalid unicode escape '\\u" ++ digits ++ "' at position " ++ toString p

/-- A place in a source: the characters that follow, and the number of those passed. -/
structure Cursor where
  rest : List Char
  offset : Nat
deriving DecidableEq

namespace Cursor

def start (source : String) : Cursor := ⟨source.toList, 0⟩

def skip (cursor : Cursor) (count : Nat) : Cursor :=
  ⟨cursor.rest.drop count, cursor.offset + count⟩

def skipBlanks (cursor : Cursor) : Cursor :=
  cursor.skip (cursor.rest.takeWhile isBlank).length

abbrev Step (α : Type) := Except LexError α × Cursor

def take (cursor : Cursor) (count : Nat) (kind : TokenKind) : Step Token :=
  (.ok ⟨String.ofList (cursor.rest.take count), kind, cursor.offset⟩, cursor.skip count)

/-! ## The classes of tokens -/

def nextName (cursor : Cursor) : Step Token :=
  cursor.take (cursor.rest.takeWhile isNamePart).length .identifier

/-- A numeral is a mantissa and, where an `e` follows, an exponent. An `e` that starts no exponent
is an error at that `e`. -/
def nextNumber (cursor : Cursor) : Step Token :=
  let (mantissa, rest) := spanMantissa cursor.rest
  match spanExponent? rest with
  | none =>
    let failed := cursor.skip mantissa.length
    (.error (.invalidExponent failed.offset), failed)
  | some (exponent, _) =>
    let numeral := mantissa ++ exponent
    match numeralValue? numeral with
    | some value => cursor.take numeral.length (.constant value)
    | none =>
      (.error (.invalidNumber (String.ofList numeral) cursor.offset), cursor.skip numeral.length)

/-- The body of a string literal that opened at `opening`: the characters it denotes, up to the
closing quote, which is passed as well. A faulty escape leaves the cursor behind its backslash. -/
def scanBody (quote : Char) (opening : Nat) (rest : List Char) (offset : Nat) :
    Step (List Char) :=
  match rest with
  | [] => (.error (.unterminatedString opening), ⟨[], offset⟩)
  | c :: after =>
    if c = quote then (.ok [], ⟨after, offset + 1⟩)
    else if c = '\\' then
      match escapeAt after with
      | .ok (value, count) =>
        let (body, closed) := scanBody quote opening (after.drop count) (offset + 1 + count)
        (body.map (value :: ·), closed)
      | .error .missing => (.error (.unterminatedString opening), ⟨after, offset + 1⟩)
      | .error (.unknown c) => (.error (.invalidEscape c offset), ⟨after, offset + 1⟩)
      | .error (.badUnicode digits) =>
        (.error (.invalidUnicodeEscape (String.ofList digits) offset), ⟨after, offset + 1⟩)
    else
      let (body, closed) := scanBody quote opening after (offset + 1)
      (body.map (c :: ·), closed)
termination_by rest.length
decreasing_by
  · simp only [List.length_drop, List.length_cons]; omega
  · simp

def nextString (quote : Char) (cursor : Cursor) : Step Token :=
  match scanBody quote cursor.offset (cursor.rest.drop 1) (cursor.offset + 1) with
  | (.ok body, closed) =>
    let text := String.ofList (cursor.rest.take (closed.offset - cursor.offset))
    (.ok ⟨text, .constant (.text (String.ofList body)), cursor.offset⟩, closed)
  | (.error fault, stopped) => (.error fault, stopped)

/-- The longest operator; a character that starts none is unexpected and is not passed. -/
def nextOperator (first : Char) (cursor : Cursor) : Step Token :=
  match operatorAt? cursor.rest with
  | some op => cursor.take op.toList.length .symbol
  | none => (.error (.unexpectedCharacter first cursor.offset), cursor)

def startsNumeral : List Char → Bool
  | '.' :: d :: _ => d.isDigit
  | c :: _ => c.isDigit
  | [] => false

def nextToken (first : Char) (cursor : Cursor) : Step Token :=
  if startsNumeral cursor.rest then cursor.nextNumber
  else if first = '\'' ∨ first = '"' then cursor.nextString first
  else if first ∈ structuralSymbols then cursor.take 1 .symbol
  else if isNameStart first then cursor.nextName
  else cursor.nextOperator first

/-- The next token, or `none` at the end of the source. Blanks in front of it are passed first. -/
def next (cursor : Cursor) : Step (Option Token) :=
  let here := cursor.skipBlanks
  match here.rest with
  | [] => (.ok none, here)
  | first :: _ =>
    let (token, after) := here.nextToken first
    (token.map some, after)

/-! ## Every token moves the cursor -/

theorem skip_rest_length (cursor : Cursor) (count : Nat) :
    (cursor.skip count).rest.length = cursor.rest.length - count := by
  simp [skip]

theorem skipBlanks_rest_length_le (cursor : Cursor) :
    cursor.skipBlanks.rest.length ≤ cursor.rest.length := by
  simp [skipBlanks, skip_rest_length]

theorem scanBody_rest_length_le (quote : Char) (opening : Nat) (rest : List Char) (offset : Nat) :
    (scanBody quote opening rest offset).2.rest.length ≤ rest.length := by
  fun_induction scanBody quote opening rest offset with
  | case1 | case2 | case4 | case5 | case6 => simp
  | case3 _ after _ _ _ body closed scanned _ ih =>
    simp only [scanned, List.length_drop] at ih
    simp only [List.length_cons]
    omega
  | case7 _ _ after _ _ body closed scanned ih =>
    simp only [scanned] at ih
    simp only [List.length_cons]
    omega

theorem spanMantissa_ne_nil {text : List Char} (h : startsNumeral text = true) :
    (spanMantissa text).1 ≠ [] := by
  unfold spanMantissa
  cases text with
  | nil => simp [startsNumeral] at h
  | cons c rest =>
    by_cases hc : c.isDigit
    · simp only [spanDigits, List.takeWhile_cons, hc, if_true]
      split <;> simp
    · have hdot : c = '.' := by
        unfold startsNumeral at h
        split at h <;> simp_all
      subst hdot
      simp [spanDigits]

theorem operatorAt?_ne_empty {text : List Char} {op : String} (h : operatorAt? text = some op) :
    op.toList ≠ [] := by
  have hmem := List.mem_of_find?_eq_some h
  have hall : ∀ op ∈ operators, op.toList ≠ [] := by decide
  exact hall op hmem

theorem take_shrinks {cursor after : Cursor} {count : Nat} {kind : TokenKind} {token : Token}
    (h : cursor.take count kind = (.ok token, after)) (hcount : 0 < count)
    (hrest : 0 < cursor.rest.length) : after.rest.length < cursor.rest.length := by
  obtain ⟨-, rfl⟩ := Prod.mk.inj h
  rw [skip_rest_length]
  omega

theorem nextNumber_shrinks {cursor after : Cursor} {token : Token}
    (h : cursor.nextNumber = (.ok token, after)) (hstart : startsNumeral cursor.rest = true)
    (hrest : 0 < cursor.rest.length) : after.rest.length < cursor.rest.length := by
  have hpos := List.length_pos_iff.mpr (spanMantissa_ne_nil hstart)
  simp only [nextNumber] at h
  split at h
  · simp at h
  · split at h
    · exact take_shrinks h (by rw [List.length_append]; omega) hrest
    · simp at h

theorem nextString_shrinks {cursor after : Cursor} {quote : Char} {token : Token}
    (h : cursor.nextString quote = (.ok token, after)) (hrest : 0 < cursor.rest.length) :
    after.rest.length < cursor.rest.length := by
  have hbody := scanBody_rest_length_le quote cursor.offset (cursor.rest.drop 1) (cursor.offset + 1)
  rw [List.length_drop] at hbody
  simp only [nextString] at h
  split at h
  · next body closed hscan =>
    obtain ⟨-, rfl⟩ := Prod.mk.inj h
    rw [hscan] at hbody
    simp only at hbody
    omega
  · simp at h

theorem nextOperator_shrinks {cursor after : Cursor} {first : Char} {token : Token}
    (h : cursor.nextOperator first = (.ok token, after)) (hrest : 0 < cursor.rest.length) :
    after.rest.length < cursor.rest.length := by
  simp only [nextOperator] at h
  split at h
  · next op hop => exact take_shrinks h (List.length_pos_iff.mpr (operatorAt?_ne_empty hop)) hrest
  · simp at h

theorem nextToken_shrinks {cursor after : Cursor} {first : Char} {tail : List Char} {token : Token}
    (hfirst : cursor.rest = first :: tail) (h : cursor.nextToken first = (.ok token, after)) :
    after.rest.length < cursor.rest.length := by
  have hrest : 0 < cursor.rest.length := by simp [hfirst]
  simp only [nextToken] at h
  split at h
  · next hstart => exact nextNumber_shrinks h hstart hrest
  · split at h
    · exact nextString_shrinks h hrest
    · split at h
      · exact take_shrinks h (by omega) hrest
      · split at h
        · next hname =>
          refine take_shrinks h ?_ hrest
          have hpart : isNamePart first = true := by
            revert hname
            simp only [isNameStart, isNamePart]
            grind
          simp [hfirst, hpart]
        · exact nextOperator_shrinks h hrest

theorem next_shrinks {cursor : Cursor} {token : Token} {after : Cursor}
    (h : cursor.next = (.ok (some token), after)) :
    after.rest.length < cursor.rest.length := by
  simp only [next] at h
  split at h
  · simp at h
  · next first tail hfirst =>
    have hblanks := skipBlanks_rest_length_le cursor
    generalize hstep : cursor.skipBlanks.nextToken first = step at h
    obtain ⟨result, stop⟩ := step
    obtain ⟨hresult, rfl⟩ := Prod.mk.inj h
    cases result with
    | error => simp [Except.map] at hresult
    | ok found =>
      exact Nat.lt_of_lt_of_le (nextToken_shrinks hfirst hstep) hblanks

def tokensFrom (cursor : Cursor) : Except LexError (List Token) :=
  match _step : cursor.next with
  | (.ok none, _) => .ok []
  | (.ok (some token), after) => (tokensFrom after).map (token :: ·)
  | (.error fault, _) => .error fault
termination_by cursor.rest.length
decreasing_by exact next_shrinks _step

end Cursor

/-- The tokens of a source. Scanning stops at the first error. -/
def tokenize (source : String) : Except LexError (List Token) :=
  (Cursor.start source).tokensFrom

end TemplateExpr

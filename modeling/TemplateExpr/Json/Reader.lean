import TemplateExpr.Json.Document
import TemplateExpr.Number.Integer
import TemplateExpr.Number.Numeral
import TemplateExpr.Text.Escape

/-!
# Reading JSON

From a text to a document, strictly by the grammar: four blanks, no comma behind the last entry, no
zero in front of a numeral, no control characters in a text, and nothing behind the document. How
deeply arrays and objects may be nested is bounded, and the bound is what reading recurses on. Of
two members with one name the later counts.

Integers that fit 64 bits are kept; every other numeral is a float, found from its first digits and
one power of ten, and a numeral too large for a float is refused.
-/

namespace TemplateExpr

open Number Text

namespace Json

/-! ## Parts of a text -/

def isSpace (c : Char) : Bool := c == ' ' || c == '\n' || c == '\r' || c == '\t'

def skipSpace (text : List Char) : List Char := text.dropWhile isSpace

theorem skipSpace_length_le (text : List Char) : (skipSpace text).length ≤ text.length :=
  (List.dropWhile_sublist isSpace).length_le

/-- What was read, and the text behind it, which is shorter than `bound`. -/
structure Found (α : Type) (bound : Nat) where
  value : α
  rest : List Char
  fits : rest.length < bound

abbrev Reader (α : Type) := (text : List Char) → Option (Found α text.length)

def symbol (c : Char) : Reader Unit := fun text =>
  match _front : skipSpace text with
  | first :: rest =>
    if first = c then
      some ⟨(), rest, by
        have h := skipSpace_length_le text
        rw [_front, List.length_cons] at h
        omega⟩
    else none
  | [] => none

/-! ## Texts -/

def simpleEscape? : Char → Option Char
  | '"' => some '"'
  | '\\' => some '\\'
  | '/' => some '/'
  | 'b' => some '\x08'
  | 'f' => some '\x0c'
  | 'n' => some '\n'
  | 'r' => some '\r'
  | 't' => some '\t'
  | _ => none

/-- The character that the text behind a backslash writes, and how many characters write it. -/
def escape? : List Char → Option (Char × Nat)
  | [] => none
  | c :: rest =>
    if c = 'u' then (unicodeEscape? rest).map fun (value, count) => (value, count + 1)
    else (simpleEscape? c).map (·, 1)

def body (text : List Char) : Option (Found (List Char) text.length) :=
  match text with
  | [] => none
  | c :: after =>
    if c = '"' then some ⟨[], after, by simp⟩
    else if c = '\\' then
      match escape? after with
      | none => none
      | some (value, count) =>
        match body (after.drop count) with
        | none => none
        | some ⟨more, rest, h⟩ =>
          some ⟨value :: more, rest, by rw [List.length_drop] at h; rw [List.length_cons]; omega⟩
    else if c.toNat < 0x20 then none
    else
      match body after with
      | none => none
      | some ⟨more, rest, h⟩ => some ⟨c :: more, rest, by rw [List.length_cons]; omega⟩
termination_by text.length
decreasing_by
  · simp only [List.length_drop, List.length_cons]; omega
  · simp

def string : Reader String := fun text =>
  match symbol '"' text with
  | none => none
  | some ⟨_, afterQuote, h⟩ =>
    match body afterQuote with
    | none => none
    | some ⟨value, rest, h'⟩ => some ⟨String.ofList value, rest, by omega⟩

/-! ## Numbers -/

/-- Digits taken into a significand, as long as it fits 64 bits without a sign: the significand, and
how many digits were taken. -/
def takeDigits (significand : Nat) : List Char → Nat × Nat
  | [] => (significand, 0)
  | d :: digits =>
    let next := significand * 10 + (d.toNat - '0'.toNat)
    if next < twoTo 64 then
      let (full, taken) := takeDigits next digits
      (full, taken + 1)
    else (significand, 0)

/-- A float times a power of ten, by one multiplication or division with the float nearest to the
power; far below one the power is taken in steps that floats can hold. A product beyond the largest
float is refused. -/
def scaleByTen? (x : Float) (exponent : Int) : Option Float :=
  if x == 0 then some x
  else if 308 < exponent then none
  else if 0 ≤ exponent then
    let product := x * ofDecimal false 1 exponent
    if isFinite product then some product else none
  else if -308 ≤ exponent then some (x / ofDecimal false 1 (-exponent))
  else scaleByTen? (x / ofDecimal false 1 308) (exponent + 308)
termination_by (-exponent).toNat
decreasing_by omega

/-- The number of a numeral in parts. With digits only, all of them taken, it is an integer where
one of 64 bits fits; the integer zero has no sign. -/
def number? (negative : Bool) (whole fraction : List Char) (exponent : Option Int) :
    Option Document :=
  let (significand, taken) := takeDigits 0 whole
  let plain := fraction = [] ∧ exponent = none ∧ taken = whole.length
  let exact := if negative then -(significand : Int) else significand
  match (if plain ∧ ¬(negative ∧ significand = 0) then toWord? exact else none) with
  | some n => some (.integer n)
  | none =>
    let (significand, places) := takeDigits significand fraction
    let power := exponent.getD 0 + (whole.length - taken : Nat) - places
    (scaleByTen? (ofRatio false significand 1) power).map fun x =>
      .float (if negative then -x else x)

def digits? (text : List Char) : Option (List Char × List Char) :=
  match spanDigits text with
  | ([], _) => none
  | found => some found

def fraction? (text : List Char) : Option (List Char × List Char) :=
  match text with
  | '.' :: after => digits? after
  | _ => some ([], text)

def exponent? (text : List Char) : Option (Option Int × List Char) :=
  match text with
  | c :: after =>
    if c = 'e' ∨ c = 'E' then
      let (negative, unsigned) := spanSign after
      (digits? unsigned).map fun (digits, rest) =>
        let size : Int := digitsValue digits
        (some (if negative then -size else size), rest)
    else some (none, text)
  | [] => some (none, [])

def numeral? (text : List Char) : Option (Document × List Char) := do
  let (negative, unsigned) := match text with
    | '-' :: after => (true, after)
    | _ => (false, text)
  let (whole, rest) ← digits? unsigned
  if 1 < whole.length ∧ whole.head? = some '0' then none
  let (fraction, rest) ← fraction? rest
  let (exponent, rest) ← exponent? rest
  let value ← number? negative whole fraction exponent
  return (value, rest)

/-! ## Documents -/

def items {α : Type} (item : Reader α) (closing : Char) : Reader (List α) := fun text =>
  match item text with
  | none => none
  | some ⟨value, rest, h⟩ =>
    match symbol ',' rest with
    | some ⟨_, afterComma, h'⟩ =>
      match items item closing afterComma with
      | none => none
      | some ⟨more, rest', h''⟩ => some ⟨value :: more, rest', by omega⟩
    | none =>
      match symbol closing rest with
      | none => none
      | some ⟨_, rest', h'⟩ => some ⟨[value], rest', by omega⟩
termination_by text => text.length

def bracketed? {α : Type} (item : Reader α) (closing : Char) : Reader (List α) := fun text =>
  match symbol closing text with
  | some ⟨_, rest, h⟩ => some ⟨[], rest, h⟩
  | none => items item closing text

def member? {α : Type} (item : Reader α) : Reader (String × α) := fun text =>
  match string text with
  | none => none
  | some ⟨key, rest, h⟩ =>
    match symbol ':' rest with
    | none => none
    | some ⟨_, afterColon, h'⟩ =>
      match item afterColon with
      | none => none
      | some ⟨value, rest', h''⟩ => some ⟨(key, value), rest', by omega⟩

/-- Members with distinct names: a later one replaces an earlier one. -/
def distinctMembers (members : List (String × Document)) : List (String × Document) :=
  members.foldl (fun entries (key, value) => Entries.insert key value entries) []

def afterWord? (word text : List Char) : Option (List Char) :=
  if word.isPrefixOf text then some (text.drop word.length) else none

def scalar (text : List Char) : Option (Document × List Char) :=
  let front := skipSpace text
  match afterWord? "null".toList front with
  | some rest => some (.null, rest)
  | none =>
    match afterWord? "true".toList front with
    | some rest => some (.boolean true, rest)
    | none =>
      match afterWord? "false".toList front with
      | some rest => some (.boolean false, rest)
      | none =>
        match string front with
        | some ⟨value, rest, _⟩ => some (.text value, rest)
        | none => numeral? front

/-- A document in which arrays and objects are nested at most `depth` deep. -/
def document (depth : Nat) : Reader Document := fun text =>
  match symbol '[' text with
  | some ⟨_, afterBracket, h⟩ =>
    match depth with
    | 0 => none
    | depth + 1 =>
      match bracketed? (document depth) ']' afterBracket with
      | none => none
      | some ⟨values, rest, h'⟩ => some ⟨.array values, rest, by omega⟩
  | none =>
    match symbol '{' text with
    | some ⟨_, afterBrace, h⟩ =>
      match depth with
      | 0 => none
      | depth + 1 =>
        match bracketed? (member? (document depth)) '}' afterBrace with
        | none => none
        | some ⟨members, rest, h'⟩ => some ⟨.object (distinctMembers members), rest, by omega⟩
    | none =>
      match scalar text with
      | none => none
      | some (value, rest) =>
        if h : rest.length < text.length then some ⟨value, rest, h⟩ else none

def maxDepth : Nat := 127

def read? (text : String) : Option Document :=
  match document maxDepth text.toList with
  | some ⟨value, rest, _⟩ => if skipSpace rest = [] then some value else none
  | none => none

end Json

end TemplateExpr

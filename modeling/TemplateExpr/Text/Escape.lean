/-!
# Characters written by their code

An escape of four hexadecimal digits writes a character by its code. Characters beyond the first
plane take two escapes in a row, a high and a low surrogate; a surrogate without its partner writes
nothing.
-/

namespace TemplateExpr.Text

def hexDigit? (c : Char) : Option Nat :=
  if '0' ≤ c ∧ c ≤ '9' then some (c.toNat - '0'.toNat)
  else if 'a' ≤ c ∧ c ≤ 'f' then some (c.toNat - 'a'.toNat + 10)
  else if 'A' ≤ c ∧ c ≤ 'F' then some (c.toNat - 'A'.toNat + 10)
  else none

def hexQuad? : List Char → Option Nat
  | a :: b :: c :: d :: _ => do
    let a ← hexDigit? a
    let b ← hexDigit? b
    let c ← hexDigit? c
    let d ← hexDigit? d
    return ((a * 16 + b) * 16 + c) * 16 + d
  | _ => none

def isHighSurrogate (code : Nat) : Bool := decide (0xd800 ≤ code) && decide (code ≤ 0xdbff)

def isLowSurrogate (code : Nat) : Bool := decide (0xdc00 ≤ code) && decide (code ≤ 0xdfff)

/-- The character that a pair of surrogates stands for. -/
def ofSurrogates (high low : Nat) : Char :=
  Char.ofNat (0x10000 + (high - 0xd800) * 0x400 + (low - 0xdc00))

/-- The character written by the hexadecimal digits at the front of a text, after `\u`, and how many
characters write it. A high surrogate needs a second escape with a low one right behind it. -/
def unicodeEscape? (text : List Char) : Option (Char × Nat) := do
  let code ← hexQuad? text
  if isHighSurrogate code then
    match text.drop 4 with
    | '\\' :: 'u' :: more => do
      let low ← hexQuad? more
      if isLowSurrogate low then some (ofSurrogates code low, 10) else none
    | _ => none
  else if isLowSurrogate code then none
  else some (Char.ofNat code, 4)

def hexCode (c : Char) : List Char :=
  let digits := Nat.toDigits 16 c.toNat
  List.replicate (4 - digits.length) '0' ++ digits

example : unicodeEscape? ['0', '0', 'e', '9'] = some ('é', 4) := by decide +kernel
example : unicodeEscape? ['d', '8', '3', 'd'] = none := by decide +kernel
example : hexCode '\x1f' = ['0', '0', '1', 'f'] := by decide +kernel

end TemplateExpr.Text

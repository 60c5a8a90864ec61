import TemplateExpr.Text.Alphabetic
import TemplateExpr.Text.Escape
import TemplateExpr.Text.Numeric
import TemplateExpr.Number.Integer
import TemplateExpr.Number.Numeral
import TemplateExpr.Token

/-!
# Lexemes

The classes of words, each as a condition on characters: names, symbols, operators, numerals and
escapes. The scanner in `Token.Cursor` takes the longest word of a class; what belongs to a class
is said here, without a scanner.
-/

namespace TemplateExpr

open Text Number

/-! ## Names -/

def isNameStart (c : Char) : Bool := isAlphabetic c || c == '_' || c == '$'

/-- A name goes on with the same and with numerals of any script. -/
def isNamePart (c : Char) : Bool := isAlphabetic c || isNumeric c || c == '_' || c == '$'

/-! ## Symbols and operators -/

/-- Characters that are a symbol on their own and never start a longer one. -/
def structuralSymbols : List Char := ['[', ']', ',', '{', '}', ':', '.', '(', ')', '?', ';']

/-- The operators, longer ones first: the first that fits is the longest. -/
def operators : List String :=
  ["===", "!==", "==", "!=", ">=", "<=", "&&", "||", "+", "-", "!", "*", "/", "%", "=", ">", "<",
    "|"]

def operatorAt? (text : List Char) : Option String :=
  operators.find? fun op => op.toList.isPrefixOf text

/-! ## Numerals -/

/-- The part of a numeral before its exponent: digits, then at most one point and more digits. -/
def spanMantissa (text : List Char) : List Char × List Char :=
  let (whole, rest) := spanDigits text
  match rest with
  | '.' :: after =>
    let (fraction, rest) := spanDigits after
    (whole ++ '.' :: fraction, rest)
  | _ => (whole, rest)

/-- The exponent at the front of a text: `e`, at most one sign, and digits. A text that does not
start with `e` has an empty exponent, and an `e` without digits after it is no exponent at all. -/
def spanExponent? (text : List Char) : Option (List Char × List Char) :=
  match text with
  | c :: after =>
    if c = 'e' ∨ c = 'E' then
      let (sign, unsigned) := match after with
        | s :: more => if s = '+' ∨ s = '-' then ([s], more) else ([], after)
        | [] => ([], [])
      let (digits, rest) := spanDigits unsigned
      if digits = [] then none else some (c :: sign ++ digits, rest)
    else some ([], text)
  | [] => some ([], [])

def numeralValue? (numeral : List Char) : Option Literal :=
  if numeral.all Char.isDigit then
    match toWord? (digitsValue numeral) with
    | some n => some (.integer n)
    | none => (readFloat? numeral).map .float
  else (readFloat? numeral).map .float

/-! ## Escapes in string literals -/

def simpleEscape? : Char → Option Char
  | 'n' => some '\n'
  | 'f' => some '\x0c'
  | 'r' => some '\r'
  | 't' => some '\t'
  | 'v' => some '\x0b'
  | '\'' => some '\''
  | '"' => some '"'
  | '\\' => some '\\'
  | _ => none

inductive EscapeFault where
  | missing
  | unknown (c : Char)
  | badUnicode (digits : List Char)

/-- The character that the text after a backslash writes, and how many characters write it. -/
def escapeAt (text : List Char) : Except EscapeFault (Char × Nat) :=
  match text with
  | [] => .error .missing
  | c :: rest =>
    if c = 'u' then
      match unicodeEscape? rest with
      | some (value, count) => .ok (value, count + 1)
      | none => .error (.badUnicode (rest.take 4))
    else
      match simpleEscape? c with
      | some value => .ok (value, 1)
      | none => .error (.unknown c)

example : operatorAt? ['=', '=', '=', 'b'] = some "===" := by decide +kernel
example : operatorAt? ['&', ' '] = none := by decide +kernel
example : spanExponent? ['e', '+', '4', 'x'] = some (['e', '+', '4'], ['x']) := by decide +kernel
example : spanExponent? ['e', '+'] = none := by decide +kernel

end TemplateExpr

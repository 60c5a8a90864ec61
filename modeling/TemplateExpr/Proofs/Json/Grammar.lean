import Mathlib
import TemplateExpr.Json.Reader
import TemplateExpr.Proofs.Number.Plain

/-!
# The grammar of JSON

The grammar as relations between a text, what stands at its front, and the text behind that, with no
reader in it.

    text     := ws document ws
    document := 'null' | 'true' | 'false' | number | string
              | '[' ws ']' | '[' ws items | '{' ws '}' | '{' ws members
    items    := document ws ']' | document ws ',' ws items
    members  := member ws '}' | member ws ',' ws members
    member   := string ws ':' ws document
    string   := '"' character* '"'
    number   := '-'? whole ('.' digit+)? (('e' | 'E') ('+' | '-')? digit+)?
    whole    := '0' | a digit that is not '0', then digit*

An object has the members that are written, in their order, also where two have one name. A numeral
is an integer if it has digits only and 64 bits hold what they spell, and the nearest float if not;
negative zero is a float. Nesting has no limit.

A text denotes one document at most, which is shown in `Proofs.Json.Unambiguity`.
-/

namespace TemplateExpr.Json

open Number Text

/-! ## Blanks and texts in quotes -/

def Blanks (text rest : List Char) : Prop :=
  ∃ blanks, (∀ c ∈ blanks, isSpace c = true) ∧ text = blanks ++ rest

/-- `Characters text characters rest`: behind an opening quote stand the characters, in whatever way
they are written, then the closing quote and the rest. -/
inductive Characters : List Char → List Char → List Char → Prop
  | close {rest} : Characters ('"' :: rest) [] rest
  | plain {c text characters rest} (visible : 0x20 ≤ c.toNat) (no_quote : c ≠ '"')
      (no_escape : c ≠ '\\') :
      Characters text characters rest → Characters (c :: text) (c :: characters) rest
  | letter {letter c text characters rest} (escape : simpleEscape? letter = some c) :
      Characters text characters rest → Characters ('\\' :: letter :: text) (c :: characters) rest
  | code {c count text characters rest} (escape : unicodeEscape? text = some (c, count)) :
      Characters (text.drop count) characters rest →
        Characters ('\\' :: 'u' :: text) (c :: characters) rest

/-! ## Numerals -/

@[ext]
structure Exponent where
  mark : Char
  sign : Option Char
  digits : List Char

namespace Exponent

def text (exponent : Exponent) : List Char :=
  exponent.mark :: (exponent.sign.toList ++ exponent.digits)

def value (exponent : Exponent) : Int := signedValue (exponent.sign = some '-') exponent.digits

structure Valid (exponent : Exponent) : Prop where
  mark : exponent.mark = 'e' ∨ exponent.mark = 'E'
  sign : exponent.sign = none ∨ exponent.sign = some '+' ∨ exponent.sign = some '-'
  digits : ∀ c ∈ exponent.digits, c.isDigit = true
  digits_ne_nil : exponent.digits ≠ []

end Exponent

/-- A numeral in parts. Without a point, the fraction is empty. -/
@[ext]
structure Numeral where
  negative : Bool
  whole : List Char
  fraction : List Char
  exponent : Option Exponent

namespace Numeral

def text (numeral : Numeral) : List Char :=
  (if numeral.negative then ['-'] else []) ++
    (plainText numeral.whole numeral.fraction ++ (numeral.exponent.map Exponent.text).getD [])

structure Valid (numeral : Numeral) : Prop where
  plain : Plain numeral.whole numeral.fraction
  exponent : ∀ exponent, numeral.exponent = some exponent → exponent.Valid

def integer? (numeral : Numeral) : Option Int64 :=
  if numeral.fraction = [] ∧ numeral.exponent.isNone ∧
      (numeral.negative → digitsValue numeral.whole ≠ 0) then
    toWord? (signedValue numeral.negative numeral.whole)
  else none

def float (numeral : Numeral) : Float :=
  ofDecimal numeral.negative (digitsValue (numeral.whole ++ numeral.fraction))
    ((numeral.exponent.map Exponent.value).getD 0 - numeral.fraction.length)

def document (numeral : Numeral) : Document :=
  match numeral.integer? with
  | some n => .integer n
  | none => .float numeral.float

end Numeral

/-! ## Documents -/

/-- A nonterminal of the grammar with what it stands for. -/
inductive Part where
  | document (value : Document)
  | items (values : List Document)
  | member (key : String) (value : Document)
  | members (fields : List (String × Document))

/-- `Reads part text rest`: the grammar derives from the part what stands in the text before the
rest. -/
inductive Reads : Part → List Char → List Char → Prop
  | nullWord {rest} : Reads (.document .null) ("null".toList ++ rest) rest
  | trueWord {rest} : Reads (.document (.boolean true)) ("true".toList ++ rest) rest
  | falseWord {rest} : Reads (.document (.boolean false)) ("false".toList ++ rest) rest
  | number {numeral rest} (valid : Numeral.Valid numeral) :
      Reads (.document numeral.document) (numeral.text ++ rest) rest
  | text {text characters rest} : Characters text characters rest →
      Reads (.document (.text (String.ofList characters))) ('"' :: text) rest
  | emptyArray {text rest} : Blanks text (']' :: rest) →
      Reads (.document (.array [])) ('[' :: text) rest
  | array {values text first rest} : Blanks text first → Reads (.items values) first rest →
      Reads (.document (.array values)) ('[' :: text) rest
  | emptyObject {text rest} : Blanks text ('\x7d' :: rest) →
      Reads (.document (.object [])) ('\x7b' :: text) rest
  | object {fields text first rest} : Blanks text first → Reads (.members fields) first rest →
      Reads (.document (.object fields)) ('\x7b' :: text) rest
  | lastItem {value text after rest} : Reads (.document value) text after →
      Blanks after (']' :: rest) → Reads (.items [value]) text rest
  | moreItems {value values text after comma next rest} : Reads (.document value) text after →
      Blanks after (',' :: comma) → Blanks comma next → Reads (.items values) next rest →
        Reads (.items (value :: values)) text rest
  | member {characters value text after colon next rest} : Characters text characters after →
      Blanks after (':' :: colon) → Blanks colon next → Reads (.document value) next rest →
        Reads (.member (String.ofList characters) value) ('"' :: text) rest
  | lastMember {key value text after rest} : Reads (.member key value) text after →
      Blanks after ('\x7d' :: rest) → Reads (.members [(key, value)]) text rest
  | moreMembers {key value fields text after comma next rest} :
      Reads (.member key value) text after → Blanks after (',' :: comma) → Blanks comma next →
        Reads (.members fields) next rest → Reads (.members ((key, value) :: fields)) text rest

/-- That a whole text is a document, with blanks around it. -/
def Denotes (text : String) (value : Document) : Prop :=
  ∃ first after, Blanks text.toList first ∧ Reads (.document value) first after ∧ Blanks after []

end TemplateExpr.Json

import TemplateExpr.Text.CaseMap
import TemplateExpr.Text.Cased

/-!
# Upper and lower case of a text

Each character is mapped on its own, with one exception: a capital sigma becomes the final form
`ς` at the end of a word. It ends a word when, looking through case-ignorable characters, a cased
character stands before it and none stands after it.
-/

namespace TemplateExpr.Text

/-- Looking through case-ignorable characters, the first one met is cased. -/
def meetsCased (text : List Char) : Bool :=
  match text.dropWhile isCaseIgnorable with
  | [] => false
  | c :: _ => isCased c

/-- The lower case of `text`, where `before` holds the characters in front of it, nearest first. -/
def lowerFrom (before : List Char) : List Char → List Char
  | [] => []
  | c :: rest =>
    let mapped :=
      if c = 'Σ' then
        if meetsCased before && !meetsCased rest then ['ς'] else ['σ']
      else lowerChar c
    mapped ++ lowerFrom (c :: before) rest

def lowercase (text : List Char) : List Char := lowerFrom [] text

def uppercase (text : List Char) : List Char := text.flatMap upperChar

example : lowercase ['A', 'Σ'] = ['a', 'ς'] := by decide +kernel
example : lowercase ['A', 'Σ', 'B'] = ['a', 'σ', 'b'] := by decide +kernel
example : uppercase ['ß'] = ['S', 'S'] := by decide +kernel

end TemplateExpr.Text

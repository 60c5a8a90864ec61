import TemplateExpr.Text.Range

/-!
# Blanks and control characters

The Unicode property `White_Space` and the general category `Cc` (version 17). Both are closed
sets that later versions of the standard do not extend.
-/

namespace TemplateExpr.Text

def blankRanges : List Range :=
  [
   (0x9, 0xd), (0x20, 0x20), (0x85, 0x85), (0xa0, 0xa0), (0x1680, 0x1680),
   (0x2000, 0x200a), (0x2028, 0x2029), (0x202f, 0x202f), (0x205f, 0x205f), (0x3000, 0x3000)
  ]

/-- A character that separates lexemes and is trimmed from the ends of a numeral. -/
def isBlank (c : Char) : Bool := inRanges blankRanges c.toNat

/-- A control character: below the space, the delete character, or in the second control block. -/
def isControl (c : Char) : Bool :=
  decide (c.toNat < 0x20) || (decide (0x7f ≤ c.toNat) && decide (c.toNat < 0xa0))

def trimBlanks (text : List Char) : List Char :=
  ((text.dropWhile isBlank).reverse.dropWhile isBlank).reverse

/-- Core's four blanks are blanks here, and so are the two other ASCII separators. -/
example : ∀ n : Fin 128, isBlank (Char.ofNat n) =
    ((Char.ofNat n).isWhitespace || n.val == 0x0b || n.val == 0x0c) := by decide +kernel

example : inOrder blankRanges = true := by decide +kernel

end TemplateExpr.Text

import TemplateExpr.Value.Conversion

/-!
# Limiting a sequence

`limitTo:limit:begin` takes a stretch out of an array, or out of the characters of a text. A limit
that is not negative takes so many items from `begin` on. A negative one takes so many from the end,
or, where `begin` is not the start, from in front of it. A negative `begin` counts from the end.

Limits and starts are truncated and, beyond 64 bits, cut off; the rest is arithmetic on integers in
which nothing can overflow, and the bounds of the stretch never cross.
-/

namespace TemplateExpr

open Number

namespace Filter

/-- Where a stretch starts in a sequence of `length` items: what lies outside is brought to the
nearer end. -/
def startOf (length : Nat) (begin : Int) : Int :=
  if begin < 0 then max (length + begin) 0 else min begin length

/-- The bounds of the stretch that starts at `start`, the second of them exclusive. -/
def boundsOf (length : Nat) (limit start : Int) : Int × Int :=
  if 0 ≤ limit then (start, min (start + limit) length)
  else if start = 0 then (max (length + limit) 0, length)
  else (max (start + limit) 0, start)

def slice {α : Type} (items : List α) (limit begin : Int) : List α :=
  let (first, last) := boundsOf items.length limit (startOf items.length begin)
  (items.take last.toNat).drop first.toNat

/-- A number as a count of items; what is not a number counts as zero. -/
def count (value : Value) : Int := truncate value.toNumber

/-- The filter `limitTo`. Numbers are limited as their texts. A limit that is not a number, and a
value that is no sequence, leave the value as it is. -/
def limitTo (value limit begin : Value) : Value :=
  if limit.toNumber.isNaN then value
  else
    match value with
    | .array items => .array (slice items (count limit) (count begin))
    | .text _ | .integer _ | .float _ =>
      .text (String.ofList (slice value.display.toList (count limit) (count begin)))
    | other => other

end Filter

end TemplateExpr

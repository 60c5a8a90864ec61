import Mathlib
import TemplateExpr.Command
import TemplateExpr.Filter.Registry
import TemplateExpr.Proofs.Number.Truncation
import TemplateExpr.Proofs.Value.Arithmetic

/-!
# The stretch that a limit takes

The rule of `limitTo` in words of lists: so many items from a start on, or so many from the end of
what stands in front of it (`stretch`). The filter computes two bounds instead and cuts between
them. The bounds are never crossed and never outside, and computed on 64-bit words they are the same
as on whole numbers, because no sum on the way leaves the words (`boundsInWords?_eq`).
-/

namespace TemplateExpr

open Number

namespace Filter

section

variable {α : Type}

/-! ## The rule -/

/-- The place in a sequence of `length` items that a start stands for. A negative one counts from
the end, and none is outside. -/
def placeOf (length : Nat) (begin : Int) : Nat :=
  if begin < 0 then length - begin.natAbs else min begin.natAbs length

/-- What a limit takes of a sequence: items from the start on, or, if it is negative, from the end
of what stands in front of the start, where the start of all stands for the end. -/
def stretch (items : List α) (limit begin : Int) : List α :=
  let start := placeOf items.length begin
  if 0 ≤ limit then (items.drop start).take limit.natAbs
  else if start = 0 then items.rtake limit.natAbs
  else (items.take start).rtake limit.natAbs

/-! ## Bounds -/

theorem startOf_eq (length : Nat) (begin : Int) : startOf length begin = placeOf length begin := by
  unfold startOf placeOf
  split <;> omega

theorem placeOf_le (length : Nat) (begin : Int) : placeOf length begin ≤ length := by
  unfold placeOf
  split <;> omega

/-- **The bounds are in order and inside**, whatever the limit and the start. -/
theorem boundsOf_ordered (length : Nat) (limit begin : Int) :
    0 ≤ (boundsOf length limit (startOf length begin)).1 ∧
      (boundsOf length limit (startOf length begin)).1 ≤
        (boundsOf length limit (startOf length begin)).2 ∧
      (boundsOf length limit (startOf length begin)).2 ≤ length := by
  have hplace := placeOf_le length begin
  rw [startOf_eq]
  unfold boundsOf
  split
  · dsimp only
    omega
  · split <;> dsimp only <;> omega

/-- **Cutting between the bounds is taking the stretch.** -/
theorem slice_eq_stretch (items : List α) (limit begin : Int) :
    slice items limit begin = stretch items limit begin := by
  have hplace := placeOf_le items.length begin
  unfold slice stretch
  rw [startOf_eq]
  generalize placeOf items.length begin = start at hplace
  unfold boundsOf
  by_cases hlimit : 0 ≤ limit
  · simp only [if_pos hlimit]
    obtain ⟨count, rfl⟩ := Int.eq_ofNat_of_zero_le hlimit
    have hlast : (min ((start : Int) + count) items.length).toNat =
        min (start + count) items.length := by omega
    rw [hlast, Int.toNat_natCast, Int.natAbs_natCast, ← List.take_take, List.take_length,
      List.drop_take, Nat.add_sub_cancel_left]
  · simp only [if_neg hlimit]
    by_cases hstart : start = 0
    · subst hstart
      have hfirst : (max ((items.length : Int) + limit) 0).toNat = items.length - limit.natAbs := by
        omega
      simp only [Nat.cast_zero, if_true, Int.toNat_natCast, List.take_length, hfirst, List.rtake]
    · have hfirst : (max ((start : Int) + limit) 0).toNat = start - limit.natAbs := by omega
      simp only [Nat.cast_eq_zero, if_neg hstart, Int.toNat_natCast, hfirst, List.rtake,
        List.length_take, Nat.min_eq_left hplace]

end

/-! ## Bounds on words -/

def addWords? (a b : Int64) : Option Int64 := toWord? (a.toInt + b.toInt)

/-- The sum of two words, brought to the nearer end of the words. -/
def addWithin (a b : Int64) : Int64 := Int64.ofInt (withinWord (a.toInt + b.toInt))

def startInWords? (length begin : Int64) : Option Int64 :=
  if begin < 0 then (addWords? length begin).map (max · 0) else some (min begin length)

def boundsInWords? (length limit begin : Int64) : Option (Int64 × Int64) := do
  let start ← startInWords? length begin
  if 0 ≤ limit then return (start, min (addWithin start limit) length)
  else if start = 0 then return (max (← addWords? length limit) 0, length)
  else return (max (← addWords? start limit) 0, start)

theorem toInt_max (a b : Int64) : (max a b).toInt = max a.toInt b.toInt := by
  show (if a ≤ b then b else a).toInt = _
  split
  · next h =>
    rw [Int64.le_iff_toInt_le] at h
    omega
  · next h =>
    rw [Int64.le_iff_toInt_le] at h
    omega

theorem toInt_min (a b : Int64) : (min a b).toInt = min a.toInt b.toInt := by
  show (if a ≤ b then a else b).toInt = _
  split
  · next h =>
    rw [Int64.le_iff_toInt_le] at h
    omega
  · next h =>
    rw [Int64.le_iff_toInt_le] at h
    omega

theorem exists_addWords? {a b : Int64} (ha : 0 ≤ a.toInt) (hb : b.toInt < 0) :
    ∃ sum, addWords? a b = some sum ∧ sum.toInt = a.toInt + b.toInt := by
  have hleast : minInt ≤ b.toInt := Int64.le_toInt b
  have hmost : a.toInt ≤ maxInt := Int64.toInt_le a
  have hrange : minInt ≤ a.toInt + b.toInt ∧ a.toInt + b.toInt ≤ maxInt := by omega
  exact ⟨_, if_pos hrange, toInt_ofInt hrange⟩

theorem toInt_addWithin (a b : Int64) :
    (addWithin a b).toInt = withinWord (a.toInt + b.toInt) := by
  have hle : minInt ≤ maxInt := by decide
  apply toInt_ofInt
  unfold withinWord
  omega

section

variable {length : Nat} (hlength : (length : Int) ≤ maxInt)

include hlength

theorem toInt_length : (Int64.ofNat length).toInt = length := by
  apply Int64.toInt_ofNat_of_lt
  unfold maxInt at hlength
  omega

theorem startInWords?_eq (begin : Int64) :
    ∃ start, startInWords? (.ofNat length) begin = some start ∧
      start.toInt = placeOf length begin.toInt := by
  have hcount := toInt_length hlength
  unfold startInWords?
  by_cases hbegin : begin.toInt < 0
  · obtain ⟨sum, hsum, hvalue⟩ :=
      exists_addWords? (a := .ofNat length) (b := begin) (by omega) hbegin
    refine ⟨max sum 0, ?_, ?_⟩
    · rw [if_pos (Int64.lt_iff_toInt_lt.mpr hbegin), hsum]
      rfl
    · rw [toInt_max, hvalue, hcount, ← startOf_eq, startOf, if_pos hbegin]
      rfl
  · refine ⟨min begin (.ofNat length), ?_, ?_⟩
    · rw [if_neg fun h => hbegin (Int64.lt_iff_toInt_lt.mp h)]
    · rw [toInt_min, hcount, ← startOf_eq, startOf, if_neg hbegin]

/-- **On words the bounds come out the same**, and no sum but that with a positive limit, which is
brought back, leaves them. -/
theorem boundsInWords?_eq (limit begin : Int64) :
    ∃ first last, boundsInWords? (.ofNat length) limit begin = some (first, last) ∧
      (first.toInt, last.toInt) = boundsOf length limit.toInt (startOf length begin.toInt) := by
  have hcount := toInt_length hlength
  have hplace := placeOf_le length begin.toInt
  obtain ⟨start, hstart, hvalue⟩ := startInWords?_eq hlength begin
  have hzero : start = 0 ↔ (placeOf length begin.toInt : Int) = 0 := by
    rw [← hvalue]
    exact Int64.toInt_inj.symm
  have hsign : 0 ≤ limit ↔ 0 ≤ limit.toInt := Int64.le_iff_toInt_le
  rw [startOf_eq]
  unfold boundsInWords? boundsOf
  rw [hstart]
  simp only [Option.bind_eq_bind, Option.bind_some, Option.pure_def]
  by_cases hlimit : 0 ≤ limit.toInt
  · rw [if_pos (hsign.mpr hlimit), if_pos hlimit]
    refine ⟨_, _, rfl, ?_⟩
    rw [toInt_min, toInt_addWithin, hcount, hvalue, withinWord]
    unfold minInt
    grind
  · rw [if_neg fun h => hlimit (hsign.mp h), if_neg hlimit]
    by_cases hfirst : start = 0
    · obtain ⟨sum, hsum, hadded⟩ :=
        exists_addWords? (a := .ofNat length) (b := limit) (by omega) (by omega)
      rw [if_pos hfirst, if_pos (hzero.mp hfirst), hsum]
      refine ⟨_, _, rfl, ?_⟩
      rw [toInt_max, hadded, hcount]
      rfl
    · obtain ⟨sum, hsum, hadded⟩ := exists_addWords? (a := start) (b := limit) (by omega) (by omega)
      rw [if_neg hfirst, if_neg fun h => hfirst (hzero.mpr h), hsum]
      refine ⟨_, _, rfl, ?_⟩
      rw [toInt_max, hadded, hvalue]
      rfl

end

/-! ## The filter -/

theorem stretch_twice {α : Type} (items : List α) (limit : Int) :
    stretch (stretch items limit 0) limit 0 = stretch items limit 0 := by
  have hplace : ∀ length, placeOf length 0 = 0 := fun length => Nat.zero_min length
  unfold stretch
  simp only [hplace, List.drop_zero, if_true]
  split
  · rw [List.take_take, Nat.min_self]
  · have hall : (items.rtake limit.natAbs).length - limit.natAbs = 0 := by
      rw [List.rtake, List.length_drop]
      omega
    rw [List.rtake, hall, List.drop_zero]

section

variable {limit : Value} (hlimit : limit.toNumber.isNaN = false)

include hlimit

theorem limitTo_array (items : List Value) (begin : Value) :
    limitTo (.array items) limit begin = .array (stretch items (count limit) (count begin)) := by
  rw [limitTo, hlimit, if_neg Bool.false_ne_true, slice_eq_stretch]

theorem limitTo_text (s : String) (begin : Value) :
    limitTo (.text s) limit begin =
      .text (String.ofList (stretch s.toList (count limit) (count begin))) := by
  rw [limitTo, hlimit, if_neg Bool.false_ne_true, slice_eq_stretch, Value.display]

theorem limitTo_number (value : Value) (hnumber : value.isNumber) (begin : Value) :
    limitTo value limit begin = limitTo (.text value.display) limit begin := by
  cases value with
  | integer | float =>
    unfold limitTo
    rw [hlimit]
    rfl
  | _ => cases hnumber

end

theorem limitTo_twice (value limit : Value) :
    limitTo (limitTo value limit .undefined) limit .undefined =
      limitTo value limit .undefined := by
  have hbegin : count .undefined = 0 := by decide
  cases hlimit : limit.toNumber.isNaN with
  | true => simp only [limitTo, hlimit, if_true]
  | false =>
    have htext : ∀ s, limitTo (limitTo (.text s) limit .undefined) limit .undefined =
        limitTo (.text s) limit .undefined := by
      intro s
      rw [limitTo_text hlimit, limitTo_text hlimit, hbegin, String.toList_ofList, stretch_twice]
    cases value with
    | array items =>
      rw [limitTo_array hlimit, limitTo_array hlimit, hbegin, stretch_twice]
    | text s => exact htext s
    | integer n =>
      rw [limitTo_number hlimit (.integer n) rfl]
      exact htext _
    | float x =>
      rw [limitTo_number hlimit (.float x) rfl]
      exact htext _
    | _ => simp only [limitTo, ite_self]

theorem apply_limitTo {σ : Type} (host : Host σ) (stateful : Bool) (value limit : Value)
    (begin : Option Value) :
    apply host ⟨.limitTo, stateful⟩ (value :: limit :: begin.toList) =
      pure (limitTo value limit (begin.getD .undefined)) := by
  cases begin <;> rfl

/-- **A limit takes the stretch that the rule says**, of an array as of the characters of a text.
Let the limit be a number. Then limit and start count as whole numbers, a start that is missing as
zero, and the filter gives the stretch for these. The bounds that it cuts between are in order and
inside, and for every length that a word can hold they come out the same on words, where no sum
overflows. Limiting again by the same number, without a start, changes nothing. -/
theorem limitTo_stretch {limit : Value} (hlimit : limit.toNumber.isNaN = false)
    (begin : Option Value) (stateful : Bool) {σ : Type} (host : Host σ) :
    ∃ most start : Int, Counts limit.toNumber most ∧
      Counts (begin.getD .undefined).toNumber start ∧
      (∀ items, apply host ⟨.limitTo, stateful⟩ (.array items :: limit :: begin.toList) =
        pure (.array (stretch items most start))) ∧
      (∀ s : String, apply host ⟨.limitTo, stateful⟩ (.text s :: limit :: begin.toList) =
        pure (.text (String.ofList (stretch s.toList most start)))) ∧
      (∀ length first last, boundsOf length most (startOf length start) = (first, last) →
        0 ≤ first ∧ first ≤ last ∧ last ≤ length ∧
          ((length : Int) ≤ maxInt → ∃ firstWord lastWord,
            boundsInWords? (.ofNat length) (.ofInt most) (.ofInt start) =
              some (firstWord, lastWord) ∧ firstWord.toInt = first ∧ lastWord.toInt = last)) ∧
      ∀ value, (do
          let limited ← apply host ⟨.limitTo, stateful⟩ [value, limit]
          apply host ⟨.limitTo, stateful⟩ [limited, limit]) =
        apply host ⟨.limitTo, stateful⟩ [value, limit] := by
  have hmost : Counts limit.toNumber (count limit) := counts_iff.mpr rfl
  have hstart : Counts (begin.getD .undefined).toNumber (count (begin.getD .undefined)) :=
    counts_iff.mpr rfl
  have hmissing : ∀ value, apply host ⟨.limitTo, stateful⟩ [value, limit] =
      pure (limitTo value limit .undefined) :=
    fun value => apply_limitTo host stateful value limit none
  simp only [apply_limitTo, hmissing, pure_bind]
  refine ⟨count limit, count (begin.getD .undefined), hmost, hstart,
    fun items => congrArg pure (limitTo_array hlimit items _),
    fun s => congrArg pure (limitTo_text hlimit s _), ?_,
    fun value => congrArg pure (limitTo_twice value limit)⟩
  intro length first last hbounds
  obtain ⟨hfirst, horder, hlast⟩ :=
    boundsOf_ordered length (count limit) (count (begin.getD .undefined))
  rw [hbounds] at hfirst horder hlast
  refine ⟨hfirst, horder, hlast, fun hlength => ?_⟩
  obtain ⟨firstWord, lastWord, hwords, heq⟩ :=
    boundsInWords?_eq hlength (.ofInt (count limit)) (.ofInt (count (begin.getD .undefined)))
  have hmostWord : (Int64.ofInt (count limit)).toInt = count limit := toInt_ofInt hmost.within
  have hstartWord : (Int64.ofInt (count (begin.getD .undefined))).toInt =
      count (begin.getD .undefined) := toInt_ofInt hstart.within
  rw [hmostWord, hstartWord, hbounds] at heq
  exact ⟨firstWord, lastWord, hwords, congrArg Prod.fst heq, congrArg Prod.snd heq⟩

/-- Two and a half items in front of the last one: two, of an array as of a text. -/
theorem limitTo_stretch_before :
    let limit := Value.float (-2.5)
    let begin := Value.integer (-1)
    let items := [1, 2, 3, 4, 5].map Value.integer
    limit.toNumber.isNaN = false ∧
      apply Host.none ⟨.limitTo, false⟩ [.array items, limit, begin] =
        pure (.array ([3, 4].map Value.integer)) ∧
      apply Host.none ⟨.limitTo, false⟩ [.text "abcdef", limit, begin] = pure (.text "de") := by
  intro limit begin items
  have hlimit : limit.toNumber.isNaN = false := by decide +kernel
  obtain ⟨most, start, hmost, hstart, harray, htext, -⟩ :=
    limitTo_stretch hlimit (some begin) false Host.none
  have htwo : truncate limit.toNumber = -2 := by decide +kernel
  have hone : truncate begin.toNumber = -1 := by decide +kernel
  obtain rfl : -2 = most := htwo.symm.trans (counts_iff.mp hmost)
  obtain rfl : -1 = start := hone.symm.trans (counts_iff.mp hstart)
  exact ⟨hlimit, harray items, htext "abcdef"⟩

end Filter

end TemplateExpr

import Mathlib
import TemplateExpr.Proofs.Token.NumberLiteral
import TemplateExpr.Proofs.Token.Tiling

/-!
# Calling the scanner again and again

A scanner can be asked for its next token whatever it gave before, also behind an error and at the
end of its source. No call leads out of the source or back in it (`Cursor.Onward`): every exit of
every scanner leaves the cursor behind characters that were looked at. So the cursor always stands
in the source, and each call does what `Cursor.Advances` says.

A token takes at least one character. So the scanner comes to an error or to the end after at most
one call for each character and one more, which is counted here by a run that may make so many calls
only (`Cursor.tokensWithin`). `Cursor.calls_advance` has all of it.
-/

namespace TemplateExpr

open Text Number

namespace Cursor

variable {cursor after : Cursor} {source : List Char}

/-! ## Onward -/

/-- That a cursor is moved to another one by passing characters, none of which is lost. -/
def Onward (cursor after : Cursor) : Prop :=
  ∃ passed, cursor.rest = passed ++ after.rest ∧ after.offset = cursor.offset + passed.length

namespace Onward

theorem refl (cursor : Cursor) : cursor.Onward cursor := ⟨[], rfl, rfl⟩

theorem trans {last : Cursor} (h : cursor.Onward after) (h' : after.Onward last) :
    cursor.Onward last := by
  obtain ⟨passed, hrest, hoffset⟩ := h
  obtain ⟨passed', hrest', hoffset'⟩ := h'
  refine ⟨passed ++ passed', ?_, ?_⟩
  · rw [hrest, hrest', List.append_assoc]
  · rw [hoffset', hoffset, List.length_append, Nat.add_assoc]

theorem offset_le (h : cursor.Onward after) : cursor.offset ≤ after.offset := by
  obtain ⟨passed, -, hoffset⟩ := h
  omega

end Onward

theorem skip_onward {count : Nat} (h : count ≤ cursor.rest.length) :
    cursor.Onward (cursor.skip count) := by
  refine ⟨cursor.rest.take count, (List.take_append_drop count cursor.rest).symm, ?_⟩
  rw [List.length_take_of_le h]
  rfl

theorem skipBlanks_onward (cursor : Cursor) : cursor.Onward cursor.skipBlanks :=
  skip_onward (List.takeWhile_prefix _).length_le

/-! Each scanner, at every exit: what it jumps over it has seen before. -/

theorem nextName_onward (cursor : Cursor) : cursor.Onward cursor.nextName.2 :=
  skip_onward (List.takeWhile_prefix _).length_le

theorem nextNumber_onward (cursor : Cursor) : cursor.Onward cursor.nextNumber.2 := by
  have hmantissa := congrArg List.length (spanMantissa_text cursor.rest)
  rw [List.length_append] at hmantissa
  unfold nextNumber
  dsimp only
  split
  · exact skip_onward (by omega)
  · next exponent rest hspan =>
    have hexponent := congrArg List.length (spanExponent?_seam .nil hspan).1
    rw [List.length_append] at hexponent
    have hnumeral : ((spanMantissa cursor.rest).1 ++ exponent).length ≤ cursor.rest.length := by
      rw [List.length_append]
      omega
    split <;> exact skip_onward hnumeral

theorem scanBody_onward (quote : Char) (opening : Nat) (rest : List Char) (offset : Nat) :
    Onward ⟨rest, offset⟩ (scanBody quote opening rest offset).2 := by
  obtain ⟨passed, hpassed⟩ := scanBody_rest quote opening rest offset
  have hlength := scanBody_length quote opening rest offset
  have hrest := congrArg List.length hpassed
  rw [List.length_append] at hrest
  exact ⟨passed, hpassed.symm, by dsimp only; omega⟩

theorem nextString_onward {first : Char} {tail : List Char} (hrest : cursor.rest = first :: tail)
    (quote : Char) : cursor.Onward (cursor.nextString quote).2 := by
  have hquote : cursor.Onward (cursor.skip 1) := skip_onward (by simp [hrest])
  have hbody := scanBody_onward quote cursor.offset (cursor.rest.drop 1) (cursor.offset + 1)
  unfold nextString
  split
  all_goals
    next hscan =>
    rw [hscan] at hbody
    exact hquote.trans hbody

theorem nextOperator_onward (first : Char) (cursor : Cursor) :
    cursor.Onward (cursor.nextOperator first).2 := by
  unfold nextOperator
  split
  · next op hop => exact skip_onward (operatorAt?_length hop)
  · exact .refl cursor

theorem nextToken_onward {first : Char} {tail : List Char} (hrest : cursor.rest = first :: tail) :
    cursor.Onward (cursor.nextToken first).2 := by
  unfold nextToken
  split
  · exact nextNumber_onward cursor
  split
  · exact nextString_onward hrest first
  split
  · exact skip_onward (by simp [hrest])
  split
  · exact nextName_onward cursor
  · exact nextOperator_onward first cursor

/-- **A call leads onward**, whatever it gives. -/
theorem next_onward (cursor : Cursor) : cursor.Onward cursor.next.2 := by
  have hblanks := cursor.skipBlanks_onward
  unfold next
  dsimp only
  split
  · exact hblanks
  · next first tail hrest => exact hblanks.trans (nextToken_onward hrest)

/-! ## One call -/

structure StandsIn (source : List Char) (cursor : Cursor) : Prop where
  inside : cursor.offset ≤ source.length
  rest : cursor.rest = source.drop cursor.offset

theorem start_standsIn (source : String) : StandsIn source.toList (start source) :=
  ⟨Nat.zero_le _, rfl⟩

theorem StandsIn.onward (h : cursor.StandsIn source) (hon : cursor.Onward after) :
    after.StandsIn source := by
  obtain ⟨passed, hrest, hoffset⟩ := hon
  rw [h.rest] at hrest
  have hlength := congrArg List.length hrest
  rw [List.length_drop, List.length_append] at hlength
  refine ⟨by have := h.inside; omega, ?_⟩
  rw [hoffset, ← List.drop_drop, hrest, List.drop_left]

/-- What a call does in a source, when `cursor` stands there before it. -/
structure Advances (source : List Char) (cursor : Cursor) (step : Step (Option Token)) : Prop where
  /-- The cursor does not move backwards. -/
  forward : cursor.offset ≤ step.2.offset
  /-- It does not leave the source. -/
  standsIn : step.2.StandsIn source
  /-- A token leaves it where the token ends, behind where it was. The text of the token is what the
  source has from its position up to there. -/
  token : ∀ token, step.1 = .ok (some token) →
    cursor.offset ≤ token.position ∧ cursor.offset < step.2.offset ∧
      step.2.offset = token.position + token.text.length ∧
      token.text.toList = (source.drop token.position).take (step.2.offset - token.position)
  /-- With nothing left to read it is at the end. -/
  stop : step.1 = .ok none → step.2.offset = source.length
  /-- No error has a text that was cut out of the source. -/
  uncut : ∀ text position, step.1 ≠ .error (.invalidNumber text position)

theorem StandsIn.token_advances {token : Token} (h : cursor.StandsIn source)
    (hnext : cursor.next = (.ok (some token), after)) :
    cursor.offset ≤ token.position ∧ cursor.offset < after.offset ∧
      after.offset = token.position + token.text.length ∧
      token.text.toList = (source.drop token.position).take (after.offset - token.position) := by
  obtain ⟨first, tail, hfirst, htoken⟩ := next_token hnext
  have hcovers := nextToken_covers hfirst htoken
  have hblanks := cursor.skipBlanks_onward
  have hhere := h.onward hblanks
  have hlength : token.text.toList.length = token.text.length := String.length_toList
  have hsome := List.length_pos_iff.mpr hcovers.nonempty
  have hle := hblanks.offset_le
  have hoffset := hcovers.offset
  rw [hcovers.position]
  refine ⟨hle, by omega, by omega, ?_⟩
  rw [← hhere.rest, hoffset, Nat.add_sub_cancel_left, ← hcovers.text, List.take_left]

theorem StandsIn.end_advances (h : cursor.StandsIn source)
    (hnext : cursor.next = (.ok none, after)) : after.offset = source.length := by
  have hend := next_end hnext
  have hafter : after = cursor.skipBlanks := by
    unfold next at hnext
    simp only [hend] at hnext
    exact (congrArg Prod.snd hnext).symm
  have hhere := h.onward cursor.skipBlanks_onward
  have hrest := hhere.rest
  rw [hend] at hrest
  have hlength := List.drop_eq_nil_iff.mp hrest.symm
  rw [hafter]
  exact Nat.le_antisymm hhere.inside hlength

/-- **What a call does**, from wherever in a source. -/
theorem StandsIn.next_advances (h : cursor.StandsIn source) :
    cursor.Advances source cursor.next where
  forward := cursor.next_onward.offset_le
  standsIn := h.onward cursor.next_onward
  token _ hresult := h.token_advances (Prod.ext hresult rfl)
  stop hresult := h.end_advances (Prod.ext hresult rfl)
  uncut _ _ := next_ne_invalidNumber

/-! ## Any number of calls -/

def afterCalls (cursor : Cursor) : Nat → Cursor
  | 0 => cursor
  | calls + 1 => (cursor.afterCalls calls).next.2

theorem StandsIn.afterCalls (h : cursor.StandsIn source) (calls : Nat) :
    (cursor.afterCalls calls).StandsIn source := by
  induction calls with
  | zero => exact h
  | succ calls ih => exact ih.next_advances.standsIn

def tokensWithin (cursor : Cursor) : (calls : Nat) → Option (Except LexError (List Token))
  | 0 => none
  | calls + 1 =>
    match cursor.next with
    | (.ok none, _) => some (.ok [])
    | (.ok (some token), after) => (after.tokensWithin calls).map (·.map (token :: ·))
    | (.error fault, _) => some (.error fault)

theorem tokensWithin_eq {calls : Nat} (h : cursor.rest.length < calls) :
    cursor.tokensWithin calls = some cursor.tokensFrom := by
  induction calls generalizing cursor with
  | zero => omega
  | succ calls ih =>
    rw [tokensWithin, tokensFrom_eq]
    rcases hnext : cursor.next with ⟨fault | none | token, after⟩
    · rfl
    · rfl
    · have hfewer := next_shrinks hnext
      have hmore : after.tokensWithin calls = some after.tokensFrom := ih (by omega)
      simp only [hmore, Option.map_some]

/-- **The scanner can always be called again.** Let it be called any number of times on one source,
also behind errors and at the end. Its cursor never moves backwards and never leaves the source; a
token leaves it where its text ends, behind where it was before the call; and with nothing left to
read it stands at the end. So the scanner reads a source in no more calls than the source has
characters, and one more. -/
theorem calls_advance (source : String) :
    (∀ calls, ((start source).afterCalls calls).StandsIn source.toList ∧
      ((start source).afterCalls calls).Advances source.toList
        ((start source).afterCalls calls).next) ∧
    (Monotone fun calls => ((start source).afterCalls calls).offset) ∧
    (start source).tokensWithin (source.length + 1) = some (tokenize source) := by
  have hstands := (start_standsIn source).afterCalls
  refine ⟨fun calls => ⟨hstands calls, (hstands calls).next_advances⟩, ?_, ?_⟩
  · exact monotone_nat_of_le_succ fun calls => (hstands calls).next_advances.forward
  · refine tokensWithin_eq ?_
    rw [start, String.length_toList]
    exact Nat.lt_succ_self _

end Cursor

end TemplateExpr

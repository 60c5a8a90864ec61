import Mathlib
import TemplateExpr.Proofs.Number.Plain
import TemplateExpr.Token.Cursor

/-!
# Scanning a text that is known

A scanner meets the tokens of a text one by one. Each lemma here is about what stands at the front
of a source: which token it is, and that the scanner goes on behind it (`Cursor.Passes`). What
follows a word or a numeral must not belong to it (`Joint`); a symbol ends by itself.
-/

namespace TemplateExpr

open Text Number

namespace Cursor

/-- That the tokens `ts` are what is read on the way from one place of a source to another. -/
def Passes (cursor : Cursor) (ts : List Token) (after : Cursor) : Prop :=
  cursor.tokensFrom = after.tokensFrom.map (ts ++ ·)

theorem Passes.refl (cursor : Cursor) : cursor.Passes [] cursor := by
  rw [Passes]
  cases cursor.tokensFrom <;> rfl

theorem Passes.trans {first second third : Cursor} {us vs : List Token}
    (h : first.Passes us second) (h' : second.Passes vs third) : first.Passes (us ++ vs) third := by
  rw [Passes, h, h']
  cases third.tokensFrom <;> simp [Except.map]

theorem tokensFrom_eq (cursor : Cursor) :
    cursor.tokensFrom =
      match cursor.next with
      | (.ok none, _) => .ok []
      | (.ok (some token), after) => after.tokensFrom.map (token :: ·)
      | (.error fault, _) => .error fault := by
  rw [tokensFrom]
  split <;> simp [*]

theorem Passes.tokensFrom {cursor : Cursor} {ts : List Token} {stop : Nat}
    (h : cursor.Passes ts ⟨[], stop⟩) : cursor.tokensFrom = .ok ts := by
  have hend : (Cursor.mk [] stop).tokensFrom = .ok [] := by
    rw [tokensFrom_eq]
    rfl
  rw [Passes, hend] at h
  rw [h, Except.map, List.append_nil]

theorem passes_token {cursor after : Cursor} {first : Char} {tail : List Char} {token : Token}
    (hrest : cursor.rest = first :: tail) (hblank : isBlank first = false)
    (h : cursor.nextToken first = (.ok token, after)) : cursor.Passes [token] after := by
  have hhere : cursor.skipBlanks = cursor := by
    rw [skipBlanks, hrest, List.takeWhile_cons, hblank]
    rfl
  have hnext : cursor.next = (.ok (some token), after) := by
    rw [next, hhere]
    simp only [hrest, h]
    rfl
  rw [Passes, tokensFrom_eq, hnext]
  rfl

theorem passes_blanks {blanks : List Char} (h : ∀ c ∈ blanks, isBlank c = true) (rest : List Char)
    (offset : Nat) : Passes ⟨blanks ++ rest, offset⟩ [] ⟨rest, offset + blanks.length⟩ := by
  have hskip : (Cursor.mk (blanks ++ rest) offset).skipBlanks =
      (Cursor.mk rest (offset + blanks.length)).skipBlanks := by
    rw [skipBlanks, skipBlanks, skip, skip, List.takeWhile_append_of_pos h, List.length_append,
      List.drop_length_add_append]
    simp only [Nat.add_assoc]
  have hnext : (Cursor.mk (blanks ++ rest) offset).next =
      (Cursor.mk rest (offset + blanks.length)).next := by
    rw [next, next, hskip]
  rw [Passes, tokensFrom_eq, tokensFrom_eq (Cursor.mk rest _), hnext]
  rcases (Cursor.mk rest (offset + blanks.length)).next with ⟨_ | _ | token, after⟩
  · rfl
  · rfl
  · cases h : after.tokensFrom <;> simp [h, Except.map]

/-! ## Symbols -/

def isLoneSymbol (c : Char) : Bool :=
  structuralSymbols.contains c && !isBlank c && !c.isDigit && c != '\'' && c != '"' && c != '.'

theorem startsNumeral_cons {c : Char} (h : c ≠ '.') (rest : List Char) :
    startsNumeral (c :: rest) = c.isDigit := by
  unfold startsNumeral
  split
  · next heq =>
    cases heq
    exact absurd rfl h
  · next heq =>
    cases heq
    rfl
  · next heq => cases heq

theorem passes_symbol {c : Char} (h : isLoneSymbol c = true) (rest : List Char) (offset : Nat) :
    Passes ⟨c :: rest, offset⟩ [⟨c.toString, .symbol, offset⟩] ⟨rest, offset + 1⟩ := by
  simp only [isLoneSymbol, Bool.and_eq_true, Bool.not_eq_true', bne_iff_ne,
    List.contains_iff_mem] at h
  obtain ⟨⟨⟨⟨⟨hmem, hblank⟩, hdigit⟩, hsingle⟩, hdouble⟩, hpoint⟩ := h
  apply passes_token rfl hblank
  rw [nextToken, startsNumeral_cons hpoint, if_neg (by simp [hdigit]), if_neg (by tauto),
    if_pos hmem]
  rfl

theorem passes_minus (rest : List Char) (offset : Nat) :
    Passes ⟨'-' :: rest, offset⟩ [⟨"-", .symbol, offset⟩] ⟨rest, offset + 1⟩ := by
  apply passes_token rfl (by decide)
  have hoperator : operatorAt? ('-' :: rest) = some "-" := by
    simp [operatorAt?, operators, List.isPrefixOf]
  have hname : isNameStart '-' = false := by decide
  rw [nextToken, startsNumeral_cons (by decide), if_neg (by decide), if_neg (by decide),
    if_neg (by decide), if_neg (by simp [hname])]
  simp only [nextOperator, hoperator]
  rfl

end Cursor

/-! ## Words -/

/-- That a name or a numeral in front of a text does not go on in it. -/
def Joint (rest : List Char) : Prop := ∀ c, rest.head? = some c → isNamePart c = false ∧ c ≠ '.'

namespace Joint

variable {rest : List Char}

theorem nil : Joint [] := fun _ h => nomatch h

theorem cons {c : Char} (h : isNamePart c = false) (hpoint : c ≠ '.') (rest : List Char) :
    Joint (c :: rest) := by
  rintro _ ⟨⟩
  exact ⟨h, hpoint⟩

theorem takeWhile_isNamePart (h : Joint rest) : rest.takeWhile isNamePart = [] := by
  cases rest with
  | nil => rfl
  | cons c rest => rw [List.takeWhile_cons, (h c rfl).1, if_neg Bool.false_ne_true]

theorem not_isDigit (h : Joint rest) (c : Char) (hc : rest.head? = some c) : c.isDigit = false := by
  by_contra hdigit
  have hnumeric : isNumeric c = true := by
    obtain ⟨-, hhigh⟩ := Char.isDigit_iff_toNat.mp (eq_true_of_ne_false hdigit)
    have hascii : c.toNat < 0x80 := lt_of_le_of_lt hhigh (by decide)
    rw [isNumeric, if_pos hascii]
    exact eq_true_of_ne_false hdigit
  have hpart := (h c hc).1
  rw [isNamePart, hnumeric] at hpart
  simp at hpart

theorem spanExponent? (h : Joint rest) : TemplateExpr.spanExponent? rest = some ([], rest) := by
  cases rest with
  | nil => rfl
  | cons c rest =>
    have hletters : isNamePart 'e' = true ∧ isNamePart 'E' = true := by decide
    have hpart := (h c rfl).1
    unfold TemplateExpr.spanExponent?
    dsimp only
    rw [if_neg]
    rintro (rfl | rfl)
    · rw [hletters.1] at hpart
      cases hpart
    · rw [hletters.2] at hpart
      cases hpart

end Joint

end TemplateExpr

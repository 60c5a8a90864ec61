import Mathlib
import TemplateExpr.Proofs.Token.Front
import TemplateExpr.Proofs.Token.Quoted

/-!
# Words

A word is a text that is one token: a name, a symbol, a numeral with the value that it spells, or a
body between quotes with the text that it writes (`IsWord`). A token depends on its own text alone:
whatever the scanner took it from, its text is a word of its kind (`tokenize_isWord`), and a word in
front of anything that it does not run into is the token again (`Cursor.passes_word`).
-/

namespace TemplateExpr

open Text Number

inductive IsWord : List Char → TokenKind → Prop
  | name {word : List Char} (h : IsName word) : IsWord word .identifier
  | symbol {word : List Char} (h : IsSymbol word) : IsWord word .symbol
  | numeral {word : List Char} {value : Literal} (h : IsNumeral word)
      (hvalue : numeralValue? word = some value) : IsWord word (.constant value)
  | quoted {quote : Char} {body characters : List Char} (hquote : quote = '\'' ∨ quote = '"')
      (h : StringBody quote body characters) :
      IsWord (quote :: body ++ [quote]) (.constant (.text (String.ofList characters)))

namespace Cursor

/-! ## What is read is a word -/

section

variable {cursor after : Cursor} {token : Token} {first : Char} {tail : List Char}

theorem take_isWord {word : List Char} {kind : TokenKind} (hstands : word <+: cursor.rest)
    (hword : IsWord word kind) (h : cursor.take word.length kind = (.ok token, after)) :
    IsWord token.text.toList token.kind := by
  rw [take, ← List.prefix_iff_eq_take.mp hstands] at h
  cases h
  rwa [String.toList_ofList]

theorem nextNumber_isWord (hstarts : startsNumeral cursor.rest = true)
    (h : cursor.nextNumber = (.ok token, after)) : IsWord token.text.toList token.kind := by
  unfold nextNumber at h
  dsimp only at h
  split at h
  · cases h
  · next exponent rest hspan =>
    have hlongest := longest_numeral hstarts hspan
    split at h
    · next value hvalue => exact take_isWord hlongest.stands (.numeral hlongest.isWord hvalue) h
    · cases h

theorem nextString_isWord {quote : Char} (hquote : quote = '\'' ∨ quote = '"')
    (hrest : cursor.rest = quote :: tail) (h : cursor.nextString quote = (.ok token, after)) :
    IsWord token.text.toList token.kind := by
  have htext := (nextString_covers hrest h).text
  unfold nextString at h
  split at h
  · next characters closed hscan =>
    obtain ⟨body, htail, hbody⟩ := stringBody_of_scanBody hscan
    cases h
    rw [hrest, List.drop_one, List.tail_cons] at htail
    -- The cursor stands behind the closing quote, so the text ends with it.
    have hword : quote :: body ++ [quote] ++ after.rest = cursor.rest := by
      rw [hrest, htail, List.append_assoc]
      rfl
    rw [List.append_cancel_right (htext.trans hword.symm)]
    exact .quoted hquote hbody
  · cases h

theorem nextName_isWord (hrest : cursor.rest = first :: tail) (hfirst : isNameStart first = true)
    (h : cursor.nextName = (.ok token, after)) : IsWord token.text.toList token.kind := by
  have hlongest : Longest IsName (cursor.rest.takeWhile isNamePart) cursor.rest := by
    rw [hrest]
    exact longest_name hfirst
  exact take_isWord hlongest.stands (.name hlongest.isWord) h

theorem nextOperator_isWord (hrest : cursor.rest = first :: tail)
    (hfirst : first ∉ structuralSymbols) (h : cursor.nextOperator first = (.ok token, after)) :
    IsWord token.text.toList token.kind := by
  unfold nextOperator at h
  split at h
  · next op hop =>
    have hlongest := longest_operator hop (by rw [hrest]; rintro _ ⟨⟩; exact hfirst)
    exact take_isWord hlongest.stands (.symbol hlongest.isWord) h
  · cases h

theorem nextToken_isWord (hrest : cursor.rest = first :: tail)
    (h : cursor.nextToken first = (.ok token, after)) : IsWord token.text.toList token.kind := by
  unfold nextToken at h
  split at h
  case isTrue hstarts => exact nextNumber_isWord hstarts h
  split at h
  case isTrue hquote => exact nextString_isWord hquote hrest h
  split at h
  case isTrue hsymbol =>
    have hlongest := longest_structural hsymbol tail
    rw [← hrest] at hlongest
    exact take_isWord hlongest.stands (.symbol hlongest.isWord) h
  case isFalse hsymbol =>
    split at h
    case isTrue hname => exact nextName_isWord hrest hname h
    case isFalse hname => exact nextOperator_isWord hrest hsymbol h

theorem tokensFrom_isWord {ts : List Token} (h : cursor.tokensFrom = .ok ts) :
    ∀ token ∈ ts, IsWord token.text.toList token.kind := by
  induction cursor using tokensFrom.induct generalizing ts with
  | case1 cursor stop hnext =>
    rw [tokensFrom_eq, hnext] at h
    cases h
    exact List.forall_mem_nil _
  | case2 cursor token after hnext ih =>
    rw [tokensFrom_eq, hnext] at h
    dsimp only at h
    rcases hafter : after.tokensFrom with fault | more
    · rw [hafter] at h
      cases h
    rw [hafter] at h
    cases h
    obtain ⟨first, tail, hfirst, htoken⟩ := next_token hnext
    exact List.forall_mem_cons.mpr ⟨nextToken_isWord hfirst htoken, ih hafter⟩
  | case3 cursor fault stop hnext =>
    rw [tokensFrom_eq, hnext] at h
    cases h

end

/-! ## A word is read -/

variable {rest : List Char}

/-- A structural sign is a token. The point is one as well, unless a digit follows. -/
theorem passes_structural {sign : Char} (h : sign ∈ structuralSymbols) (hrest : Joint rest)
    (offset : Nat) :
    Passes ⟨sign :: rest, offset⟩ [⟨sign.toString, .symbol, offset⟩] ⟨rest, offset + 1⟩ := by
  have hall : structuralSymbols.all (fun sign =>
      !isBlank sign && !sign.isDigit && sign != '\'' && sign != '"') = true := by decide
  have hsign := List.all_eq_true.mp hall sign h
  simp only [Bool.and_eq_true, Bool.not_eq_true', bne_iff_ne] at hsign
  obtain ⟨⟨⟨hblank, hdigit⟩, hsingle⟩, hdouble⟩ := hsign
  have hnumeral : startsNumeral (sign :: rest) = false := by
    have hseam := startsNumeral_seam hrest (List.cons_ne_nil sign [])
    rw [List.singleton_append] at hseam
    rw [hseam]
    by_cases hpoint : sign = '.'
    · subst hpoint
      rfl
    · rw [startsNumeral_cons hpoint, hdigit]
  apply passes_token rfl hblank
  rw [nextToken, if_neg (by simp [hnumeral]), if_neg (by tauto), if_pos h]
  rfl

/-- **A word is a token wherever it stands**, if nothing behind it goes on with it. -/
theorem passes_word {word : List Char} {kind : TokenKind} (h : IsWord word kind)
    (hrest : Seam rest) (offset : Nat) :
    Passes ⟨word ++ rest, offset⟩ [⟨String.ofList word, kind, offset⟩]
      ⟨rest, offset + word.length⟩ := by
  cases h with
  | name h =>
    have hname : IsName (String.ofList word).toList := by rwa [String.toList_ofList]
    have hpasses := passes_name hname hrest.joint offset
    rwa [String.toList_ofList] at hpasses
  | symbol h =>
    rcases isSymbol_cases h with ⟨sign, hsign, rfl⟩ | ⟨op, hop, rfl⟩
    · exact passes_structural hsign hrest.joint offset
    · rw [String.ofList_toList]
      exact passes_operator hop hrest.operator offset
  | numeral h hvalue => exact passes_numeral h hrest.joint hvalue offset
  | @quoted quote body characters hquote h =>
    have hpasses := passes_string hquote h rest offset
    rw [List.append_assoc, List.length_append, List.length_cons, List.length_singleton,
      Nat.add_right_comm body.length, ← Nat.add_assoc]
    exact hpasses

end Cursor

theorem tokenize_isWord {source : String} {ts : List Token} (h : tokenize source = .ok ts) :
    ∀ token ∈ ts, IsWord token.text.toList token.kind :=
  Cursor.tokensFrom_isWord h

/-- **A text is a word exactly if it is one token by itself.** -/
theorem isWord_iff_tokenize {word : String} {kind : TokenKind} :
    IsWord word.toList kind ↔ tokenize word = .ok [⟨word, kind, 0⟩] := by
  constructor
  · intro h
    have htokens := (Cursor.passes_word h .nil 0).tokensFrom
    rwa [List.append_nil, String.ofList_toList] at htokens
  · intro h
    exact tokenize_isWord h _ (List.mem_singleton_self _)

end TemplateExpr

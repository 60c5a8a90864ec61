import TemplateExpr.Token.Cursor

/-!
# The spelling of tokens

The parser knows a symbol by its text alone. That is sound for what a scanner hands over: the text
of a name, a numeral or a string literal starts with a character (or, for a numeral such as `.5`,
with two) that no symbol starts with. `tokenize_distinct` says so for every source.
-/

namespace TemplateExpr

open Text Number

def symbolTexts : List String := structuralSymbols.map Char.toString ++ operators

/-- A token that cannot be mistaken for a symbol, unless it is one. -/
def Token.Distinct (token : Token) : Prop :=
  token.kind ≠ .symbol → token.text ∉ symbolTexts

/-- What the text of a name, a numeral or a string literal starts with. -/
inductive StartsWord : List Char → Prop where
  | name {c : Char} {rest : List Char} (h : isNamePart c = true) : StartsWord (c :: rest)
  | digit {c : Char} {rest : List Char} (h : c.isDigit = true) : StartsWord (c :: rest)
  | point {d : Char} {rest : List Char} (h : d.isDigit = true) : StartsWord ('.' :: d :: rest)
  | quote {c : Char} {rest : List Char} (h : c = '\'' ∨ c = '"') : StartsWord (c :: rest)

def startsNoWord : List Char → Bool
  | [] => true
  | c :: rest =>
    !isNamePart c && !c.isDigit && c != '\'' && c != '"' && (c != '.' || rest.isEmpty)

theorem not_startsWord_of_startsNoWord {cs : List Char} (h : startsNoWord cs = true) :
    ¬ StartsWord cs := by
  intro hword
  cases hword with
  | name hc => simp [startsNoWord, hc] at h
  | digit hc => simp [startsNoWord, hc] at h
  | point hd => simp [startsNoWord] at h
  | quote hc => rcases hc with rfl | rfl <;> simp [startsNoWord] at h

theorem not_startsWord_of_mem {text : String} (h : text ∈ symbolTexts) :
    ¬ StartsWord text.toList := by
  have hall : symbolTexts.all (fun text => startsNoWord text.toList) = true := by decide
  exact not_startsWord_of_startsNoWord (List.all_eq_true.mp hall text h)

namespace Cursor

theorem scanBody_offset (quote : Char) (opening : Nat) (rest : List Char) (offset : Nat) :
    offset ≤ (scanBody quote opening rest offset).2.offset := by
  fun_induction scanBody quote opening rest offset with
  | case1 | case2 | case4 | case5 | case6 => simp
  | case3 _ _ _ _ _ _ _ scanned _ ih =>
    rw [scanned] at ih
    simp only at ih ⊢
    omega
  | case7 _ _ _ _ _ _ _ scanned ih =>
    rw [scanned] at ih
    simp only at ih ⊢
    omega

/-- A numeral in front of other text is cut off behind the character, or the point and the digit,
that makes it one. -/
theorem startsWord_take_mantissa {text : List Char} (h : startsNumeral text = true) (more : Nat) :
    StartsWord (text.take ((spanMantissa text).1.length + more)) := by
  unfold startsNumeral at h
  split at h
  · next d rest =>
    have hlong : 2 ≤ (spanMantissa ('.' :: d :: rest)).1.length := by
      simp [spanMantissa, spanDigits, h]
    obtain ⟨n, hn⟩ := Nat.exists_eq_add_of_le hlong
    rw [hn, show 2 + n + more = n + more + 1 + 1 by omega]
    exact StartsWord.point h
  · next c rest _ =>
    have hlong : 1 ≤ (spanMantissa (c :: rest)).1.length := by
      simp only [spanMantissa, spanDigits, List.takeWhile_cons, h, if_true]
      split <;> simp
    obtain ⟨n, hn⟩ := Nat.exists_eq_add_of_le hlong
    rw [hn, show 1 + n + more = n + more + 1 by omega]
    exact StartsWord.digit h
  · simp at h

theorem take_distinct {cursor after : Cursor} {count : Nat} {kind : TokenKind} {token : Token}
    (h : cursor.take count kind = (.ok token, after))
    (hword : StartsWord (cursor.rest.take count)) : token.Distinct := by
  obtain ⟨hok, -⟩ := Prod.mk.inj h
  obtain rfl := Except.ok.inj hok
  intro _ hmem
  exact not_startsWord_of_mem hmem (by rw [String.toList_ofList]; exact hword)

theorem nextNumber_distinct {cursor after : Cursor} {token : Token}
    (h : cursor.nextNumber = (.ok token, after)) (hstart : startsNumeral cursor.rest = true) :
    token.Distinct := by
  simp only [nextNumber] at h
  split at h
  · simp at h
  · split at h
    · refine take_distinct h ?_
      rw [List.length_append]
      exact startsWord_take_mantissa hstart _
    · simp at h

theorem nextString_distinct {cursor after : Cursor} {quote : Char} {tail : List Char}
    {token : Token} (hrest : cursor.rest = quote :: tail) (hquote : quote = '\'' ∨ quote = '"')
    (h : cursor.nextString quote = (.ok token, after)) : token.Distinct := by
  have hpassed := scanBody_offset quote cursor.offset (cursor.rest.drop 1) (cursor.offset + 1)
  simp only [nextString] at h
  split at h
  · next body closed hscan =>
    rw [hscan] at hpassed
    simp only at hpassed
    obtain ⟨hok, -⟩ := Prod.mk.inj h
    obtain rfl := Except.ok.inj hok
    intro _ hmem
    refine not_startsWord_of_mem hmem ?_
    obtain ⟨n, hn⟩ := Nat.exists_eq_add_of_le hpassed
    rw [String.toList_ofList, hrest, show closed.offset - cursor.offset = n + 1 by omega]
    exact StartsWord.quote hquote
  · simp at h

theorem nextToken_distinct {cursor after : Cursor} {first : Char} {tail : List Char} {token : Token}
    (hfirst : cursor.rest = first :: tail) (h : cursor.nextToken first = (.ok token, after)) :
    token.Distinct := by
  simp only [nextToken] at h
  split at h
  · next hstart => exact nextNumber_distinct h hstart
  split at h
  · next hquote => exact nextString_distinct hfirst hquote h
  split at h
  · obtain ⟨hok, -⟩ := Prod.mk.inj h
    obtain rfl := Except.ok.inj hok
    exact fun hkind => absurd rfl hkind
  split at h
  · next hname =>
    have hpart : isNamePart first = true := by
      simp only [isNameStart, isNamePart] at hname ⊢
      grind
    refine take_distinct h ?_
    rw [hfirst, List.takeWhile_cons, if_pos hpart]
    exact StartsWord.name hpart
  · simp only [nextOperator] at h
    split at h
    · obtain ⟨hok, -⟩ := Prod.mk.inj h
      obtain rfl := Except.ok.inj hok
      exact fun hkind => absurd rfl hkind
    · simp at h

theorem next_distinct {cursor after : Cursor} {token : Token}
    (h : cursor.next = (.ok (some token), after)) : token.Distinct := by
  simp only [next] at h
  split at h
  · simp at h
  · next first tail hfirst =>
    generalize hstep : cursor.skipBlanks.nextToken first = step at h
    obtain ⟨result, stop⟩ := step
    obtain ⟨hresult, rfl⟩ := Prod.mk.inj h
    cases result with
    | error => simp [Except.map] at hresult
    | ok found =>
      simp only [Except.map, Except.ok.injEq, Option.some.injEq] at hresult
      subst hresult
      exact nextToken_distinct hfirst hstep

theorem tokensFrom_distinct {cursor : Cursor} {ts : List Token} (h : cursor.tokensFrom = .ok ts) :
    ∀ token ∈ ts, token.Distinct := by
  fun_induction tokensFrom cursor generalizing ts with
  | case1 => simp_all
  | case2 cursor token after hnext ih =>
    cases hafter : after.tokensFrom with
    | error => simp [hafter, Except.map] at h
    | ok more =>
      simp only [hafter, Except.map, Except.ok.injEq] at h
      subst h
      intro found hfound
      rcases List.mem_cons.mp hfound with rfl | hmore
      · exact next_distinct hnext
      · exact ih hafter found hmore
  | case3 => simp_all

end Cursor

/-- **Symbols are recognised by their text.** In the tokens of a source nothing but a symbol has the
text of a symbol. -/
theorem tokenize_distinct {source : String} {ts : List Token} (h : tokenize source = .ok ts) :
    ∀ token ∈ ts, token.Distinct :=
  Cursor.tokensFrom_distinct h

end TemplateExpr

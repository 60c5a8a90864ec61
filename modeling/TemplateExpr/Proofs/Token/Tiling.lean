import Mathlib
import TemplateExpr.Proofs.Token.Longest

/-!
# Tokens tile their source

Nothing of a source is lost, read twice or read out of order: its tokens stand where they say, one
behind the other, with nothing but blanks in front of, between and behind them; and each is as long
as its class allows (`Tiles`). The scanner moves one cursor through the source, by as many
characters as a token has (`Cursor.Covers`). What a whole run does is `Tiled`, which lists blanks
and tokens alternately, and everything said of the tokens is read off it (`tokenize_tiles`).
-/

namespace TemplateExpr

open Text Number

/-! ## One token -/

/-- That a token is the longest name, symbol or numeral at the front of a text, if it is any. -/
structure Token.Greedy (token : Token) (text : List Char) : Prop where
  name : token.kind = .identifier → Longest IsName token.text.toList text
  symbol : token.kind = .symbol → Longest IsSymbol token.text.toList text
  numeral : ∀ value, token.kind = .constant value → (∀ body, value ≠ .text body) →
    Longest IsNumeral token.text.toList text

section

variable {token : Token} {text : List Char}

theorem Token.Greedy.ofName (hkind : token.kind = .identifier)
    (h : Longest IsName token.text.toList text) : token.Greedy text where
  name _ := h
  symbol hsymbol := nomatch hkind.symm.trans hsymbol
  numeral _ hnumeral := nomatch hkind.symm.trans hnumeral

theorem Token.Greedy.ofSymbol (hkind : token.kind = .symbol)
    (h : Longest IsSymbol token.text.toList text) : token.Greedy text where
  name hname := nomatch hkind.symm.trans hname
  symbol _ := h
  numeral _ hnumeral := nomatch hkind.symm.trans hnumeral

theorem Token.Greedy.ofNumeral {value : Literal} (hkind : token.kind = .constant value)
    (h : Longest IsNumeral token.text.toList text) : token.Greedy text where
  name hname := nomatch hkind.symm.trans hname
  symbol hsymbol := nomatch hkind.symm.trans hsymbol
  numeral _ _ _ := h

/-- Nothing is asked of a string literal, which ends at its quote. -/
theorem Token.Greedy.ofString {body : String} (hkind : token.kind = .constant (.text body)) :
    token.Greedy text where
  name hname := nomatch hkind.symm.trans hname
  symbol hsymbol := nomatch hkind.symm.trans hsymbol
  numeral value hvalue hno := by
    cases hkind.symm.trans hvalue
    exact absurd rfl (hno body)

end

/-- That a token is what stands between two cursors. -/
structure Cursor.Covers (cursor : Cursor) (token : Token) (after : Cursor) : Prop where
  position : token.position = cursor.offset
  nonempty : token.text.toList ≠ []
  text : token.text.toList ++ after.rest = cursor.rest
  offset : after.offset = cursor.offset + token.text.toList.length
  greedy : token.Greedy cursor.rest

namespace Cursor

variable {cursor after : Cursor} {token : Token}

theorem take_covers {word : List Char} {kind : TokenKind} (hstands : word <+: cursor.rest)
    (hsome : word ≠ [])
    (hgreedy : Token.Greedy ⟨String.ofList word, kind, cursor.offset⟩ cursor.rest)
    (h : cursor.take word.length kind = (.ok token, after)) : cursor.Covers token after := by
  have hword : cursor.rest.take word.length = word := (List.prefix_iff_eq_take.mp hstands).symm
  rw [take, hword] at h
  cases h
  refine ⟨rfl, by rwa [String.toList_ofList], ?_, by rw [String.toList_ofList]; rfl, hgreedy⟩
  rw [String.toList_ofList, skip]
  exact List.prefix_iff_eq_append.mp hstands

theorem nextName_covers {first : Char} {tail : List Char} (hrest : cursor.rest = first :: tail)
    (hfirst : isNameStart first = true) (h : cursor.nextName = (.ok token, after)) :
    cursor.Covers token after := by
  have hlongest : Longest IsName (cursor.rest.takeWhile isNamePart) cursor.rest := by
    rw [hrest]
    exact longest_name hfirst
  have hsome : cursor.rest.takeWhile isNamePart ≠ [] := by
    obtain ⟨_, _, heq, -⟩ := hlongest.isWord
    rw [heq]
    exact List.cons_ne_nil _ _
  refine take_covers hlongest.stands hsome (.ofName rfl ?_) h
  rwa [String.toList_ofList]

theorem nextNumber_covers (hstarts : startsNumeral cursor.rest = true)
    (h : cursor.nextNumber = (.ok token, after)) : cursor.Covers token after := by
  unfold nextNumber at h
  dsimp only at h
  split at h
  · cases h
  · next exponent rest hspan =>
    have hlongest := longest_numeral hstarts hspan
    split at h
    · next value hvalue =>
      have hsome := List.append_ne_nil_of_left_ne_nil (spanMantissa_ne_nil hstarts) exponent
      refine take_covers hlongest.stands hsome (.ofNumeral rfl ?_) h
      rwa [String.toList_ofList]
    · cases h

theorem nextOperator_covers {first : Char} {tail : List Char}
    (hrest : cursor.rest = first :: tail) (hfirst : first ∉ structuralSymbols)
    (h : cursor.nextOperator first = (.ok token, after)) : cursor.Covers token after := by
  unfold nextOperator at h
  split at h
  · next op hop =>
    have hlongest := longest_operator hop (by rw [hrest]; rintro _ ⟨⟩; exact hfirst)
    refine take_covers hlongest.stands (operatorAt?_ne_empty hop) (.ofSymbol rfl ?_) h
    rwa [String.toList_ofList]
  · cases h

theorem scanBody_rest (quote : Char) (opening : Nat) (rest : List Char) (offset : Nat) :
    (scanBody quote opening rest offset).2.rest <:+ rest := by
  fun_induction scanBody quote opening rest offset with
  | case1 => exact List.suffix_refl _
  | case2 | case4 | case5 | case6 => exact List.suffix_cons _ _
  | case3 offset after value count hescape body closed hscan hquote ih =>
    rw [hscan] at ih
    exact (ih.trans (List.drop_suffix _ _)).trans (List.suffix_cons _ _)
  | case7 offset c after hquote hslash body closed hscan ih =>
    rw [hscan] at ih
    exact ih.trans (List.suffix_cons _ _)

theorem nextString_covers {quote : Char} {tail : List Char} (hrest : cursor.rest = quote :: tail)
    (h : cursor.nextString quote = (.ok token, after)) : cursor.Covers token after := by
  have hlength := scanBody_length quote cursor.offset (cursor.rest.drop 1) (cursor.offset + 1)
  have hsuffix := scanBody_rest quote cursor.offset (cursor.rest.drop 1) (cursor.offset + 1)
  unfold nextString at h
  split at h
  · next body closed hscan =>
    rw [hscan, hrest, List.drop_one, List.tail_cons] at hlength hsuffix
    obtain ⟨inside, hinside⟩ := hsuffix
    -- What was passed is the quote and what stands between it and the cursor afterwards.
    have hword : cursor.rest = (quote :: inside) ++ closed.rest := by
      rw [hrest, ← hinside]
      rfl
    have hcount : closed.offset - cursor.offset = (quote :: inside).length := by
      have htail := congrArg List.length hinside
      simp only [List.length_append, List.length_cons] at htail hlength ⊢
      omega
    rw [hcount, hword, List.take_left] at h
    cases h
    refine ⟨rfl, by simp, by rw [String.toList_ofList, hword], ?_, .ofString rfl⟩
    rw [String.toList_ofList, ← hcount]
    simp only [List.length_cons] at hcount
    omega
  · cases h

/-- **A token covers what it takes of the source**, whatever class it is of. -/
theorem nextToken_covers {first : Char} {tail : List Char} (hrest : cursor.rest = first :: tail)
    (h : cursor.nextToken first = (.ok token, after)) : cursor.Covers token after := by
  unfold nextToken at h
  split at h
  case isTrue hstarts => exact nextNumber_covers hstarts h
  split at h
  case isTrue hquote => exact nextString_covers hrest h
  split at h
  case isTrue hsymbol =>
    have hlongest := longest_structural hsymbol tail
    rw [← hrest] at hlongest
    refine take_covers hlongest.stands (List.cons_ne_nil _ _) (.ofSymbol rfl ?_) h
    rwa [String.toList_ofList]
  case isFalse hsymbol =>
    split at h
    case isTrue hname => exact nextName_covers hrest hname h
    case isFalse hname => exact nextOperator_covers hrest hsymbol h

end Cursor

/-! ## All tokens -/

/-- That a text is made of blanks and tokens. The text in front of it that is passed already tells
where the tokens stand. -/
inductive Tiled : (passed text : List Char) → List Token → Prop
  | blanks {passed text : List Char} (h : ∀ c ∈ text, isBlank c = true) : Tiled passed text []
  | token {passed blanks more : List Char} {token : Token} {ts : List Token}
    (hblanks : ∀ c ∈ blanks, isBlank c = true)
    (hposition : token.position = (passed ++ blanks).length) (hsome : token.text.toList ≠ [])
    (hgreedy : token.Greedy (token.text.toList ++ more))
    (hmore : Tiled (passed ++ blanks ++ token.text.toList) more ts) :
    Tiled passed (blanks ++ (token.text.toList ++ more)) (token :: ts)

/-- **What a run of the scanner has passed is tiled.** -/
theorem Cursor.tokensFrom_tiled {cursor : Cursor} {ts : List Token}
    (h : cursor.tokensFrom = .ok ts) {passed : List Char}
    (hpassed : cursor.offset = passed.length) : Tiled passed cursor.rest ts := by
  have hblanks : ∀ (cursor : Cursor), ∀ c ∈ cursor.rest.takeWhile isBlank, isBlank c = true :=
    fun _ _ hc => List.mem_takeWhile_imp hc
  induction cursor using tokensFrom.induct generalizing ts passed with
  | case1 cursor stop hnext =>
    rw [tokensFrom_eq, hnext] at h
    cases h
    rw [← takeWhile_append_skipBlanks cursor, next_end hnext, List.append_nil]
    exact .blanks (hblanks cursor)
  | case2 cursor token after hnext ih =>
    rw [tokensFrom_eq, hnext] at h
    dsimp only at h
    rcases hafter : after.tokensFrom with fault | more
    · rw [hafter] at h
      cases h
    rw [hafter] at h
    cases h
    obtain ⟨first, tail, hfirst, htoken⟩ := next_token hnext
    have hcovers := nextToken_covers hfirst htoken
    have hhere : cursor.skipBlanks.offset =
        (passed ++ cursor.rest.takeWhile isBlank).length := by
      rw [List.length_append, ← hpassed]
      rfl
    rw [← takeWhile_append_skipBlanks cursor, ← hcovers.text]
    refine .token (hblanks cursor) (hcovers.position.trans hhere) hcovers.nonempty ?_ ?_
    · rw [hcovers.text]
      exact hcovers.greedy
    · refine ih hafter ?_
      rw [hcovers.offset, hhere]
      exact List.length_append.symm
  | case3 cursor fault stop hnext =>
    rw [tokensFrom_eq, hnext] at h
    cases h

section

variable {passed text : List Char} {ts : List Token}

theorem Tiled.stands (h : Tiled passed text ts) :
    ∀ token ∈ ts, passed.length ≤ token.position ∧ token.text.toList ≠ [] ∧
      token.text.toList <+: (passed ++ text).drop token.position ∧
      token.Greedy ((passed ++ text).drop token.position) := by
  induction h with
  | blanks => simp
  | @token passed blanks more token ts hblanks hposition hsome hgreedy hmore ih =>
    refine List.forall_mem_cons.mpr ⟨?_, fun other hother => ?_⟩
    · rw [hposition, ← List.append_assoc, List.drop_left, List.length_append]
      exact ⟨Nat.le_add_right _ _, hsome, List.prefix_append _ _, hgreedy⟩
    · obtain ⟨hle, hothers⟩ := ih other hother
      rw [List.append_assoc, List.append_assoc] at hothers
      refine ⟨le_trans ?_ hle, hothers⟩
      rw [List.length_append, List.length_append, Nat.add_assoc]
      exact Nat.le_add_right _ _

theorem Tiled.apart (h : Tiled passed text ts) :
    ts.Pairwise fun first second =>
      first.position + first.text.toList.length ≤ second.position := by
  induction h with
  | blanks => exact .nil
  | token hblanks hposition hsome hgreedy hmore ih =>
    refine List.pairwise_cons.mpr ⟨fun second hsecond => ?_, ih⟩
    rw [hposition, ← List.length_append]
    exact (hmore.stands second hsecond).1

theorem Tiled.gaps (h : Tiled passed text ts) {index : Nat} {c : Char}
    (hindex : passed.length ≤ index) (hc : (passed ++ text)[index]? = some c)
    (hgap : ∀ token ∈ ts, index < token.position ∨
      token.position + token.text.toList.length ≤ index) : isBlank c = true := by
  induction h with
  | blanks hblanks =>
    rw [List.getElem?_append_right hindex] at hc
    exact hblanks c (List.mem_of_getElem? hc)
  | @token passed blanks more token ts hblanks hposition hsome hgreedy hmore ih =>
    obtain ⟨hhere, hothers⟩ := List.forall_mem_cons.mp hgap
    rw [← List.append_assoc, hposition] at *
    rcases hhere with hbefore | hbehind
    · rw [List.getElem?_append_left hbefore, List.getElem?_append_right hindex] at hc
      exact hblanks c (List.mem_of_getElem? hc)
    · rw [← List.append_assoc] at hc
      rw [← List.length_append] at hbehind
      exact ih hbehind hc hothers

theorem Tiled.length_le (h : Tiled passed text ts) : ts.length ≤ text.length := by
  induction h with
  | blanks => exact Nat.zero_le _
  | token hblanks hposition hsome hgreedy hmore ih =>
    have hpos := List.length_pos_iff.mpr hsome
    simp only [List.length_append, List.length_cons]
    omega

end

/-! ## The law -/

structure Tiles (source : List Char) (ts : List Token) : Prop where
  /-- A token is what the source has from its position on. -/
  text : ∀ token ∈ ts, token.text.toList = (source.drop token.position).take token.text.length
  nonempty : ∀ token ∈ ts, token.text ≠ ""
  increasing : ts.Pairwise fun first second => first.position < second.position
  /-- A token begins no earlier than the tokens in front of it end. -/
  apart : ts.Pairwise fun first second => first.position + first.text.length ≤ second.position
  /-- A character that no token covers is blank. -/
  gaps : ∀ index c, source[index]? = some c →
    (∀ token ∈ ts, index < token.position ∨ token.position + token.text.length ≤ index) →
      isBlank c = true
  names : ∀ token ∈ ts, token.kind = .identifier →
    Longest IsName token.text.toList (source.drop token.position)
  symbols : ∀ token ∈ ts, token.kind = .symbol →
    Longest IsSymbol token.text.toList (source.drop token.position)
  numerals : ∀ token ∈ ts, ∀ value, token.kind = .constant value →
    (∀ body, value ≠ .text body) →
      Longest IsNumeral token.text.toList (source.drop token.position)
  length_le : ts.length ≤ source.length

/-- **Scanning loses nothing and reads as far as it can.** -/
theorem tokenize_tiles {source : String} {ts : List Token} (h : tokenize source = .ok ts) :
    Tiles source.toList ts := by
  have htiled : Tiled [] source.toList ts := Cursor.tokensFrom_tiled h rfl
  have hstands := htiled.stands
  have hapart := htiled.apart
  simp only [List.nil_append] at hstands
  have hlength : ∀ token : Token, token.text.toList.length = token.text.length :=
    fun token => String.length_toList
  constructor
  case text =>
    intro token htoken
    rw [← hlength]
    exact List.prefix_iff_eq_take.mp (hstands token htoken).2.2.1
  case nonempty =>
    intro token htoken hempty
    exact (hstands token htoken).2.1 (by rw [hempty]; rfl)
  case increasing =>
    refine hapart.imp_of_mem fun {first second} hfirst _ hle => ?_
    have hpos := List.length_pos_iff.mpr (hstands first hfirst).2.1
    omega
  case apart => simpa only [hlength] using hapart
  case gaps =>
    intro index c hc hgap
    simp only [← hlength] at hgap
    exact htiled.gaps (Nat.zero_le index) hc hgap
  case names => exact fun token htoken => (hstands token htoken).2.2.2.name
  case symbols => exact fun token htoken => (hstands token htoken).2.2.2.symbol
  case numerals => exact fun token htoken => (hstands token htoken).2.2.2.numeral
  case length_le => exact htiled.length_le

/-- Operators and numerals that could end earlier, with blanks around them. -/
theorem tokenize_tiles_greedy :
    ∃ ts, tokenize " a1 === 42" = .ok ts ∧ Tiles " a1 === 42".toList ts := by
  obtain ⟨ts, hts⟩ : ∃ ts, tokenize " a1 === 42" = .ok ts := ⟨_, by cbv⟩
  exact ⟨ts, hts, tokenize_tiles hts⟩

end TemplateExpr

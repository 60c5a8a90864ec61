import Mathlib
import TemplateExpr.Proofs.Token.Front
import TemplateExpr.Proofs.Token.Quoted
import TemplateExpr.Proofs.Tree.Derivation

/-!
# Phrases as they are spelt

A text is spelt as a phrase if it is read, wherever it stands, as tokens that the phrase derives.
How far that reaches depends on what may stand behind it (`Spelling`): behind a closing bracket
anything, behind a name or a numeral what does not go on with it.

Spellings are put one behind the other like the texts (`Spelling.append`). What comes of that for
brackets and for lists is said here once, for every phrase that has them.
-/

namespace TemplateExpr

open Text Number Token

/-! ## Spellings -/

/-- That a text, in front of every text that `follow` admits, is read as tokens of which `P`
holds. -/
def Spelling (text : List Char) (follow : List Char → Prop) (P : List Token → Prop) : Prop :=
  ∀ rest offset, follow rest →
    ∃ ts after, P ts ∧ Cursor.Passes ⟨text ++ rest, offset⟩ ts ⟨rest, after⟩

def NoOperator (rest : List Char) : Prop :=
  ∀ c, rest.head? = some c → ∀ op ∈ operators, c ∉ op.toList

def StartsName (rest : List Char) : Prop := ∃ c tail, rest = c :: tail ∧ isNameStart c = true

theorem StartsName.noOperator {rest : List Char} (h : StartsName rest) : NoOperator rest := by
  obtain ⟨c, tail, rfl, hc⟩ := h
  rintro _ ⟨⟩
  exact (not_mem_of_isNameStart hc).2

theorem IsName.startsName {word : List Char} (h : IsName word) (rest : List Char) :
    StartsName (word ++ rest) := by
  obtain ⟨first, tail, rfl, hfirst, -⟩ := h
  exact ⟨first, tail ++ rest, rfl, hfirst⟩

namespace Spelling

variable {text more : List Char} {follow follow' : List Char → Prop} {P Q : List Token → Prop}

theorem mono (h : Spelling text follow P) (hfollow : ∀ rest, follow' rest → follow rest)
    (hderives : ∀ ts, P ts → Q ts) : Spelling text follow' Q := by
  intro rest offset hrest
  obtain ⟨ts, after, hts, hpasses⟩ := h rest offset (hfollow rest hrest)
  exact ⟨ts, after, hderives ts hts, hpasses⟩

/-- **Spellings one behind the other.** The second has to be something that may follow the first. -/
theorem append (h : Spelling text follow P) (h' : Spelling more follow' Q)
    (hfollow : ∀ rest, follow' rest → follow (more ++ rest)) :
    Spelling (text ++ more) follow' fun ts => ∃ us vs, ts = us ++ vs ∧ P us ∧ Q vs := by
  intro rest offset hrest
  obtain ⟨us, between, hus, hfirst⟩ := h (more ++ rest) offset (hfollow rest hrest)
  obtain ⟨vs, after, hvs, hsecond⟩ := h' rest between hrest
  rw [List.append_assoc]
  exact ⟨us ++ vs, after, ⟨us, vs, rfl, hus, hvs⟩, hfirst.trans hsecond⟩

/-! ### Single tokens -/

theorem lone {c : Char} (h : Cursor.isLoneSymbol c = true) :
    Spelling [c] (fun _ => True) fun ts => ∃ p, ts = [symbol c.toString p] := by
  intro rest offset _
  exact ⟨_, _, ⟨offset, rfl⟩, Cursor.passes_symbol h rest offset⟩

theorem behind (c : Char) (hlone : Cursor.isLoneSymbol c = true) (h : Spelling text follow P) :
    Spelling (c :: text) follow fun ts => ∃ p us, ts = symbol c.toString p :: us ∧ P us := by
  refine ((lone hlone).append h fun _ _ => trivial).mono (fun _ hrest => hrest) ?_
  rintro _ ⟨_, us, rfl, ⟨p, rfl⟩, hus⟩
  exact ⟨p, us, rfl, hus⟩

theorem operator {op : String} (h : op ∈ operators) :
    Spelling op.toList NoOperator fun ts => ∃ p, ts = [symbol op p] := by
  intro rest offset hrest
  exact ⟨_, _, ⟨offset, rfl⟩, Cursor.passes_operator h hrest offset⟩

theorem point : Spelling ['.'] StartsName fun ts => ∃ p, ts = [symbol "." p] := by
  rintro _ offset ⟨c, tail, rfl, hc⟩
  exact ⟨_, _, ⟨offset, rfl⟩, Cursor.passes_point (not_isDigit_of_isNameStart hc) offset⟩

theorem name {name : String} (h : IsName name.toList) :
    Spelling name.toList Joint fun ts => ∃ p, ts = [word name p] := by
  intro rest offset hrest
  exact ⟨_, _, ⟨offset, rfl⟩, Cursor.passes_name h hrest offset⟩

theorem numeral (h : IsNumeral text) {value : Literal} (hvalue : numeralValue? text = some value) :
    Spelling text Joint fun ts => ∃ spelling p, ts = [literal spelling value p] := by
  intro rest offset hrest
  exact ⟨_, _, ⟨_, offset, rfl⟩, Cursor.passes_numeral h hrest hvalue offset⟩

theorem quoted {quote : Char} (hquote : quote = '\'' ∨ quote = '"') {body characters : List Char}
    (h : StringBody quote body characters) :
    Spelling (quote :: body ++ [quote]) (fun _ => True) fun ts =>
      ∃ spelling p, ts = [literal spelling (.text (String.ofList characters)) p] := by
  intro rest offset _
  have hpasses := Cursor.passes_string hquote h rest offset
  rw [List.append_assoc, List.singleton_append]
  exact ⟨_, _, ⟨_, offset, rfl⟩, hpasses⟩

/-! ### Brackets -/

theorem wrapped (opening closing : Char) (hopening : Cursor.isLoneSymbol opening = true)
    (hclosing : Cursor.isLoneSymbol closing = true) (hjoint : isNamePart closing = false)
    (h : Spelling text Joint P) :
    Spelling (opening :: text ++ [closing]) (fun _ => True) fun ts => ∃ us p q,
      ts = symbol opening.toString p :: us ++ [symbol closing.toString q] ∧ P us := by
  have hpoint : closing ≠ '.' := by
    rintro rfl
    cases hclosing
  have hends : ∀ rest, True → Joint ([closing] ++ rest) := fun rest _ => .cons hjoint hpoint rest
  refine ((h.append (lone hclosing) hends).behind opening hopening).mono (fun _ h => h) ?_
  rintro _ ⟨p, _, rfl, us, _, rfl, hus, q, rfl⟩
  exact ⟨us, p, q, rfl, hus⟩

end Spelling

theorem tokenize_spelling {text : List Char} {follow : List Char → Prop} {P : List Token → Prop}
    (h : Spelling text follow P) (hfollow : follow []) :
    ∃ ts, tokenize (String.ofList text) = .ok ts ∧ P ts := by
  obtain ⟨ts, after, hts, hpasses⟩ := h [] 0 hfollow
  rw [List.append_nil] at hpasses
  refine ⟨ts, ?_, hts⟩
  rw [tokenize, Cursor.start, String.toList_ofList, hpasses.tokensFrom]

/-! ## Phrases -/

def Phrase.SpeltAs (phrase : Phrase) (text : List Char) : Prop :=
  Spelling text Joint (Derives .innermost phrase)

theorem tokenize_speltAs {phrase : Phrase} {text : List Char} (h : phrase.SpeltAs text) :
    ∃ ts, tokenize (String.ofList text) = .ok ts ∧ Derives .innermost phrase ts :=
  tokenize_spelling h .nil

namespace Phrase

variable {text : List Char}

theorem SpeltAs.mono {phrase other : Phrase} (h : phrase.SpeltAs text)
    (hderives : ∀ ts, Derives .innermost phrase ts → Derives .innermost other ts) :
    other.SpeltAs text :=
  Spelling.mono h (fun _ hrest => hrest) hderives

theorem SpeltAs.assignment {tree : Node} (h : (Phrase.prefixed tree).SpeltAs text) :
    (Phrase.assignment true tree).SpeltAs text :=
  h.mono fun _ => Derives.assignment_of_prefixed

theorem SpeltAs.prefixed {tree : Node} (h : (Phrase.operand tree).SpeltAs text) :
    (Phrase.prefixed tree).SpeltAs text :=
  h.mono fun _ => Derives.prefixed_of_operand

/-! ### Atoms -/

theorem isName_word {spelling : String} (h : spelling ∈ ["null", "true", "false", "this"]) :
    IsName spelling.toList := by
  have hall : ∀ word ∈ ["null", "true", "false", "this"], IsName word.toList := by decide
  exact hall spelling h

theorem speltAs_word {spelling : String} {tree : Node} (h : WordDenotes spelling tree)
    (hname : IsName spelling.toList) : (Phrase.operand tree).SpeltAs spelling.toList := by
  refine (Spelling.name hname).mono (fun _ hrest => hrest) ?_
  rintro _ ⟨p, rfl⟩
  exact .word h

theorem speltAs_numeral (h : IsNumeral text) {value : Literal}
    (hvalue : numeralValue? text = some value) :
    (Phrase.operand (.literal false value)).SpeltAs text := by
  refine (Spelling.numeral h hvalue).mono (fun _ hrest => hrest) ?_
  rintro _ ⟨spelling, p, rfl⟩
  exact .constant

/-! ### Lists -/

/-- That a phrase is a list of others, with a symbol between them. -/
structure Lists {α : Type} (separator : Char) (one : α → Phrase) (all : List α → Phrase) :
    Prop where
  none : Derives .innermost (all []) []
  last : ∀ item ts, Derives .innermost (one item) ts → Derives .innermost (all [item]) ts
  more : ∀ item next items us vs p, Derives .innermost (one item) us →
    Derives .innermost (all (next :: items)) vs →
      Derives .innermost (all (item :: next :: items)) (us ++ symbol separator.toString p :: vs)

theorem lists_elements : Lists ',' (Phrase.assignment true) Phrase.elements where
  none := .noElement
  last _ _ h := .lastElement h
  more _ _ _ _ _ _ h hs := .moreElements h hs

theorem lists_entries :
    Lists ',' (fun field : PropertyKey × Node => Phrase.entry field.1 field.2) Phrase.entries where
  none := .noEntry
  last _ _ h := .lastEntry h
  more _ _ _ _ _ _ h hs := .moreEntries h hs

theorem lists_arguments : Lists ',' Phrase.pipeline Phrase.arguments where
  none := .noArgument
  last _ _ h := .someArguments (.lastArgument h)
  more _ _ _ _ _ _ h hs := by
    cases hs with
    | someArguments hs => exact .someArguments (.moreArguments h hs)

theorem lists_statements : Lists ';' Phrase.pipeline Phrase.statements where
  none := .lastStatement .noStatement
  last _ _ h := .lastStatement (.oneStatement h)
  more _ _ _ _ _ _ h hs := .moreStatements (.oneStatement h) hs

/-- **Items with a symbol between them** are a list of them. -/
theorem Lists.speltAs {α : Type} {separator : Char} {one : α → Phrase} {all : List α → Phrase}
    (hlists : Lists separator one all) (hseparator : Cursor.isLoneSymbol separator = true)
    (hjoint : isNamePart separator = false) {texts : List (List Char)} {items : List α}
    (h : List.Forall₂ (fun text item => (one item).SpeltAs text) texts items) :
    (all items).SpeltAs ([separator].intercalate texts) := by
  have hpoint : separator ≠ '.' := by
    rintro rfl
    cases hseparator
  induction h with
  | nil => exact fun rest offset _ => ⟨[], offset, hlists.none, .refl _⟩
  | @cons text item texts items hitem hitems ih =>
    cases hitems with
    | nil =>
      rw [List.intercalate_singleton]
      exact hitem.mono (hlists.last item)
    | @cons text' next texts items hnext hitems =>
      have hwhole := Spelling.append hitem (ih.behind separator hseparator)
        fun rest _ => .cons hjoint hpoint _
      rw [List.intercalate_cons_cons, List.append_assoc]
      refine hwhole.mono (fun _ hrest => hrest) ?_
      rintro _ ⟨us, _, rfl, hus, p, vs, rfl, hvs⟩
      exact hlists.more item next items us vs p hus hvs

end Phrase

end TemplateExpr

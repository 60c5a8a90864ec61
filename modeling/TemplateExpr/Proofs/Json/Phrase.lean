import Mathlib
import TemplateExpr.Proofs.Json.Shape
import TemplateExpr.Proofs.Tree.Spelling

/-!
# JSON texts as phrases

The pieces of JSON texts are phrases of the language of expressions: texts in quotes and numerals
are constants, an array is an array and an object an object, with blanks between the tokens. A piece
is looked at wherever it may stand (`Phrase.SpeltAs`), so that the pieces can be put together.
-/

namespace TemplateExpr

open Text Number Json Token

/-! ## Texts in quotes -/

theorem stringUnit_escapeChar (c : Char) : StringUnit '"' (escapeChar c) c := by
  rcases escapeChar_cases c with ⟨hself, hquote, hslash, -⟩ | ⟨letter, hletter, hmem⟩ |
    ⟨hcode, hcontrol⟩
  · rw [hself]
    exact .itself hquote hslash
  · have hwritten : ∀ escape ∈ writtenEscapes, escape ∈ letterEscapes := by decide
    rw [hletter]
    exact .escape (.letter (hwritten _ hmem))
  · rw [hcode]
    exact .escape (.code (hexCode_hexCode hcontrol))

theorem stringBody_escaped (characters : List Char) :
    StringBody '"' (characters.flatMap escapeChar) characters := by
  induction characters with
  | nil => exact .nil
  | cons c characters ih => exact .cons (stringUnit_escapeChar c) ih

/-- **A text in quotes is one constant**, the text itself, whatever is in it. -/
theorem Spelling.quotedText (s : String) :
    Spelling (Json.quoted s) (fun _ => True) fun ts =>
      ∃ spelling p, ts = [literal spelling (.text s) p] := by
  have hspelling := Spelling.quoted (.inr rfl) (stringBody_escaped s.toList)
  rw [String.ofList_toList] at hspelling
  exact hspelling

/-! ## Phrases wherever they stand -/

theorem Joint.blanks {blanks rest : List Char} (h : ∀ c ∈ blanks, Layout.Blank c)
    (hrest : Joint rest) : Joint (blanks ++ rest) := by
  cases blanks with
  | nil => exact hrest
  | cons c blanks =>
    rcases h c List.mem_cons_self with rfl | rfl
    all_goals exact Joint.cons (by decide) (by decide) _

theorem Cursor.passes_layout {blanks : List Char} (h : ∀ c ∈ blanks, Layout.Blank c)
    (rest : List Char) (offset : Nat) :
    Passes ⟨blanks ++ rest, offset⟩ [] ⟨rest, offset + blanks.length⟩ := by
  have hblank : isBlank ' ' = true ∧ isBlank '\n' = true := by decide
  refine passes_blanks (fun c hc => ?_) rest offset
  rcases h c hc with rfl | rfl
  · exact hblank.1
  · exact hblank.2

namespace Phrase

variable {text : List Char}

/-! ### Atoms -/

theorem speltAs_quoted (s : String) :
    (Phrase.operand (.literal false (.text s))).SpeltAs (quoted s) := by
  refine (Spelling.quotedText s).mono (fun _ _ => trivial) ?_
  rintro _ ⟨spelling, p, rfl⟩
  exact .constant

theorem SpeltAs.minus {tree : Node} (h : (Phrase.prefixed tree).SpeltAs text) :
    (Phrase.prefixed (.unary false .minus tree)).SpeltAs ('-' :: text) := by
  intro rest offset hrest
  obtain ⟨ts, after, hts, hpasses⟩ := h rest (offset + 1) hrest
  exact ⟨_, after, .signed rfl hts, (Cursor.passes_minus _ offset).trans hpasses⟩

/-! ### Lists in brackets -/

theorem SpeltAs.layout {phrase : Phrase} {blanks : List Char} (h : ∀ c ∈ blanks, Layout.Blank c)
    (hphrase : phrase.SpeltAs text) : phrase.SpeltAs (blanks ++ text) := by
  intro rest offset hrest
  obtain ⟨ts, after, hts, hpasses⟩ := hphrase rest (offset + blanks.length) hrest
  rw [List.append_assoc]
  exact ⟨ts, after, hts, (Cursor.passes_layout h _ _).trans hpasses⟩

theorem Lists.speltAs_rows {α : Type} {one : α → Phrase} {all : List α → Phrase}
    (hlists : Lists ',' one all) {gap lead : List Char} (hgap : ∀ c ∈ gap, Layout.Blank c)
    (hlead : ∀ c ∈ lead, Layout.Blank c) {texts : List (List Char)} {items : List α}
    (h : List.Forall₂ (fun text item => (one item).SpeltAs text) texts items) :
    (all items).SpeltAs (rows gap lead texts) := by
  induction h with
  | nil => exact fun rest offset _ => ⟨[], offset, hlists.none, .refl _⟩
  | @cons text item texts items hitem hitems ih =>
    have hfirst : (one item).SpeltAs (lead ++ text) := hitem.layout hlead
    cases hitems with
    | nil => exact hfirst.mono (hlists.last item)
    | @cons text' next texts items hnext hothers =>
      -- The item ends at its comma; the blanks behind the comma belong to the rows that follow.
      have hbehind := Spelling.behind ',' (by decide) (ih.layout hgap)
      have hwhole := Spelling.append hfirst hbehind
        fun rest _ => .cons (by decide) (by decide) _
      have htext : rows gap lead (text :: text' :: texts) =
          lead ++ text ++ ([','] ++ (gap ++ rows gap lead (text' :: texts))) := by simp [rows]
      rw [htext]
      refine hwhole.mono (fun _ hrest => hrest) ?_
      rintro _ ⟨us, _, rfl, hus, p, vs, rfl, hvs⟩
      exact hlists.more item next items us vs p hus hvs

theorem SpeltAs.before_layout {phrase : Phrase} {blanks : List Char}
    (h : ∀ c ∈ blanks, Layout.Blank c) (hphrase : phrase.SpeltAs text) :
    phrase.SpeltAs (text ++ blanks) := by
  intro rest offset hrest
  obtain ⟨ts, between, hts, hpasses⟩ := hphrase (blanks ++ rest) offset (.blanks h hrest)
  have hblanks := hpasses.trans (Cursor.passes_layout h rest between)
  rw [List.append_nil] at hblanks
  rw [List.append_assoc]
  exact ⟨ts, _, hts, hblanks⟩

theorem SpeltAs.wrapped {inner outer : Phrase} {opening closing : Char}
    (hopening : Cursor.isLoneSymbol opening = true) (hclosing : Cursor.isLoneSymbol closing = true)
    (hjoint : isNamePart closing = false)
    (hwrap : ∀ us p q, Derives .innermost inner us → Derives .innermost outer
      (symbol opening.toString p :: us ++ [symbol closing.toString q]))
    {before after : List Char} (hbefore : ∀ c ∈ before, Layout.Blank c)
    (hafter : ∀ c ∈ after, Layout.Blank c) (h : inner.SpeltAs text) :
    outer.SpeltAs (opening :: (before ++ (text ++ (after ++ [closing])))) := by
  have hwhole := Spelling.wrapped opening closing hopening hclosing hjoint
    ((h.layout hbefore).before_layout hafter)
  simp only [List.cons_append, List.append_assoc] at hwhole
  refine hwhole.mono (fun _ _ => trivial) ?_
  rintro _ ⟨us, p, q, rfl, hus⟩
  exact hwrap us p q hus

/-- **Items in brackets**, in either layout. -/
theorem Lists.speltAs_bracketed {α : Type} {one : α → Phrase} {all : List α → Phrase}
    (hlists : Lists ',' one all) {outer : Phrase} {opening closing : Char}
    (hopening : Cursor.isLoneSymbol opening = true) (hclosing : Cursor.isLoneSymbol closing = true)
    (hjoint : isNamePart closing = false) {items : List α}
    (hwrap : ∀ us p q, Derives .innermost (all items) us → Derives .innermost outer
      (symbol opening.toString p :: us ++ [symbol closing.toString q]))
    (layout : Layout) (level : Nat) {texts : List (List Char)}
    (h : List.Forall₂ (fun text item => (one item).SpeltAs text) texts items) :
    outer.SpeltAs (bracketed layout level opening closing texts) := by
  have hrows := hlists.speltAs_rows layout.blank_gap (layout.blank_lead (level + 1)) h
  have hnone : ∀ c ∈ ([] : List Char), Layout.Blank c := fun _ hc => nomatch hc
  by_cases htexts : texts = []
  · subst htexts
    exact SpeltAs.wrapped hopening hclosing hjoint hwrap hnone hnone hrows
  · rw [bracketed_eq layout level opening closing htexts]
    have hafter : ∀ c ∈ layout.gap ++ layout.lead level, Layout.Blank c :=
      List.forall_mem_append.mpr ⟨layout.blank_gap, layout.blank_lead level⟩
    exact SpeltAs.wrapped hopening hclosing hjoint hwrap layout.blank_gap hafter hrows

theorem speltAs_array (layout : Layout) (level : Nat) {texts : List (List Char)} {nodes : List Node}
    (h : List.Forall₂ (fun text node => (Phrase.assignment true node).SpeltAs text) texts nodes) :
    (Phrase.operand (.array false nodes)).SpeltAs (bracketed layout level '[' ']' texts) :=
  lists_elements.speltAs_bracketed (by decide) (by decide) (by decide)
    (fun _ _ _ hus => .array hus) layout level h

theorem SpeltAs.member {node : Node} (key : String) (layout : Layout)
    (h : (Phrase.assignment true node).SpeltAs text) :
    (Phrase.entry (.literal (.text key)) node).SpeltAs
      (quoted key ++ ':' :: (layout.space ++ text)) := by
  have hvalue := Spelling.behind ':' (by decide) (h.layout layout.blank_space)
  refine ((Spelling.quotedText key).append hvalue fun _ _ => trivial).mono (fun _ h => h) ?_
  rintro _ ⟨_, _, rfl, ⟨spelling, p, rfl⟩, q, us, rfl, hus⟩
  exact .constantEntry hus

def textFields (names : List String) (nodes : List Node) : List (PropertyKey × Node) :=
  List.zipWith (fun name node => (.literal (.text name), node)) names nodes

theorem textFields_cons (name : String) (names : List String) (node : Node) (nodes : List Node) :
    textFields (name :: names) (node :: nodes) =
      (.literal (.text name), node) :: textFields names nodes :=
  rfl

theorem speltAs_object (layout : Layout) (level : Nat) {members : List (String × List Char)}
    {nodes : List Node}
    (h : List.Forall₂ (fun member node => (Phrase.assignment true node).SpeltAs member.2)
      members nodes) :
    (Phrase.operand (.object false (textFields (members.map Prod.fst) nodes))).SpeltAs
      (bracketed layout level '\x7b' '\x7d'
        (members.map fun member => quoted member.1 ++ ':' :: (layout.space ++ member.2))) := by
  refine lists_entries.speltAs_bracketed (by decide) (by decide) (by decide)
    (fun _ _ _ hus => .object hus) layout level ?_
  induction h with
  | nil => exact .nil
  | cons hnode _ ih => exact .cons (hnode.member _ layout) ih

end Phrase

end TemplateExpr

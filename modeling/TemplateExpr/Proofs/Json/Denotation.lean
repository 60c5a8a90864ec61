import Mathlib
import TemplateExpr.Proofs.Json.Number
import TemplateExpr.Proofs.Json.Shape
import TemplateExpr.Proofs.Json.Unambiguity
import TemplateExpr.Proofs.Text.Escape
import TemplateExpr.Proofs.Value.Equality
import TemplateExpr.Proofs.Value.Parts

/-!
# What JSON texts denote

Every value is written as JSON, in both layouts as the same document, and no object of the document
has two members of one name. What is left out of a text are the absent, functions and names for
bookkeeping. Without the latter, the document is what the value is as a document: turned into
values, the two are equal (`Value.toJson_denotes`).
-/

namespace TemplateExpr

open Number Text Json

/-! ## Parts of values and of documents -/

/-- That no record in a value has a name for bookkeeping. -/
def Value.NoInternalNames (value : Value) : Prop :=
  ∀ entries, Value.Inside (.record entries) value → ∀ entry ∈ entries, isInternal entry.1 = false

inductive Document.Inside (part : Document) : Document → Prop
  | here : Inside part part
  | item {item : Document} {items : List Document} (mem : item ∈ items) :
      Inside part item → Inside part (.array items)
  | member {member : String × Document} {members : List (String × Document)}
      (mem : member ∈ members) : Inside part member.2 → Inside part (.object members)

/-- That no object in a document has two members of one name. -/
def Document.NamesDistinct (document : Document) : Prop :=
  ∀ members, Document.Inside (.object members) document → (members.map Prod.fst).Nodup

/-! ## Between values and documents -/

theorem Value.ofItems_eq (items : List Document) :
    Value.ofItems items = items.map Value.ofDocument := by
  induction items with
  | nil => rfl
  | cons item items ih => rw [Value.ofItems, ih, List.map_cons]

theorem Value.ofMembers_eq (members : List (String × Document)) :
    Value.ofMembers members = members.map fun member => (member.1, Value.ofDocument member.2) := by
  induction members with
  | nil => rfl
  | cons member members ih => rw [Value.ofMembers, ih, List.map_cons]

theorem Value.toItems_eq (items : List Value) :
    Value.toItems items = items.map Value.toDocument := by
  induction items with
  | nil => rfl
  | cons item items ih => rw [Value.toItems, ih, List.map_cons]

theorem Value.toMembers_eq (entries : Entries Value) :
    Value.toMembers entries = (entries.filter fun entry => !entry.2.isUnwritable).map
      fun entry => (entry.1, entry.2.toDocument) := by
  induction entries with
  | nil => rfl
  | cons entry entries ih =>
    obtain ⟨key, item⟩ := entry
    rw [Value.toMembers, ih]
    cases h : item.isUnwritable <;> simp [h]

/-! ## Blanks -/

theorem Json.Blanks.refl (text : List Char) : Blanks text text :=
  ⟨[], (fun _ h => nomatch h), rfl⟩

theorem Json.Blanks.layout {blanks text rest : List Char} (h : ∀ c ∈ blanks, Layout.Blank c)
    (htext : Blanks text rest) : Blanks (blanks ++ text) rest := by
  obtain ⟨more, hmore, rfl⟩ := htext
  refine ⟨blanks ++ more, ?_, (List.append_assoc _ _ _).symm⟩
  rw [List.forall_mem_append]
  refine ⟨fun c hc => ?_, hmore⟩
  rcases h c hc with rfl | rfl <;> rfl

namespace Json

/-! ## Texts in quotes -/

theorem visible_of_isControl {c : Char} (h : isControl c = false) : 0x20 ≤ c.toNat := by
  simp only [isControl, Bool.or_eq_false_iff, decide_eq_false_iff_not] at h
  omega

theorem Characters.escapeChar (c : Char) {text characters rest : List Char}
    (h : Characters text characters rest) :
    Characters (escapeChar c ++ text) (c :: characters) rest := by
  rcases escapeChar_cases c with ⟨hself, hquote, hslash, hcontrol⟩ | ⟨letter, hletter, hmem⟩ |
    ⟨hcode, hcontrol⟩
  · rw [hself]
    exact .plain (visible_of_isControl hcontrol) hquote hslash h
  · have hescape : simpleEscape? letter = some c := by
      simp only [writtenEscapes, List.mem_cons, Prod.mk.injEq, List.not_mem_nil, or_false] at hmem
      rcases hmem with ⟨rfl, rfl⟩ | ⟨rfl, rfl⟩ | ⟨rfl, rfl⟩ | ⟨rfl, rfl⟩ | ⟨rfl, rfl⟩ <;> rfl
    rw [hletter]
    exact .letter hescape h
  · rw [hcode, List.cons_append, List.cons_append]
    refine .code (unicodeEscape?_hexCode hcontrol text) ?_
    rw [← (hexCode_hexCode hcontrol).length, List.drop_left]
    exact h

theorem characters_quoted (s : String) (rest : List Char) :
    Characters (s.toList.flatMap escapeChar ++ '"' :: rest) s.toList rest := by
  induction s.toList with
  | nil => exact .close
  | cons c text ih =>
    rw [List.flatMap_cons, List.append_assoc]
    exact ih.escapeChar c

/-! ## Lists in brackets -/

/-- That a part is a list of others, with commas between them and a closing bracket. -/
structure Rows {α : Type} (one : α → Part) (all : List α → Part) (closing : Char) : Prop where
  last : ∀ {item text after rest}, Reads (one item) text after → Blanks after (closing :: rest) →
    Reads (all [item]) text rest
  more : ∀ {item items text after comma next rest}, Reads (one item) text after →
    Blanks after (',' :: comma) → Blanks comma next → Reads (all items) next rest →
      Reads (all (item :: items)) text rest

theorem rows_items : Rows Part.document Part.items ']' where
  last := .lastItem
  more := .moreItems

theorem rows_members :
    Rows (fun field : String × Document => Part.member field.1 field.2) Part.members '\x7d' where
  last := .lastMember
  more := .moreMembers

/-- That a text is read as a part, whatever follows. -/
def Part.WrittenAs (part : Part) (text : List Char) : Prop :=
  ∀ rest, Reads part (text ++ rest) rest

theorem Rows.reads {α : Type} {one : α → Part} {all : List α → Part} {closing : Char}
    (hrows : Rows one all closing) {gap lead : List Char} (hgap : ∀ c ∈ gap, Layout.Blank c)
    (hlead : ∀ c ∈ lead, Layout.Blank c) {texts : List (List Char)} {items : List α}
    (h : List.Forall₂ (fun text item => (one item).WrittenAs text) texts items)
    (hne : texts ≠ []) {after rest : List Char} (hafter : Blanks after (closing :: rest)) :
    ∃ first, Blanks (rows gap lead texts ++ after) first ∧ Reads (all items) first rest := by
  induction h with
  | nil => exact absurd rfl hne
  | @cons text item texts items hitem hitems ih =>
    cases hitems with
    | nil =>
      refine ⟨text ++ after, ?_, hrows.last (hitem after) hafter⟩
      rw [rows, List.append_assoc]
      exact .layout hlead (.refl _)
    | @cons next _ others _ hnext hothers =>
      -- The blanks in front of the next row are those behind the comma.
      obtain ⟨first, hfirst, hreads⟩ := ih (List.cons_ne_nil _ _)
      refine ⟨text ++ (',' :: (gap ++ (rows gap lead (next :: others) ++ after))), ?_,
        hrows.more (hitem _) (.refl _) (.layout hgap hfirst) hreads⟩
      rw [rows]
      simp only [List.append_assoc, List.cons_append]
      exact .layout hlead (.refl _)

/-- **Items in brackets**, in either layout. -/
theorem Rows.reads_bracketed {α : Type} {one : α → Part} {all : List α → Part} {closing : Char}
    (hrows : Rows one all closing) {whole : Part} {opening : Char} {items : List α}
    (hnone : items = [] → ∀ {text rest}, Blanks text (closing :: rest) →
      Reads whole (opening :: text) rest)
    (hsome : ∀ {text first rest}, Blanks text first → Reads (all items) first rest →
      Reads whole (opening :: text) rest)
    (layout : Layout) (level : Nat) {texts : List (List Char)}
    (h : List.Forall₂ (fun text item => (one item).WrittenAs text) texts items) :
    whole.WrittenAs (bracketed layout level opening closing texts) := by
  intro rest
  by_cases htexts : texts = []
  · subst htexts
    cases h
    exact hnone rfl (.refl (closing :: rest))
  · have hafter : Blanks (layout.gap ++ (layout.lead level ++ closing :: rest)) (closing :: rest) :=
      .layout layout.blank_gap (.layout (layout.blank_lead level) (.refl _))
    obtain ⟨first, hfirst, hreads⟩ :=
      hrows.reads layout.blank_gap (layout.blank_lead (level + 1)) h htexts hafter
    rw [bracketed_eq layout level opening closing htexts]
    simp only [List.cons_append, List.append_assoc, List.nil_append]
    exact hsome (.layout layout.blank_gap hfirst) hreads

theorem writtenAs_array (layout : Layout) (level : Nat) {texts : List (List Char)}
    {values : List Document}
    (h : List.Forall₂ (fun text value => (Part.document value).WrittenAs text) texts values) :
    (Part.document (.array values)).WrittenAs (bracketed layout level '[' ']' texts) :=
  rows_items.reads_bracketed (by rintro rfl; exact .emptyArray) .array layout level h

theorem Part.WrittenAs.member {value : Document} {text : List Char} (key : String)
    (layout : Layout) (h : (Part.document value).WrittenAs text) :
    (Part.member key value).WrittenAs (quoted key ++ ':' :: (layout.space ++ text)) := by
  intro rest
  have hreads := Reads.member (characters_quoted key (':' :: (layout.space ++ (text ++ rest))))
    (.refl _) (.layout layout.blank_space (.refl _)) (h rest)
  rw [String.ofList_toList] at hreads
  simpa [quoted] using hreads

theorem writtenAs_object (layout : Layout) (level : Nat) {texts : List (String × List Char)}
    {members : List (String × Document)}
    (h : List.Forall₂ (fun text member => member.1 = text.1 ∧
      (Part.document member.2).WrittenAs text.2) texts members) :
    (Part.document (.object members)).WrittenAs (bracketed layout level '\x7b' '\x7d'
      (texts.map fun text => quoted text.1 ++ ':' :: (layout.space ++ text.2))) := by
  refine rows_members.reads_bracketed (by rintro rfl; exact .emptyObject) .object layout level ?_
  rw [List.forall₂_map_left_iff]
  refine h.imp fun text member hmember => ?_
  rw [hmember.1]
  exact hmember.2.member text.1 layout

/-! ## Numbers -/

theorem exists_number_document (value : Value) (hnumber : value.isNumber = true)
    (hfinite : ∀ x, value = .float x → isFinite x = true) :
    ∃ document, (∀ layout level, (Part.document document).WrittenAs (render layout level value)) ∧
      document.NamesDistinct ∧ (Value.ofDocument document).strictEquals value = true := by
  obtain ⟨negative, whole, fraction, hplain, htext, hfloat, hinteger⟩ :=
    render_number hnumber hfinite
  have hvalid : (Numeral.mk negative whole fraction none).Valid := by
    refine ⟨hplain, ?_⟩
    rintro _ ⟨⟩
  refine ⟨(Numeral.mk negative whole fraction none).document, fun layout level rest => ?_, ?_, ?_⟩
  · have hreads : Reads _ _ rest := .number hvalid
    rw [Numeral.text, Option.map_none, Option.getD_none, List.append_nil] at hreads
    rw [htext]
    exact hreads
  · unfold Numeral.document
    split <;> rintro _ ⟨⟩
  · unfold Numeral.document
    split
    · next n hn =>
      obtain ⟨hdigits, hword⟩ := Option.ite_none_right_eq_some.mp hn
      exact hinteger hdigits.1 n (toWord?_eq_some hword)
    · rw [Numeral.float, Option.map_none, Option.getD_none, zero_sub]
      exact hfloat

/-! ## The document that is written -/

/-- That a value is written as a document in every layout and at every level, that the document is
without repeated names, and that it is the value as a document where nothing is for bookkeeping. -/
structure Tells (value : Value) (document : Document) : Prop where
  written : ∀ layout level, (Part.document document).WrittenAs (render layout level value)
  distinct : document.NamesDistinct
  equal : value.NoInternalNames →
    (Value.ofDocument document).strictEquals (Value.ofDocument value.toDocument) = true

theorem tells_null {value : Value}
    (hrender : ∀ layout level, render layout level value = "null".toList)
    (hdocument : value.toDocument = .null) : Tells value .null where
  written layout level rest := by
    rw [hrender]
    exact .nullWord
  distinct _ h := nomatch h
  equal _ := by
    rw [hdocument]
    rfl

theorem tells_boolean (b : Bool) : Tells (.boolean b) (.boolean b) where
  written layout level rest := by
    cases b with
    | false => exact .falseWord
    | true => exact .trueWord
  distinct _ h := nomatch h
  equal _ := by
    cases b <;> rfl

theorem tells_text (s : String) : Tells (.text s) (.text s) where
  written layout level rest := by
    have hreads := Reads.text (characters_quoted s rest)
    rw [String.ofList_toList] at hreads
    simpa [render, quoted] using hreads
  distinct _ h := nomatch h
  equal _ := by
    rw [Value.toDocument, Value.ofDocument, Value.strictEquals, beq_self_eq_true]

theorem exists_tells_atom {value : Value} (h : value.isContainer = false) :
    ∃ document, Tells value document := by
  cases value with
  | undefined | null | function => exact ⟨_, tells_null (fun _ _ => rfl) rfl⟩
  | boolean b => exact ⟨_, tells_boolean b⟩
  | text s => exact ⟨_, tells_text s⟩
  | integer n =>
    obtain ⟨document, hwritten, hdistinct, hequal⟩ :=
      exists_number_document (.integer n) rfl fun _ h => nomatch h
    exact ⟨document, hwritten, hdistinct, fun _ => hequal⟩
  | float x =>
    by_cases hfinite : isFinite x = true
    · obtain ⟨document, hwritten, hdistinct, hequal⟩ :=
        exists_number_document (.float x) rfl (by rintro _ ⟨⟩; exact hfinite)
      refine ⟨document, hwritten, hdistinct, fun _ => ?_⟩
      rw [Value.toDocument, if_pos hfinite]
      exact hequal
    · refine ⟨_, tells_null (fun _ _ => ?_) ?_⟩
      · rw [render, if_neg hfinite]
      · rw [Value.toDocument, if_neg hfinite]
  | array | record => cases h

theorem tells_array {items : List Value} {documents : List Document}
    (h : List.Forall₂ Tells items documents) : Tells (.array items) (.array documents) where
  written layout level := by
    rw [render, renderItems_eq]
    apply writtenAs_array
    rw [List.forall₂_map_left_iff]
    exact h.imp fun _ _ htells => htells.written layout (level + 1)
  distinct members hmembers := by
    cases hmembers with
    | item mem hinside =>
      exact forall_of_forall₂ h (fun _ _ htells => htells.distinct) _ mem members hinside
  equal hplain := by
    have hitems : ∀ item ∈ items, item.NoInternalNames :=
      fun item hitem entries hinside => hplain entries (.item hitem hinside)
    have hequal := (List.forall₂_and_left items documents).mpr ⟨hitems, h⟩
    rw [Value.toDocument, Value.ofDocument, Value.ofDocument, Value.ofItems_eq, Value.ofItems_eq,
      Value.toItems_eq, Value.strictEquals, Value.itemsEqual_iff, List.forall₂_map_left_iff,
      List.map_map, List.forall₂_map_right_iff]
    exact (hequal.imp fun _ _ hboth => hboth.2.equal hboth.1).flip

def TellsMember (entry : String × Value) (member : String × Document) : Prop :=
  member.1 = entry.1 ∧ Tells entry.2 member.2

theorem names_of_tellsMember {entries : Entries Value} {members : List (String × Document)}
    (h : List.Forall₂ TellsMember entries members) :
    members.map Prod.fst = entries.map Prod.fst := by
  induction h with
  | nil => rfl
  | cons hmember _ ih => rw [List.map_cons, List.map_cons, hmember.1, ih]

theorem tells_record {entries : Entries Value} {members : List (String × Document)}
    (hnodup : (entries.map Prod.fst).Nodup)
    (h : List.Forall₂ TellsMember (written entries) members) :
    Tells (.record entries) (.object members) where
  written layout level := by
    rw [render_record]
    have hmembers : List.Forall₂ (fun text member => member.1 = text.1 ∧
        (Part.document member.2).WrittenAs text.2)
        ((written entries).map fun entry => (entry.1, render layout (level + 1) entry.2))
        members := by
      rw [List.forall₂_map_left_iff]
      exact h.imp fun _ _ htells => ⟨htells.1, htells.2.written layout (level + 1)⟩
    have hobject := writtenAs_object layout level hmembers
    rw [List.map_map] at hobject
    exact hobject
  distinct members' hinside := by
    cases hinside with
    | here =>
      rw [names_of_tellsMember h]
      exact nodup_written hnodup
    | member mem hinside =>
      exact forall_of_forall₂ h (fun _ _ htells => htells.2.distinct) _ mem members' hinside
  equal hplain := by
    -- The text leaves out more than the document does, but here there is nothing more.
    have hkept : (entries.filter fun entry => !entry.2.isUnwritable) =
        entries.filter isWritten := by
      apply List.filter_congr
      intro entry hentry
      rw [isWritten, hplain entries .here entry hentry, Bool.false_or]
    have hentries : ∀ entry ∈ written entries, entry.2.NoInternalNames :=
      fun entry hentry others hinside =>
        hplain others (.entry (mem_written.mp hentry).1 hinside)
    have hequal := (List.forall₂_and_left (written entries) members).mpr ⟨hentries, h⟩
    rw [Value.toDocument, Value.ofDocument, Value.ofDocument, Value.ofMembers_eq,
      Value.ofMembers_eq, Value.toMembers_eq, hkept, List.map_map]
    refine Value.strictEquals_record ?_ (((sortByName_perm (entries.filter isWritten)).map _)) ?_
    · rw [List.map_map]
      exact hnodup.sublist (List.filter_sublist.map Prod.fst)
    · rw [List.forall₂_map_left_iff, List.forall₂_map_right_iff]
      exact (hequal.imp fun _ _ hboth => ⟨hboth.2.1, hboth.2.2.equal hboth.1⟩).flip

/-- **Every value is written as a document.** -/
theorem exists_tells (value : Value) : value.NamesDistinct → ∃ document, Tells value document := by
  induction value using Value.byParts with
  | atom value hatom => exact fun _ => exists_tells_atom hatom
  | array items ih =>
    intro hnames
    obtain ⟨documents, h⟩ := exists_forall₂ fun item hitem =>
      ih item hitem fun entries hinside => hnames entries (.item hitem hinside)
    exact ⟨_, tells_array h⟩
  | record entries ih =>
    intro hnames
    have hentries : ∀ entry ∈ written entries, ∃ member, TellsMember entry member := by
      intro entry hentry
      have hmem := (mem_written.mp hentry).1
      obtain ⟨document, htells⟩ :=
        ih entry hmem fun others hinside => hnames others (.entry hmem hinside)
      exact ⟨(entry.1, document), rfl, htells⟩
    obtain ⟨members, h⟩ := exists_forall₂ hentries
    exact ⟨_, tells_record (hnames entries .here) h⟩

end Json

/-- **The two texts of a value are JSON, and both denote one document.** They denote nothing else,
no object in the document has two members of one name, and unless something in the value is for
bookkeeping, the document and the value as a document are equal as values. -/
theorem Value.toJson_denotes {value : Value} (hnames : value.NamesDistinct) :
    ∃ document : Document, document.NamesDistinct ∧
      (∀ layout other, Json.Denotes (value.toJson layout) other ↔ other = document) ∧
      (value.NoInternalNames →
        (Value.ofDocument document).strictEquals (Value.ofDocument value.toDocument) = true) := by
  obtain ⟨document, htells⟩ := exists_tells value hnames
  have hdenotes : ∀ layout, Json.Denotes (value.toJson layout) document := by
    intro layout
    have hreads := htells.written layout 0 []
    rw [List.append_nil] at hreads
    refine ⟨_, [], ?_, hreads, .refl []⟩
    rw [Value.toJson, String.toList_ofList]
    exact .refl _
  refine ⟨document, htells.distinct, fun layout other => ?_, htells.equal⟩
  constructor
  · exact (hdenotes layout).unique
  · rintro rfl
    exact hdenotes layout

def sampleValue : Value :=
  .record [("run", .function ⟨"run", .plain⟩),
    ("a\"", .array [.undefined, .float notANumber, .integer Int64.maxValue, .float (-0.0)])]

theorem sampleValue_records {entries : Entries Value}
    (h : Value.Inside (.record entries) sampleValue) : Value.record entries = sampleValue := by
  cases h with
  | here => rfl
  | entry mem inside =>
    rcases List.mem_pair.mp mem with rfl | rfl
    · cases inside
    · cases inside with
      | item mem inside =>
        simp only [List.mem_cons, List.not_mem_nil, or_false] at mem
        rcases mem with rfl | rfl | rfl | rfl <;> cases inside

/-- The absent and the float are written as `null`, the function is left out, and the document is
the value as a document. -/
theorem Value.toJson_sampleValue :
    sampleValue.NamesDistinct ∧ sampleValue.NoInternalNames ∧
      ∃ document : Document, document.NamesDistinct ∧
        (∀ layout other, Json.Denotes (sampleValue.toJson layout) other ↔ other = document) ∧
        (Value.ofDocument document).strictEquals (Value.ofDocument sampleValue.toDocument) =
          true := by
  have hdistinct : sampleValue.NamesDistinct := by
    intro entries hinside
    cases sampleValue_records hinside
    decide
  have hplain : sampleValue.NoInternalNames := by
    intro entries hinside
    cases sampleValue_records hinside
    decide
  obtain ⟨document, hnames, hdenotes, hequal⟩ := Value.toJson_denotes hdistinct
  exact ⟨hdistinct, hplain, document, hnames, hdenotes, hequal hplain⟩

end TemplateExpr

import Mathlib
import TemplateExpr.Proofs.Json.Grammar

/-!
# JSON is unambiguous

A text denotes one document at most (`Denotes.unique`). Nearly every part of a document shows from
within where it ends: a bracket or a quote closes it. A numeral does not; it ends where nothing
follows that could go on with it (`Closed`), and wherever a numeral may stand, what may follow is of
that kind.
-/

namespace TemplateExpr.Json

open Number Text

/-! ## Where a part ends -/

/-- That a numeral in front of a text does not go on in it. -/
def Closed (rest : List Char) : Prop :=
  ∀ c, rest.head? = some c → c.isDigit = false ∧ c ≠ '.' ∧ c ≠ 'e' ∧ c ≠ 'E'

theorem Closed.nil : Closed [] := fun _ h => nomatch h

def symbols : List Char := [',', ':', ']', '\x7d', '[', '\x7b', '"']

theorem Closed.symbol {c : Char} (h : c ∈ symbols) (rest : List Char) : Closed (c :: rest) := by
  have hall : symbols.all (fun c => !c.isDigit && c != '.' && c != 'e' && c != 'E') = true := by
    decide
  rintro _ ⟨⟩
  simpa [and_assoc] using List.all_eq_true.mp hall c h

theorem isSpace_symbol {c : Char} (h : c ∈ symbols) : isSpace c = false := by
  have hall : symbols.all (fun c => !isSpace c) = true := by decide
  simpa using List.all_eq_true.mp hall c h

theorem Blanks.closed {text rest : List Char} (h : Blanks text rest) (hrest : Closed rest) :
    Closed text := by
  obtain ⟨blanks, hblanks, rfl⟩ := h
  cases blanks with
  | nil => exact hrest
  | cons c blanks =>
    have hspace := hblanks c List.mem_cons_self
    simp only [isSpace, Bool.or_eq_true, beq_iff_eq] at hspace
    rintro _ ⟨⟩
    rcases hspace with ((rfl | rfl) | rfl) | rfl
    all_goals decide

theorem Blanks.skipSpace_eq {text rest : List Char} (h : Blanks text rest)
    (hrest : ∀ c, rest.head? = some c → isSpace c = false) : skipSpace text = rest := by
  obtain ⟨blanks, hblanks, rfl⟩ := h
  rw [skipSpace, List.dropWhile_append_of_pos hblanks]
  cases rest with
  | nil => rfl
  | cons c rest => rw [List.dropWhile_cons_of_neg (by rw [hrest c rfl]; decide)]

theorem Blanks.skipSpace_symbol {text rest : List Char} {c : Char} (h : Blanks text (c :: rest))
    (hc : c ∈ symbols) : skipSpace text = c :: rest := by
  apply h.skipSpace_eq
  rintro _ ⟨⟩
  exact isSpace_symbol hc

/-! ## Texts in quotes are unique -/

theorem Characters.unique {text characters rest : List Char}
    (h : Characters text characters rest) : ∀ {characters' rest' : List Char},
      Characters text characters' rest' → characters' = characters ∧ rest' = rest := by
  have hcode : simpleEscape? 'u' = none := by decide
  induction h with
  | close =>
    intro characters' rest' h'
    -- An equation keeps what stands next, so that each other way meets it and fails.
    generalize htext : '"' :: _ = text' at h'
    cases h' with
    | close => exact ⟨rfl, (List.cons.inj htext).2.symm⟩
    | plain _ hquote => exact absurd (List.cons.inj htext).1.symm hquote
    | letter | code => cases (List.cons.inj htext).1
  | plain visible hquote hescape _ ih =>
    intro characters' rest' h'
    cases h' with
    | close => exact absurd rfl hquote
    | plain _ _ _ h' =>
      obtain ⟨rfl, rfl⟩ := ih h'
      exact ⟨rfl, rfl⟩
    | letter | code => exact absurd rfl hescape
  | letter escape _ ih =>
    intro characters' rest' h'
    generalize htext : '\\' :: _ = text' at h'
    cases h' with
    | close => cases (List.cons.inj htext).1
    | plain _ _ hescape => exact absurd (List.cons.inj htext).1.symm hescape
    | letter escape' h' =>
      obtain ⟨rfl, rfl⟩ := List.cons.inj (List.cons.inj htext).2
      obtain ⟨rfl, rfl⟩ := ih h'
      cases escape.symm.trans escape'
      exact ⟨rfl, rfl⟩
    | code =>
      obtain ⟨rfl, rfl⟩ := List.cons.inj (List.cons.inj htext).2
      cases hcode.symm.trans escape
  | code escape _ ih =>
    intro characters' rest' h'
    generalize htext : '\\' :: _ = text' at h'
    cases h' with
    | close => cases (List.cons.inj htext).1
    | plain _ _ hescape => exact absurd (List.cons.inj htext).1.symm hescape
    | letter escape' =>
      obtain ⟨rfl, rfl⟩ := List.cons.inj (List.cons.inj htext).2
      cases hcode.symm.trans escape'
    | code escape' h' =>
      obtain ⟨-, rfl⟩ := List.cons.inj (List.cons.inj htext).2
      cases escape.symm.trans escape'
      obtain ⟨rfl, rfl⟩ := ih h'
      exact ⟨rfl, rfl⟩

/-! ## Numerals are unique -/

def NoDigit (rest : List Char) : Prop := ∀ c, rest.head? = some c → c.isDigit = false

theorem Closed.noDigit {rest : List Char} (h : Closed rest) : NoDigit rest := fun c hc => (h c hc).1

theorem digits_unique {digits digits' rest rest' : List Char}
    (h : digits ++ rest = digits' ++ rest') (hdigits : ∀ c ∈ digits, c.isDigit = true)
    (hdigits' : ∀ c ∈ digits', c.isDigit = true) (hrest : NoDigit rest) (hrest' : NoDigit rest') :
    digits = digits' ∧ rest = rest' := by
  have hspan := spanDigits_append hdigits hrest
  rw [h, spanDigits_append hdigits' hrest'] at hspan
  obtain ⟨rfl, rfl⟩ := Prod.mk.inj hspan
  exact ⟨rfl, rfl⟩

theorem sign_cons_ne {digits : List Char} (hne : digits ≠ [])
    (hdigits : ∀ c ∈ digits, c.isDigit = true) {sign : Char} (hsign : sign ∈ ['+', '-'])
    (rest rest' : List Char) : sign :: rest ≠ digits ++ rest' := by
  intro heq
  cases digits with
  | nil => exact hne rfl
  | cons c digits =>
    obtain ⟨rfl, -⟩ := List.cons.inj heq
    have hdigit := hdigits sign List.mem_cons_self
    rcases List.mem_pair.mp hsign with rfl | rfl <;> cases hdigit

theorem Exponent.Valid.unique {exponent exponent' : Exponent} (h : exponent.Valid)
    (h' : exponent'.Valid) {rest rest' : List Char}
    (htext : exponent.text ++ rest = exponent'.text ++ rest') (hrest : NoDigit rest)
    (hrest' : NoDigit rest') : exponent = exponent' ∧ rest = rest' := by
  obtain ⟨hmark, hsigned⟩ := List.cons.inj htext
  simp only [List.append_eq, List.append_assoc] at hsigned
  have hsign : exponent.sign = exponent'.sign := by
    have hdigit := @sign_cons_ne _ h.digits_ne_nil h.digits
    have hdigit' := @sign_cons_ne _ h'.digits_ne_nil h'.digits
    rcases h.sign with hs | hs | hs <;> rcases h'.sign with hs' | hs' | hs' <;>
      rw [hs, hs'] at hsigned ⊢
    · exact absurd hsigned.symm (hdigit (by decide) _ _)
    · exact absurd hsigned.symm (hdigit (by decide) _ _)
    · exact absurd hsigned (hdigit' (by decide) _ _)
    · cases (List.cons.inj hsigned).1
    · exact absurd hsigned (hdigit' (by decide) _ _)
    · cases (List.cons.inj hsigned).1
  rw [hsign] at hsigned
  obtain ⟨hdigits, hrests⟩ :=
    digits_unique (List.append_cancel_left hsigned) h.digits h'.digits hrest hrest'
  exact ⟨Exponent.ext hmark hsign hdigits, hrests⟩

theorem exponentText_first {exponent : Option Exponent}
    (h : ∀ given, exponent = some given → given.Valid) {rest : List Char} (hrest : Closed rest) :
    ∀ c, ((exponent.map Exponent.text).getD [] ++ rest).head? = some c →
      c.isDigit = false ∧ c ≠ '.' := by
  cases exponent with
  | none => exact fun c hc => ⟨(hrest c hc).1, (hrest c hc).2.1⟩
  | some given =>
    rintro _ ⟨⟩
    rcases (h given rfl).mark with hmark | hmark <;> rw [hmark] <;> decide

theorem exponentText_unique {exponent exponent' : Option Exponent}
    (h : ∀ given, exponent = some given → given.Valid)
    (h' : ∀ given, exponent' = some given → given.Valid) {rest rest' : List Char}
    (htext : (exponent.map Exponent.text).getD [] ++ rest =
      (exponent'.map Exponent.text).getD [] ++ rest')
    (hrest : Closed rest) (hrest' : Closed rest') : exponent = exponent' ∧ rest = rest' := by
  have hmark : ∀ {given : Exponent} {rest tail : List Char}, given.Valid → Closed rest →
      rest ≠ given.text ++ tail := by
    rintro given _ tail hgiven hrest rfl
    rcases hgiven.mark with hmark | hmark
    · exact (hrest given.mark rfl).2.2.1 hmark
    · exact (hrest given.mark rfl).2.2.2 hmark
  cases exponent with
  | none =>
    cases exponent' with
    | none => exact ⟨rfl, htext⟩
    | some given => exact absurd htext (hmark (h' given rfl) hrest)
  | some given =>
    cases exponent' with
    | none => exact absurd htext.symm (hmark (h given rfl) hrest')
    | some given' =>
      obtain ⟨rfl, rfl⟩ :=
        (h given rfl).unique (h' given' rfl) htext hrest.noDigit hrest'.noDigit
      exact ⟨rfl, rfl⟩

theorem plainText_unique {whole fraction whole' fraction' rest rest' : List Char}
    (h : Plain whole fraction) (h' : Plain whole' fraction')
    (htext : plainText whole fraction ++ rest = plainText whole' fraction' ++ rest')
    (hrest : ∀ c, rest.head? = some c → c.isDigit = false ∧ c ≠ '.')
    (hrest' : ∀ c, rest'.head? = some c → c.isDigit = false ∧ c ≠ '.') :
    whole = whole' ∧ fraction = fraction' ∧ rest = rest' := by
  have hbehind : ∀ {fraction rest : List Char},
      (∀ c, rest.head? = some c → c.isDigit = false ∧ c ≠ '.') →
      NoDigit ((if fraction = [] then [] else '.' :: fraction) ++ rest) := by
    intro fraction rest hrest
    split
    · exact fun c hc => (hrest c hc).1
    · rintro _ ⟨⟩
      rfl
  rw [plainText, plainText, List.append_assoc, List.append_assoc] at htext
  obtain ⟨hwhole, hbehinds⟩ := digits_unique htext h.whole_digits h'.whole_digits (hbehind hrest)
    (hbehind hrest')
  refine ⟨hwhole, ?_⟩
  by_cases hfraction : fraction = []
  · by_cases hfraction' : fraction' = []
    · rw [if_pos hfraction, if_pos hfraction'] at hbehinds
      exact ⟨hfraction.trans hfraction'.symm, hbehinds⟩
    · rw [if_pos hfraction, if_neg hfraction'] at hbehinds
      exact absurd rfl (hrest '.' (congrArg List.head? hbehinds)).2
  · by_cases hfraction' : fraction' = []
    · rw [if_neg hfraction, if_pos hfraction'] at hbehinds
      exact absurd rfl (hrest' _ (congrArg List.head? hbehinds).symm).2
    · rw [if_neg hfraction, if_neg hfraction'] at hbehinds
      exact digits_unique (List.cons.inj hbehinds).2 h.fraction_digits h'.fraction_digits
        (fun c hc => (hrest c hc).1) (fun c hc => (hrest' c hc).1)

theorem Numeral.Valid.starts {numeral : Numeral} (h : numeral.Valid) :
    ∃ first tail, numeral.text = first :: tail ∧ numeral.negative = (first == '-') ∧
      (first = '-' ∨ first.isDigit = true) := by
  obtain ⟨first, tail, hplain, hdigit⟩ := h.plain.starts
  rw [Numeral.text, hplain]
  cases numeral.negative with
  | false =>
    refine ⟨first, tail ++ _, rfl, ?_, .inr hdigit⟩
    rw [eq_comm, beq_eq_false_iff_ne]
    rintro rfl
    cases hdigit
  | true => exact ⟨'-', _, rfl, rfl, .inl rfl⟩

theorem Numeral.Valid.unique {numeral numeral' : Numeral} (h : numeral.Valid)
    (h' : numeral'.Valid) {rest rest' : List Char}
    (htext : numeral.text ++ rest = numeral'.text ++ rest') (hrest : Closed rest)
    (hrest' : Closed rest') : numeral = numeral' ∧ rest = rest' := by
  -- Part by part from the left; each part ends where the one behind it begins.
  have hsign : numeral.negative = numeral'.negative := by
    obtain ⟨first, tail, heq, hfirst, -⟩ := h.starts
    obtain ⟨first', tail', heq', hfirst', -⟩ := h'.starts
    rw [heq, heq'] at htext
    rw [hfirst, hfirst', (List.cons.inj htext).1]
  simp only [Numeral.text, hsign, List.append_assoc] at htext
  obtain ⟨hwhole, hfraction, hbehind⟩ := plainText_unique h.plain h'.plain
    (List.append_cancel_left htext) (exponentText_first h.exponent hrest)
    (exponentText_first h'.exponent hrest')
  obtain ⟨hexponent, hrests⟩ := exponentText_unique h.exponent h'.exponent hbehind hrest hrest'
  exact ⟨Numeral.ext hsign hwhole hfraction hexponent, hrests⟩

/-! ## Documents are unique -/

/-- The first characters of documents that are no numerals, and those that no document starts
with. -/
def nonNumeric : List Char :=
  ['n', 't', 'f', '"', '[', '\x7b', ']', '\x7d', ' ', '\n', '\r', '\t']

theorem ne_of_mem_nonNumeric {first c : Char} (h : first = '-' ∨ first.isDigit = true)
    (hc : c ∈ nonNumeric) : first ≠ c := by
  have hall : nonNumeric.all (fun c => c != '-' && !c.isDigit) = true := by decide
  rintro rfl
  have hneither := List.all_eq_true.mp hall first hc
  rw [Bool.and_eq_true, bne_iff_ne, Bool.not_eq_true'] at hneither
  rcases h with rfl | hdigit
  · exact hneither.1 rfl
  · cases hdigit.symm.trans hneither.2

/-- A part starts neither with a blank nor with a closing bracket. -/
theorem Reads.starts {part : Part} {text rest : List Char} (h : Reads part text rest) :
    ∃ first tail, text = first :: tail ∧ isSpace first = false ∧ first ≠ ']' ∧ first ≠ '\x7d' := by
  induction h with
  | @number numeral rest valid =>
    obtain ⟨first, tail, htext, -, hfirst⟩ := valid.starts
    have hne : ∀ c ∈ nonNumeric, first ≠ c := fun c => ne_of_mem_nonNumeric hfirst
    refine ⟨first, tail ++ rest, by rw [htext]; rfl, ?_, hne _ (by decide), hne _ (by decide)⟩
    simp only [isSpace, Bool.or_eq_false_iff, beq_eq_false_iff_ne]
    exact ⟨⟨⟨hne _ (by decide), hne _ (by decide)⟩, hne _ (by decide)⟩, hne _ (by decide)⟩
  | nullWord | trueWord | falseWord | text | emptyArray | array | emptyObject | object | member =>
    exact ⟨_, _, rfl, by decide, by decide, by decide⟩
  | lastItem _ _ ih | moreItems _ _ _ _ ih | lastMember _ _ ih | moreMembers _ _ _ _ ih => exact ih

theorem Blanks.unique_symbol {text rest rest' : List Char} {c c' : Char}
    (h : Blanks text (c :: rest)) (h' : Blanks text (c' :: rest')) (hc : c ∈ symbols)
    (hc' : c' ∈ symbols) : c = c' ∧ rest = rest' :=
  List.cons.inj ((h.skipSpace_symbol hc).symm.trans (h'.skipSpace_symbol hc'))

/-- Behind blanks, what can be read starts in one place. -/
theorem Blanks.unique {text inner inner' rest rest' : List Char} {part part' : Part}
    (h : Blanks text inner) (h' : Blanks text inner') (hreads : Reads part inner rest)
    (hreads' : Reads part' inner' rest') : inner' = inner := by
  have hskip : ∀ {inner rest : List Char} {part : Part}, Blanks text inner →
      Reads part inner rest → skipSpace text = inner := by
    intro inner rest part hblanks hpart
    obtain ⟨c, tail, rfl, hspace, -⟩ := hpart.starts
    apply hblanks.skipSpace_eq
    rintro _ ⟨⟩
    exact hspace
  exact (hskip h' hreads').symm.trans (hskip h hreads)

theorem Blanks.not_closing {text inner rest rest' : List Char} {part : Part} {closing : Char}
    (hclosing : closing = ']' ∨ closing = '\x7d') (h : Blanks text (closing :: rest))
    (h' : Blanks text inner) : ¬ Reads part inner rest' := by
  intro hreads
  obtain ⟨c, tail, rfl, hspace, hbracket, hbrace⟩ := hreads.starts
  have hsymbol : closing ∈ symbols := by
    rcases hclosing with rfl | rfl <;> decide
  have hskip : skipSpace text = c :: tail := by
    apply h'.skipSpace_eq
    rintro _ ⟨⟩
    exact hspace
  obtain ⟨rfl, -⟩ := List.cons.inj (hskip.symm.trans (h.skipSpace_symbol hsymbol))
  exact hclosing.elim hbracket hbrace

def Opens (value : Document) (first : Char) (text rest : List Char) : Prop :=
  if first = 'n' then text = "ull".toList ++ rest ∧ value = .null
  else if first = 't' then text = "rue".toList ++ rest ∧ value = .boolean true
  else if first = 'f' then text = "alse".toList ++ rest ∧ value = .boolean false
  else if first = '"' then
    ∃ characters, Characters text characters rest ∧ value = .text (String.ofList characters)
  else if first = '[' then
    (Blanks text (']' :: rest) ∧ value = .array []) ∨
      ∃ values inner, Blanks text inner ∧ Reads (.items values) inner rest ∧ value = .array values
  else if first = '\x7b' then
    (Blanks text ('\x7d' :: rest) ∧ value = .object []) ∨
      ∃ fields inner, Blanks text inner ∧ Reads (.members fields) inner rest ∧
        value = .object fields
  else ∃ numeral : Numeral, numeral.Valid ∧ first :: text = numeral.text ++ rest ∧
    value = numeral.document

theorem opens_numeral {value : Document} {first : Char} {text rest : List Char}
    (h : first = '-' ∨ first.isDigit = true) :
    Opens value first text rest ↔ ∃ numeral : Numeral, numeral.Valid ∧
      first :: text = numeral.text ++ rest ∧ value = numeral.document := by
  have hne : ∀ c ∈ nonNumeric, first ≠ c := fun c => ne_of_mem_nonNumeric h
  rw [Opens, if_neg (hne _ (by decide)), if_neg (hne _ (by decide)), if_neg (hne _ (by decide)),
    if_neg (hne _ (by decide)), if_neg (hne _ (by decide)), if_neg (hne _ (by decide))]

theorem Reads.opens {value : Document} {first : Char} {text rest : List Char}
    (h : Reads (.document value) (first :: text) rest) : Opens value first text rest := by
  generalize htext : first :: text = source at h
  generalize hpart : Part.document value = part at h
  cases h with
  | nullWord | trueWord | falseWord =>
    cases hpart
    cases htext
    exact ⟨rfl, rfl⟩
  | @number numeral _ valid =>
    cases hpart
    obtain ⟨c, tail, hnumeral, -, hc⟩ := valid.starts
    obtain ⟨rfl, -⟩ : first = c ∧ _ := by
      rw [hnumeral] at htext
      exact List.cons.inj htext
    exact (opens_numeral hc).mpr ⟨numeral, valid, htext, rfl⟩
  | text hcharacters =>
    cases hpart
    cases htext
    exact ⟨_, hcharacters, rfl⟩
  | emptyArray hblanks | emptyObject hblanks =>
    cases hpart
    cases htext
    exact .inl ⟨hblanks, rfl⟩
  | array hblanks hinner | object hblanks hinner =>
    cases hpart
    cases htext
    exact .inr ⟨_, _, hblanks, hinner, rfl⟩
  | _ => cases hpart

/-- That a part is the only one of its kind that stands at the front of a text, and where it
ends. -/
def Part.UniqueIn : Part → List Char → List Char → Prop
  | .document value, text, rest => Closed rest → ∀ value' rest',
      Reads (.document value') text rest' → Closed rest' → value' = value ∧ rest' = rest
  | .items values, text, rest => ∀ values' rest',
      Reads (.items values') text rest' → values' = values ∧ rest' = rest
  | .member key value, text, rest => Closed rest → ∀ key' value' rest',
      Reads (.member key' value') text rest' → Closed rest' →
        key' = key ∧ value' = value ∧ rest' = rest
  | .members fields, text, rest => ∀ fields' rest',
      Reads (.members fields') text rest' → fields' = fields ∧ rest' = rest

section

variable {value : Document} {values : List Document} {key : String}
  {fields : List (String × Document)} {text inner after comma next rest : List Char}

theorem unique_number {numeral : Numeral} (valid : numeral.Valid) :
    (Part.document numeral.document).UniqueIn (numeral.text ++ rest) rest := by
  intro hclosed value' rest' h' hclosed'
  obtain ⟨first, tail, htext, -, hfirst⟩ := valid.starts
  rw [htext, List.cons_append] at h'
  obtain ⟨numeral', valid', htext', rfl⟩ := (opens_numeral hfirst).mp h'.opens
  rw [← List.cons_append, ← htext] at htext'
  obtain ⟨rfl, rfl⟩ := valid.unique valid' htext' hclosed hclosed'
  exact ⟨rfl, rfl⟩

theorem unique_emptyArray (hblanks : Blanks text (']' :: rest)) :
    (Part.document (.array [])).UniqueIn ('[' :: text) rest := by
  intro _ value' rest' h' _
  rcases h'.opens with ⟨hblanks', rfl⟩ | ⟨values', inner', hblanks', hitems', rfl⟩
  · exact ⟨rfl, (hblanks.unique_symbol hblanks' (by decide) (by decide)).2.symm⟩
  · exact absurd hitems' (hblanks.not_closing (.inl rfl) hblanks')

theorem unique_array (hblanks : Blanks text inner) (hitems : Reads (.items values) inner rest)
    (ih : (Part.items values).UniqueIn inner rest) :
    (Part.document (.array values)).UniqueIn ('[' :: text) rest := by
  intro _ value' rest' h' _
  rcases h'.opens with ⟨hblanks', rfl⟩ | ⟨values', inner', hblanks', hitems', rfl⟩
  · exact absurd hitems (hblanks'.not_closing (.inl rfl) hblanks)
  · obtain rfl := hblanks.unique hblanks' hitems hitems'
    obtain ⟨rfl, rfl⟩ := ih _ _ hitems'
    exact ⟨rfl, rfl⟩

theorem unique_emptyObject (hblanks : Blanks text ('\x7d' :: rest)) :
    (Part.document (.object [])).UniqueIn ('\x7b' :: text) rest := by
  intro _ value' rest' h' _
  rcases h'.opens with ⟨hblanks', rfl⟩ | ⟨fields', inner', hblanks', hmembers', rfl⟩
  · exact ⟨rfl, (hblanks.unique_symbol hblanks' (by decide) (by decide)).2.symm⟩
  · exact absurd hmembers' (hblanks.not_closing (.inr rfl) hblanks')

theorem unique_object (hblanks : Blanks text inner) (hmembers : Reads (.members fields) inner rest)
    (ih : (Part.members fields).UniqueIn inner rest) :
    (Part.document (.object fields)).UniqueIn ('\x7b' :: text) rest := by
  intro _ value' rest' h' _
  rcases h'.opens with ⟨hblanks', rfl⟩ | ⟨fields', inner', hblanks', hmembers', rfl⟩
  · exact absurd hmembers (hblanks'.not_closing (.inr rfl) hblanks)
  · obtain rfl := hblanks.unique hblanks' hmembers hmembers'
    obtain ⟨rfl, rfl⟩ := ih _ _ hmembers'
    exact ⟨rfl, rfl⟩

theorem unique_lastItem (hblanks : Blanks after (']' :: rest))
    (ih : (Part.document value).UniqueIn text after) : (Part.items [value]).UniqueIn text rest := by
  intro values' rest' h'
  have hclosed := hblanks.closed (.symbol (by decide) _)
  cases h' with
  | lastItem hvalue' hblanks' =>
    obtain ⟨rfl, rfl⟩ := ih hclosed _ _ hvalue' (hblanks'.closed (.symbol (by decide) _))
    exact ⟨rfl, (hblanks.unique_symbol hblanks' (by decide) (by decide)).2.symm⟩
  | moreItems hvalue' hcomma' =>
    obtain ⟨-, rfl⟩ := ih hclosed _ _ hvalue' (hcomma'.closed (.symbol (by decide) _))
    cases (hblanks.unique_symbol hcomma' (by decide) (by decide)).1

theorem unique_moreItems (hcomma : Blanks after (',' :: comma)) (hnext : Blanks comma next)
    (hitems : Reads (.items values) next rest) (ih : (Part.document value).UniqueIn text after)
    (ihmore : (Part.items values).UniqueIn next rest) :
    (Part.items (value :: values)).UniqueIn text rest := by
  intro values' rest' h'
  have hclosed := hcomma.closed (.symbol (by decide) _)
  cases h' with
  | lastItem hvalue' hblanks' =>
    obtain ⟨-, rfl⟩ := ih hclosed _ _ hvalue' (hblanks'.closed (.symbol (by decide) _))
    cases (hcomma.unique_symbol hblanks' (by decide) (by decide)).1
  | moreItems hvalue' hcomma' hnext' hitems' =>
    obtain ⟨rfl, rfl⟩ := ih hclosed _ _ hvalue' (hcomma'.closed (.symbol (by decide) _))
    obtain ⟨-, rfl⟩ := hcomma.unique_symbol hcomma' (by decide) (by decide)
    obtain rfl := hnext.unique hnext' hitems hitems'
    obtain ⟨rfl, rfl⟩ := ihmore _ _ hitems'
    exact ⟨rfl, rfl⟩

theorem unique_member {characters colon : List Char} (hkey : Characters text characters after)
    (hcolon : Blanks after (':' :: colon)) (hnext : Blanks colon next)
    (hvalue : Reads (.document value) next rest) (ih : (Part.document value).UniqueIn next rest) :
    (Part.member (String.ofList characters) value).UniqueIn ('"' :: text) rest := by
  intro hclosed key' value' rest' h' hclosed'
  cases h' with
  | member hkey' hcolon' hnext' hvalue' =>
    obtain ⟨rfl, rfl⟩ := hkey.unique hkey'
    obtain ⟨-, rfl⟩ := hcolon.unique_symbol hcolon' (by decide) (by decide)
    obtain rfl := hnext.unique hnext' hvalue hvalue'
    obtain ⟨rfl, rfl⟩ := ih hclosed _ _ hvalue' hclosed'
    exact ⟨rfl, rfl, rfl⟩

theorem unique_lastMember (hblanks : Blanks after ('\x7d' :: rest))
    (ih : (Part.member key value).UniqueIn text after) :
    (Part.members [(key, value)]).UniqueIn text rest := by
  intro fields' rest' h'
  have hclosed := hblanks.closed (.symbol (by decide) _)
  cases h' with
  | lastMember hmember' hblanks' =>
    obtain ⟨rfl, rfl, rfl⟩ := ih hclosed _ _ _ hmember' (hblanks'.closed (.symbol (by decide) _))
    exact ⟨rfl, (hblanks.unique_symbol hblanks' (by decide) (by decide)).2.symm⟩
  | moreMembers hmember' hcomma' =>
    obtain ⟨-, -, rfl⟩ := ih hclosed _ _ _ hmember' (hcomma'.closed (.symbol (by decide) _))
    cases (hblanks.unique_symbol hcomma' (by decide) (by decide)).1

theorem unique_moreMembers (hcomma : Blanks after (',' :: comma)) (hnext : Blanks comma next)
    (hmembers : Reads (.members fields) next rest)
    (ih : (Part.member key value).UniqueIn text after)
    (ihmore : (Part.members fields).UniqueIn next rest) :
    (Part.members ((key, value) :: fields)).UniqueIn text rest := by
  intro fields' rest' h'
  have hclosed := hcomma.closed (.symbol (by decide) _)
  cases h' with
  | lastMember hmember' hblanks' =>
    obtain ⟨-, -, rfl⟩ := ih hclosed _ _ _ hmember' (hblanks'.closed (.symbol (by decide) _))
    cases (hcomma.unique_symbol hblanks' (by decide) (by decide)).1
  | moreMembers hmember' hcomma' hnext' hmembers' =>
    obtain ⟨rfl, rfl, rfl⟩ := ih hclosed _ _ _ hmember' (hcomma'.closed (.symbol (by decide) _))
    obtain ⟨-, rfl⟩ := hcomma.unique_symbol hcomma' (by decide) (by decide)
    obtain rfl := hnext.unique hnext' hmembers hmembers'
    obtain ⟨rfl, rfl⟩ := ihmore _ _ hmembers'
    exact ⟨rfl, rfl⟩

end

/-- **At the front of a text stands one part at most.** The induction is on one way to read the
text; the first character decides how the other way begins. -/
theorem Reads.unique {part : Part} {text rest : List Char} (h : Reads part text rest) :
    part.UniqueIn text rest := by
  induction h with
  | nullWord | trueWord | falseWord =>
    intro _ value' rest' h' _
    obtain ⟨htext, rfl⟩ := Reads.opens h'
    exact ⟨rfl, (List.append_cancel_left htext).symm⟩
  | number valid => exact unique_number valid
  | text hcharacters =>
    intro _ value' rest' h' _
    obtain ⟨characters', hcharacters', rfl⟩ := h'.opens
    obtain ⟨rfl, rfl⟩ := hcharacters.unique hcharacters'
    exact ⟨rfl, rfl⟩
  | emptyArray hblanks => exact unique_emptyArray hblanks
  | array hblanks hitems ih => exact unique_array hblanks hitems ih
  | emptyObject hblanks => exact unique_emptyObject hblanks
  | object hblanks hmembers ih => exact unique_object hblanks hmembers ih
  | lastItem _ hblanks ih => exact unique_lastItem hblanks ih
  | moreItems _ hcomma hnext hitems ih ihmore =>
    exact unique_moreItems hcomma hnext hitems ih ihmore
  | member hkey hcolon hnext hvalue ih => exact unique_member hkey hcolon hnext hvalue ih
  | lastMember _ hblanks ih => exact unique_lastMember hblanks ih
  | moreMembers _ hcomma hnext hmembers ih ihmore =>
    exact unique_moreMembers hcomma hnext hmembers ih ihmore

/-- **A text denotes one document at most.** -/
theorem Denotes.unique {text : String} {value value' : Document} (h : Denotes text value)
    (h' : Denotes text value') : value' = value := by
  obtain ⟨first, after, hbefore, hreads, hafter⟩ := h
  obtain ⟨first', after', hbefore', hreads', hafter'⟩ := h'
  obtain rfl := hbefore.unique hbefore' hreads hreads'
  exact (hreads.unique (hafter.closed .nil) _ _ hreads' (hafter'.closed .nil)).1

end TemplateExpr.Json

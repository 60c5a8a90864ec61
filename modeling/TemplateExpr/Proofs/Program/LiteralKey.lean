import Mathlib
import TemplateExpr.Proofs.Number.Notation
import TemplateExpr.Proofs.Program.Path
import TemplateExpr.Proofs.Program.Sequence
import TemplateExpr.Proofs.Token.NumberLiteral
import TemplateExpr.Proofs.Tree.Spelling

/-!
# Reading under the literal that was stored under

An entry of an object literal is stored under a text that is made when the literal is compiled; a
member whose key is computed is read under a text that is made when the key is evaluated. For texts
and integers these are the same text. For floats they are the same exactly if the computed one has
no exponent (`Literal.name_eq_display_iff`), and only then is the entry found again
(`Expression.ofSource_rereads`, `Code.eval_single_member`).
-/

namespace TemplateExpr

open Number Token

/-! ## The two texts of a literal -/

/-- That a literal is no float, or one that is never written with an exponent. -/
def Literal.InPlainNotation (key : Literal) : Prop :=
  ∀ x, key = .float x → x = 0 ∨ InPlainRange x

section

variable {word : List Char} {key : Literal}

/-- The literals that can be written: texts, integers, and floats without a sign. -/
theorem IsWord.constant_cases (h : IsWord word (.constant key)) :
    (∃ s, key = .text s) ∨ (∃ n, key = .integer n) ∨ ∃ x, key = .float x ∧ IsUnsigned x := by
  cases h with
  | quoted => exact .inl ⟨_, rfl⟩
  | numeral h hvalue =>
    by_cases hrange : IsInRange word
    · obtain ⟨n, hn, -⟩ := numeralValue?_inRange hrange
      rw [hvalue] at hn
      exact .inr (.inl ⟨n, Option.some.inj hn⟩)
    · obtain ⟨x, hread, hx⟩ := h.readUnsigned?
      rw [numeralValue?_float hrange, hx] at hvalue
      exact .inr (.inr ⟨x, (Option.some.inj hvalue).symm, isUnsigned_of_readUnsigned? hread⟩)

/-- **What a literal is stored under is what it is read under, exactly without an exponent.** -/
theorem Literal.name_eq_display_iff (h : IsWord word (.constant key)) :
    (PropertyKey.literal key).name = key.value.display ↔ key.InPlainNotation := by
  rcases h.constant_cases with ⟨s, rfl⟩ | ⟨n, rfl⟩ | ⟨x, rfl, hx⟩
  · exact iff_of_true rfl (by rintro x ⟨⟩)
  · exact iff_of_true rfl (by rintro x ⟨⟩)
  · have hplain : (Literal.float x).InPlainNotation ↔ x = 0 ∨ InPlainRange x :=
      ⟨fun h => h x rfl, by rintro h _ ⟨⟩; exact h⟩
    rw [hplain, ← render_eq_iff hx]
    exact String.ofList_inj

/-! ## No number is a blocked name -/

/-- Every blocked name has an `r` in it, and no number is written with one. -/
theorem Guard.checkName_of_not_mem {name : String} (h : 'r' ∉ name.toList) :
    Guard.checkName name = .ok () := by
  have hblocked : ∀ blocked ∈ Guard.blockedMembers, 'r' ∈ blocked.toList := by decide
  exact if_neg fun hmem => h (hblocked name hmem)

theorem Guard.checkName_integer (n : Int64) :
    Guard.checkName (Value.integer n).display = .ok () := by
  apply checkName_of_not_mem
  rw [Value.display, String.toList_ofList, integerText]
  intro hmem
  rcases List.mem_append.mp hmem with hsign | hdigit
  · split at hsign
    · cases List.mem_singleton.mp hsign
    · cases hsign
  · cases isDigit_of_mem_toDigits hdigit

theorem Guard.checkName_float (x : Float) : Guard.checkName (Value.float x).display = .ok () := by
  apply checkName_of_not_mem
  rw [Value.display, String.toList_ofList]
  intro hmem
  have hletters := NumberLayout.mem_render hmem
  revert hletters
  decide

theorem Guard.checkName_literal (h : IsWord word (.constant key))
    (hallowed : ∀ s, key = .text s → s ∉ Guard.blockedMembers) :
    Guard.checkName key.value.display = .ok () := by
  rcases h.constant_cases with ⟨s, rfl⟩ | ⟨n, rfl⟩ | ⟨x, rfl, -⟩
  · exact if_neg (hallowed s rfl)
  · exact Guard.checkName_integer n
  · exact Guard.checkName_float x

end

/-! ## Reading the entry -/

theorem Guard.checkObject_single (name : String) (value : Value) :
    Guard.checkObject (.record [(name, value)]) = .ok () := by
  have hkey : ∀ key, (Value.record [(name, value)]).hasKey key = decide (key = name) := by
    intro key
    rw [Value.hasKey, Entries.contains, Entries.get?_cons]
    by_cases h : key = name <;> simp [h]
  have hglobal : Guard.looksLikeGlobal (.record [(name, value)]) = false := by
    simp only [Guard.looksLikeGlobal, Guard.globalMarkers, List.all_cons, List.all_nil, hkey]
    by_cases h : "window" = name
    · subst h
      decide
    · simp [h]
  have helement : Guard.looksLikeElement (.record [(name, value)]) = false := by
    simp only [Guard.looksLikeElement, Guard.wrapperMarkers, List.all_cons, List.all_nil, hkey]
    by_cases h : "children" = name
    · subst h
      decide
    · simp [h]
  simp [Guard.checkObject, hglobal, helement]

section

variable {σ : Type} {host : Host σ} {code : Code} {value : Value} {world after : World σ}

theorem Code.eval_single (name : String) (h : (code.eval host).start world = (.ok value, after)) :
    ((Code.record [(name, code)]).eval host).start world =
      (.ok (.record [(name, value)]), after) := by
  rw [Code.eval, Run.start_bind, Code.evalEntries, Run.start_bind, h]
  rfl

theorem Code.eval_single_member {key : Literal} (name : String)
    (hallowed : Guard.checkName key.value.display = .ok ())
    (h : (code.eval host).start world = (.ok value, after))
    (hsafe : Guard.checkObject value = .ok ()) :
    ((Code.member (.record [(name, code)]) (.computed (.literal key))).eval host).start world =
      (.ok (if name = key.value.display then value else .undefined), after) := by
  have hkey : (Key.computed (.literal key)).eval host = pure key.value.display := by
    rw [Key.eval, Code.eval, pure_bind]
    dsimp only
    rw [hallowed]
    rfl
  have hmember : (Value.record [(name, value)]).getMember key.value.display =
      if name = key.value.display then value else .undefined := by
    rw [Value.getMember, Entries.get?_cons]
    by_cases hsame : name = key.value.display
    · simp [hsame]
    · simp [hsame, Ne.symm hsame]
  rw [Code.eval_member hkey (Code.eval_single name h), Guard.checkObject_single]
  dsimp only
  rw [hmember, Run.start_safe]
  split
  · rw [hsafe]
    rfl
  · rfl

end

/-! ## Sources that read an entry back -/

/-- That tokens are an object literal with one entry and a member of it whose key is the literal
that the entry is stored under. The two literals may be written differently. -/
inductive Rereads (key : Literal) (node : Node) : List Token → Prop
  | intro {opened : Bool} {us : List Token} {text text' : String} {p q r s t u v : Nat}
      (h : Derives .innermost (.assignment opened node) us) : Rereads key node
        (symbol "\x7b" p :: literal text key q :: symbol ":" r :: us ++
          [symbol "\x7d" s, symbol "[" t, literal text' key u, symbol "]" v])

section

variable {key : Literal} {node : Node} {ts : List Token} {source : String}

theorem Rereads.derives (h : Rereads key node ts) :
    Derives .innermost (.program (.program false
      [.member false (.object false [(.literal key, node)]) (.literal false key) true])) ts := by
  cases h with
  | @intro opened us text text' p q r s t u v hvalue =>
    have hlist : symbol "\x7b" p :: literal text key q :: symbol ":" r :: us ++
        [symbol "\x7d" s, symbol "[" t, literal text' key u, symbol "]" v] =
          (symbol "\x7b" p :: (literal text key q :: symbol ":" r :: us) ++ [symbol "\x7d" s]) ++
            symbol "[" t :: [literal text' key u] ++ [symbol "]" v] := by
      simp
    rw [hlist]
    refine .program (.lastStatement (.oneStatement (.pipeline_of_prefixed (.unprefixed ?_))))
    exact .index (.bare (.object (.lastEntry (.constantEntry hvalue))))
      (.pipeline_of_operand .constant)

theorem Rereads.isWord (h : Rereads key node ts) (htokens : tokenize source = .ok ts) :
    ∃ word, IsWord word (.constant key) := by
  cases h with
  | @intro _ _ text _ _ q =>
    exact ⟨_, tokenize_isWord htokens (literal text key q) (by simp)⟩

theorem IsWord.spelling {word : List Char} (h : IsWord word (.constant key)) :
    Spelling word Joint fun ts => ∃ text p, ts = [literal text key p] := by
  cases h with
  | numeral h hvalue => exact Spelling.numeral h hvalue
  | quoted hquote h =>
    exact (Spelling.quoted hquote h).mono (fun _ _ => trivial) fun _ h => h

theorem exists_rereads {word text : List Char} {opened : Bool}
    (hword : IsWord word (.constant key))
    (htext : (Phrase.assignment opened node).SpeltAs text) :
    ∃ ts, tokenize (String.ofList ('\x7b' :: (word ++ ':' :: text) ++ ['\x7d'] ++
      ('[' :: word ++ [']']))) = .ok ts ∧ Rereads key node ts := by
  have hcolon : ∀ rest, Joint rest → Joint (':' :: text ++ rest) :=
    fun rest _ => .cons (by decide) (by decide) _
  have hentry := hword.spelling.append (Spelling.behind ':' (by decide) htext) hcolon
  have hobject := Spelling.wrapped '\x7b' '\x7d' (by decide) (by decide) (by decide) hentry
  have hindex := Spelling.wrapped '[' ']' (by decide) (by decide) (by decide) hword.spelling
  obtain ⟨ts, htokens, hts⟩ :=
    tokenize_spelling (hobject.append hindex fun _ _ => trivial) trivial
  refine ⟨ts, htokens, ?_⟩
  obtain ⟨_, _, rfl, ⟨_, p, s, rfl, _, _, rfl, ⟨_, q, rfl⟩, r, us, rfl, hus⟩,
    ⟨_, t, v, rfl, _, u, rfl⟩⟩ := hts
  simp only [List.append_assoc, List.cons_append, List.nil_append]
  exact .intro hus

end

namespace Expression

section

variable {registry : Registry} {source : String} {ts : List Token} {key : Literal} {node : Node}
  {code : Code}

theorem ofTree_rereads {constant flag flag' flag'' : Bool}
    (hcode : node.compile registry = .ok code) :
    ∃ expression, ofTree registry source (.program constant
        [.member flag (.object flag' [(.literal key, node)]) (.literal flag'' key) true]) =
          .ok expression ∧
      expression.reading = .statements [.member
        (.record [((PropertyKey.literal key).name, code)]) (.computed (.literal key))] := by
  have hobject : (Node.object flag' [(.literal key, node)]).compile registry =
      .ok (.record [((PropertyKey.literal key).name, code)]) := by
    rw [Node.compile, Node.compileEntries, hcode]
    rfl
  have hplace : ∃ place, place? registry
      [.member flag (.object flag' [(.literal key, node)]) (.literal flag'' key) true] =
        .ok place := by
    rw [place?, Node.compilePlace, hobject]
    · exact ⟨_, rfl⟩
    · rintro _ _ ⟨⟩
    · rintro _ _ _ _ ⟨⟩
    · rintro _ ⟨⟩
  obtain ⟨place, hplace⟩ := hplace
  rw [ofTree, hplace, Node.compileAll, Node.compile, hobject]
  exact ⟨_, rfl, rfl⟩

theorem ofSource_rereads (htokens : tokenize source = .ok ts) (hts : Rereads key node ts)
    (hcode : node.analyze.compile registry = .ok code) :
    ∃ expression, ofSource registry source = .ok expression ∧
      expression.reading = .statements [.member
        (.record [((PropertyKey.literal key).name, code)]) (.computed (.literal key))] := by
  have htree := treeOf_of_tokens htokens
    (Node.ofTokens_complete (tokenize_distinct htokens) hts.derives)
  rw [ofSource, htree]
  exact ofTree_rereads hcode

/-- **An entry is found again under the literal that it is stored under, exactly if that is never
written with an exponent.** Whatever the value is, if it is safe it is what the source evaluates to,
from any scope and any state of the host; under a float that is written with an exponent nothing is
found. That the record is safe need not be asked (`Guard.checkObject_single`). -/
theorem literal_key_read (htokens : tokenize source = .ok ts) (hts : Rereads key node ts)
    (hallowed : ∀ s, key = .text s → s ∉ Guard.blockedMembers)
    (hcode : node.analyze.compile registry = .ok code) :
    ((PropertyKey.literal key).name = key.value.display ↔ key.InPlainNotation) ∧
    ∃ expression, ofSource registry source = .ok expression ∧
      ∀ {σ : Type} (host : Host σ) (world after : World σ) (value : Value),
        (code.eval host).start world = (.ok value, after) → Guard.checkObject value = .ok () →
        (key.InPlainNotation → (expression.eval host).start world = (.ok value, after)) ∧
        (¬key.InPlainNotation → (expression.eval host).start world = (.ok .undefined, after)) := by
  obtain ⟨word, hword⟩ := hts.isWord htokens
  have hname := Literal.name_eq_display_iff hword
  obtain ⟨expression, hexpression, hreading⟩ := ofSource_rereads htokens hts hcode
  refine ⟨hname, expression, hexpression, fun host world after value hvalue hsafe => ?_⟩
  rw [eval_statement hreading, Code.eval_single_member _
    (Guard.checkName_literal hword hallowed) hvalue hsafe, ← hname]
  exact ⟨fun hsame => by rw [if_pos hsame], fun hother => by rw [if_neg hother]⟩

end

theorem exists_rereads_five {word : List Char} {key : Literal}
    (hword : IsWord word (.constant key)) :
    ∃ ts, tokenize (String.ofList ('\x7b' :: (word ++ ':' :: ['5']) ++ ['\x7d'] ++
      ('[' :: word ++ [']']))) = .ok ts ∧ Rereads key (.literal false (.integer 5)) ts := by
  have hfive : IsNumeral ['5'] := ⟨['5'], [], rfl, .whole (by simp) (by simp), .none⟩
  exact exists_rereads hword
    (Phrase.speltAs_numeral hfive (by decide)).prefixed.assignment

/-- Stored under a short numeral, the number is found again. -/
theorem literal_key_read_short : ∃ expression,
    ofSource .empty "\x7b1.5:5\x7d[1.5]" = .ok expression ∧ ∀ scope : Scope,
      (expression.eval Host.none).start ⟨scope, ()⟩ = (.ok (.integer 5), ⟨scope, ()⟩) := by
  have hmantissa : IsMantissa (['1'] ++ '.' :: ['5']) := .point (by simp) (by simp) (by simp)
  have hword : IsWord ['1', '.', '5'] (.constant (.float 1.5)) :=
    .numeral ⟨_, [], rfl, hmantissa, .none⟩ (by decide +kernel)
  obtain ⟨ts, htokens, hts⟩ := exists_rereads_five hword
  have hplain : (Literal.float 1.5).InPlainNotation := by
    rintro _ ⟨⟩
    exact .inr ⟨by decide +kernel, by decide +kernel⟩
  have hcode : (Node.literal false (.integer 5)).analyze.compile .empty =
    .ok (.literal (.integer 5)) := rfl
  obtain ⟨-, expression, hexpression, heval⟩ :=
    literal_key_read htokens hts (by rintro _ ⟨⟩) hcode
  exact ⟨expression, hexpression, fun scope => (heval Host.none _ _ _ rfl rfl).1 hplain⟩

/-- Stored under a long numeral, it is not: the entry has all digits of the numeral for a name, and
is read under a text with an exponent. -/
theorem literal_key_lost : ∃ expression,
    ofSource .empty "\x7b1e21:5\x7d[1e21]" = .ok expression ∧
    (PropertyKey.literal (.float 1e21)).name = "1000000000000000000000" ∧
    (Literal.float 1e21).value.display = "1e+21" ∧
    Guard.checkObject (.integer 5) = .ok () ∧
    Guard.checkObject (.record [("1000000000000000000000", .integer 5)]) = .ok () ∧
    ∀ scope : Scope,
      (expression.eval Host.none).start ⟨scope, ()⟩ = (.ok .undefined, ⟨scope, ()⟩) := by
  have hmantissa : IsMantissa ['1'] := .whole (by simp) (by simp)
  have hexponent : IsExponent ('e' :: [] ++ ['2', '1']) :=
    .some (.inl rfl) (.inl rfl) (by simp) (by simp)
  have hword : IsWord ['1', 'e', '2', '1'] (.constant (.float 1e21)) :=
    .numeral ⟨_, _, rfl, hmantissa, hexponent⟩ (by decide +kernel)
  obtain ⟨ts, htokens, hts⟩ := exists_rereads_five hword
  have hname : (PropertyKey.literal (.float 1e21)).name = "1000000000000000000000" := by
    decide +kernel
  have hdisplay : (Literal.float 1e21).value.display = "1e+21" := by decide +kernel
  have hcode : (Node.literal false (.integer 5)).analyze.compile .empty =
    .ok (.literal (.integer 5)) := rfl
  obtain ⟨expression, hexpression, hreading⟩ := ofSource_rereads htokens hts hcode
  refine ⟨expression, hexpression, hname, hdisplay, rfl, Guard.checkObject_single _ _,
    fun scope => ?_⟩
  have hallowed : Guard.checkName (Literal.float 1e21).value.display = .ok () :=
    Guard.checkName_float 1e21
  rw [eval_statement hreading, Code.eval_single_member _ hallowed rfl rfl, hname, hdisplay]
  rfl

end Expression

end TemplateExpr

import TemplateExpr.Proofs.Token.Spelling
import TemplateExpr.Proofs.Tree.Derivation
import TemplateExpr.Proofs.Tree.Reading

/-!
# What the parser reads is derived

Every rule of the parser reads a stretch of tokens that the grammar derives from the rule's phrase,
with the tree that the rule gives (`Spans`). The loops carry along what was read before them: a loop
that is handed the tree of some tokens gives a tree of these tokens and of what it reads.

A rule knows a symbol by its text, so any token can stand for the symbol that it spells. What is
derived are the tokens as the rules take them (`Takes`). Where all tokens are spelt apart, as those
of a source are, every token is taken as what it is.

An assignment that is left open is not followed by `=`, because the rule would have taken it; this
is where the parser's greed meets the rule that an `=` belongs to the innermost assignment.

The recursion is the parser's own, over the tokens left and, among rules that take no token before
they call another, over the order of the rules.
-/

namespace TemplateExpr

/-- That every token is spelt apart from the symbols, unless it is one. -/
def AllDistinct (ts : List Token) : Prop := ∀ token ∈ ts, token.Distinct

theorem AllDistinct.of_append {us vs : List Token} (h : AllDistinct (us ++ vs)) :
    AllDistinct us ∧ AllDistinct vs :=
  ⟨fun token ht => h token (List.mem_append_left _ ht),
    fun token ht => h token (List.mem_append_right _ ht)⟩

theorem AllDistinct.tail {token : Token} {ts : List Token} (h : AllDistinct (token :: ts)) :
    AllDistinct ts :=
  fun other ht => h other (List.mem_cons_of_mem _ ht)

/-! ## Tokens as rules take them -/

/-- How a rule takes a token: as what it is, or as the symbol that its text spells. -/
inductive Token.TakenAs : Token → Token → Prop
  | itself (token : Token) : TakenAs token token
  | symbol (token : Token) (h : token.text ∈ symbolTexts) :
    TakenAs token (.symbol token.text token.position)

theorem Token.TakenAs.eq {token taken : Token} (h : token.TakenAs taken)
    (hdistinct : token.Distinct) : token = taken := by
  cases h with
  | itself => rfl
  | symbol hsymbol =>
    have hkind : token.kind = .symbol :=
      Decidable.byContradiction fun hne => hdistinct hne hsymbol
    obtain ⟨text, kind, position⟩ := token
    subst hkind
    rfl

/-- The tokens at the front of `ts` are taken as `us`, and `rest` is behind them. -/
inductive Takes : (ts us rest : List Token) → Prop
  | nil (rest : List Token) : Takes rest [] rest
  | cons {token taken : Token} {ts us rest : List Token} (h : token.TakenAs taken)
    (hmore : Takes ts us rest) : Takes (token :: ts) (taken :: us) rest

namespace Takes

variable {ts us vs mid rest : List Token}

theorem itself (token : Token) (rest : List Token) : Takes (token :: rest) [token] rest :=
  .cons (.itself token) (.nil rest)

theorem trans (h : Takes ts us mid) (h' : Takes mid vs rest) : Takes ts (us ++ vs) rest := by
  induction h with
  | nil => exact h'
  | cons htaken _ ih => exact .cons htaken (ih h')

theorem eq_append (h : Takes ts us rest) (hts : AllDistinct ts) : ts = us ++ rest := by
  induction h with
  | nil => rfl
  | cons htaken _ ih =>
    rw [htaken.eq (hts _ List.mem_cons_self), ih hts.tail]
    rfl

end Takes

namespace Grammar

/-- The tokens `ts` start with tokens that are derived from `phrase`, as the rules take them, and
`rest` is behind these. -/
def Spans (phrase : Phrase) (ts rest : List Token) : Prop :=
  ∃ us, Takes ts us rest ∧ Derives .innermost phrase us

theorem Spans.split {phrase : Phrase} {ts rest : List Token} (h : Spans phrase ts rest)
    (hts : AllDistinct ts) :
    ∃ us, ts = us ++ rest ∧ Derives .innermost phrase us ∧ AllDistinct us ∧ AllDistinct rest := by
  obtain ⟨us, htakes, hderives⟩ := h
  obtain rfl := htakes.eq_append hts
  exact ⟨us, rfl, hderives, hts.of_append⟩

theorem Leads.takes {text : String} {ts rest : List Token} (h : Leads text ts rest)
    (htext : text ∈ symbolTexts) : ∃ p, Takes ts [.symbol text p] rest := by
  obtain ⟨token, rfl, rfl⟩ := h
  exact ⟨token.position, .cons (.symbol token htext) (.nil rest)⟩

theorem wordTree_denotes (text : String) : WordDenotes text (wordTree text) := by
  unfold wordTree
  split
  · exact .null
  · exact .true
  · exact .false
  · exact .this
  · exact .name (by simp_all)

theorem symbols_subset (level : Level) : ∀ text ∈ level.symbols, text ∈ symbolTexts := by
  cases level <;> decide

theorem infixOp?_takes {level : Level} {ts rest : List Token} {op : InfixOp}
    {fits : rest.length < ts.length} (h : infixOp? level ts = some ⟨op, rest, fits⟩) :
    ∃ text p, Takes ts [.symbol text p] rest ∧ level.operator? text = some op := by
  cases ts with
  | nil => cases h
  | cons token ts =>
    simp only [infixOp?, Option.map_eq_some_iff] at h
    obtain ⟨op', hop, heq⟩ := h
    cases heq
    have hleads : Leads token.text (token :: rest) rest := ⟨token, rfl, rfl⟩
    obtain ⟨p, hp⟩ := hleads.takes (symbols_subset level _ (Level.mem_symbols hop))
    exact ⟨token.text, p, hp, hop⟩

theorem prefixOp?_takes {ts rest : List Token} {op : UnaryOp} {fits : rest.length < ts.length}
    (h : prefixOp? ts = some ⟨op, rest, fits⟩) :
    ∃ text p, Takes ts [.symbol text p] rest ∧ UnaryOp.ofSymbol? text = some op := by
  cases ts with
  | nil => cases h
  | cons token ts =>
    simp only [prefixOp?, Option.map_eq_some_iff] at h
    obtain ⟨op', hop, heq⟩ := h
    cases heq
    have hmem : token.text ∈ symbolTexts :=
      (by decide : ∀ text ∈ ["+", "-", "!"], text ∈ symbolTexts) _ (UnaryOp.mem_symbols hop)
    have hleads : Leads token.text (token :: rest) rest := ⟨token, rfl, rfl⟩
    obtain ⟨p, hp⟩ := hleads.takes hmem
    exact ⟨token.text, p, hp, hop⟩

theorem Leads.length_lt {text : String} {ts rest : List Token} (h : Leads text ts rest) :
    rest.length < ts.length := by
  obtain ⟨token, rfl, -⟩ := h
  simp

theorem propertyKey_starts {ts rest : List Token} {key : PropertyKey}
    (h : Reads (propertyKey ts) key rest) :
    ∃ first, ts = first :: rest ∧
      ∀ {opened value q us}, Derives .innermost (.assignment opened value) us →
        Derives .innermost (.entry key value) (first :: .symbol ":" q :: us) := by
  rcases reads_propertyKey.mp h with ⟨text, p, rfl, rfl⟩ | ⟨text, value, p, rfl, rfl⟩
  · exact ⟨.word text p, rfl, .namedEntry⟩
  · exact ⟨.literal text value p, rfl, .constantEntry⟩

/-! ## The rules -/

mutual
theorem pipeline_sound {ts rest : List Token} {tree : Node}
    (h : Reads (pipeline ts) tree rest) : Spans (.pipeline tree) ts rest := by
  obtain ⟨input, mid, hinput, hstages⟩ := reads_pipeline.mp h
  have hfewer := hinput.length_lt
  obtain ⟨opened, ⟨us, hus, hderives⟩, -⟩ := assignment_sound hinput
  obtain ⟨vs, hvs, hall⟩ := stages_sound (.unpiped hderives) hstages
  exact ⟨us ++ vs, hus.trans hvs, hall⟩
termination_by 30 * ts.length + 17

theorem stages_sound {ts us rest : List Token} {input tree : Node}
    (hinput : Derives .innermost (.pipeline input) us) (h : Reads (stages input ts) tree rest) :
    ∃ vs, Takes ts vs rest ∧ Derives .innermost (.pipeline tree) (us ++ vs) := by
  rcases reads_stages.mp h with ⟨-, rfl, rfl⟩ |
    ⟨afterBar, filter, afterName, given, mid, hbar, hname, hgiven, hstages⟩
  · exact ⟨[], .nil _, by rwa [List.append_nil]⟩
  obtain ⟨p, hp⟩ := hbar.takes (by decide)
  have hfewer := hbar.length_lt
  have hfewer' := hname.length_lt
  have hfewer'' := hgiven.length_lt
  obtain ⟨q, rfl⟩ := reads_name.mp hname
  obtain ⟨vs, hvs, hderives⟩ := stageArguments_sound hgiven
  obtain ⟨ws, hws, hall⟩ := stages_sound (.piped (p := p) (q := q) hinput hderives) hstages
  refine ⟨.symbol "|" p :: .word filter q :: vs ++ ws, ?_, by simpa using hall⟩
  exact (hp.trans ((Takes.itself _ _).trans hvs)).trans hws
termination_by 30 * ts.length

theorem stageArguments_sound {ts rest : List Token} {given : List Node}
    (h : Reads (stageArguments ts) given rest) : Spans (.stageArguments given) ts rest := by
  rcases reads_stageArguments.mp h with ⟨-, rfl, rfl⟩ |
    ⟨afterColon, argument, mid, more, hcolon, hargument, hmore, rfl⟩
  · exact ⟨[], .nil _, .noStageArgument⟩
  obtain ⟨p, hp⟩ := hcolon.takes (by decide)
  have hfewer := hcolon.length_lt
  have hfewer' := hargument.length_lt
  obtain ⟨opened, ⟨us, hus, hderives⟩, -⟩ := assignment_sound hargument
  obtain ⟨vs, hvs, hall⟩ := stageArguments_sound hmore
  exact ⟨.symbol ":" p :: us ++ vs, (hp.trans hus).trans hvs, .stageArgument hderives hall⟩
termination_by 30 * ts.length

/-- An assignment that is read open stops in front of something else than `=`. -/
theorem assignment_sound {ts rest : List Token} {tree : Node}
    (h : Reads (assignment ts) tree rest) :
    ∃ opened, Spans (.assignment opened tree) ts rest ∧
      (opened = true → startsWith "=" rest = false) := by
  obtain ⟨left, mid, hleft, hrest⟩ := reads_assignment.mp h
  have hfewer := hleft.length_lt
  obtain ⟨openedLeft, ⟨us, hus, hderives⟩, hstop⟩ := ternary_sound hleft
  rcases hrest with ⟨hno, rfl, rfl⟩ | ⟨afterSign, right, hsign, hright, rfl⟩
  · exact ⟨true, ⟨us, hus, .unassigned hderives⟩, fun _ => hno⟩
  -- An `=` behind the left side shows that the left side is closed.
  have hclosed : openedLeft = false := by
    cases openedLeft with
    | false => rfl
    | true => exact absurd hsign.startsWith (by simp [hstop rfl])
  obtain ⟨p, hp⟩ := hsign.takes (by decide)
  have hfewer' := hsign.length_lt
  obtain ⟨opened, ⟨vs, hvs, hderives'⟩, hstop'⟩ := ternary_sound hright
  refine ⟨opened, ⟨us ++ .symbol "=" p :: vs, hus.trans (hp.trans hvs), ?_⟩, hstop'⟩
  exact .assigned hderives hderives' fun _ => hclosed
termination_by 30 * ts.length + 16

theorem ternary_sound {ts rest : List Token} {tree : Node}
    (h : Reads (ternary ts) tree rest) :
    ∃ opened, Spans (.ternary opened tree) ts rest ∧
      (opened = true → startsWith "=" rest = false) := by
  obtain ⟨test, mid, htest, hrest⟩ := reads_ternary.mp h
  have hfewer := htest.length_lt
  obtain ⟨us, hus, hderives⟩ := chain_sound htest
  rcases hrest with ⟨-, rfl, rfl⟩ |
    ⟨afterMark, consequent, beforeColon, afterColon, alternate, hmark, hconsequent, hcolon,
      halternate, rfl⟩
  · exact ⟨false, ⟨us, hus, .unconditional hderives⟩, by simp⟩
  obtain ⟨p, hp⟩ := hmark.takes (by decide)
  have hfewer' := hmark.length_lt
  have hfewer'' := hconsequent.length_lt
  have hfewest := hcolon.length_lt
  obtain ⟨openedInner, ⟨vs, hvs, hderives'⟩, -⟩ := assignment_sound hconsequent
  obtain ⟨q, hq⟩ := hcolon.takes (by decide)
  obtain ⟨opened, ⟨ws, hws, hderives''⟩, hstop⟩ := assignment_sound halternate
  refine ⟨opened, ⟨us ++ .symbol "?" p :: vs ++ .symbol ":" q :: ws, ?_, ?_⟩, hstop⟩
  · exact (hus.trans (hp.trans hvs)).trans (hq.trans hws)
  · exact .conditional hderives hderives' hderives''
termination_by 30 * ts.length + 15
decreasing_by
  · rw [show Level.or.rank = 5 from rfl]
    omega
  · omega
  · omega

theorem chain_sound {level : Level} {ts rest : List Token} {tree : Node}
    (h : Reads (chain level ts) tree rest) : Spans (.chain level tree) ts rest := by
  obtain ⟨left, mid, hleft, hrest⟩ := reads_chain.mp h
  have hfewer := hleft.length_lt
  obtain ⟨us, hus, hderives⟩ := tighter_sound hleft
  obtain ⟨vs, hvs, hall⟩ := chainRest_sound (.unchained hderives) hrest
  exact ⟨us ++ vs, hus.trans hvs, hall⟩
termination_by 30 * ts.length + 2 * level.rank + 4

theorem tighter_sound {level : Level} {ts rest : List Token} {tree : Node}
    (h : Reads (tighter level ts) tree rest) : Spans (.tighter level tree) ts rest := by
  cases hnext : level.tighter? with
  | some next =>
    have hrank := Level.rank_tighter hnext
    obtain ⟨us, hus, hderives⟩ := chain_sound ((reads_tighter_level hnext).mp h)
    exact ⟨us, hus, .level hnext hderives⟩
  | none =>
    obtain ⟨us, hus, hderives⟩ := prefixed_sound ((reads_tighter_prefixed hnext).mp h)
    exact ⟨us, hus, .tightest hnext hderives⟩
termination_by 30 * ts.length + 2 * level.rank + 3

theorem chainRest_sound {level : Level} {ts us rest : List Token} {left tree : Node}
    (hleft : Derives .innermost (.chain level left) us)
    (h : Reads (chainRest level left ts) tree rest) :
    ∃ vs, Takes ts vs rest ∧ Derives .innermost (.chain level tree) (us ++ vs) := by
  rcases reads_chainRest.mp h with ⟨-, rfl, rfl⟩ |
    ⟨op, right, afterOp, mid, hfewer, hop, hright, hrest⟩
  · exact ⟨[], .nil _, by rwa [List.append_nil]⟩
  obtain ⟨text, p, hp, hsymbol⟩ := infixOp?_takes hop
  have hfewer' := hright.length_lt
  have hrank : level.rank ≤ 5 := by cases level <;> decide
  obtain ⟨vs, hvs, hderives⟩ := tighter_sound hright
  obtain ⟨ws, hws, hall⟩ := chainRest_sound (.chained (p := p) hleft hsymbol hderives) hrest
  -- What was read so far is the left operand of the link: the production is left-recursive.
  refine ⟨.symbol text p :: vs ++ ws, (hp.trans hvs).trans hws, by simpa using hall⟩
termination_by 30 * ts.length

theorem prefixed_sound {ts rest : List Token} {tree : Node}
    (h : Reads (prefixed ts) tree rest) : Spans (.prefixed tree) ts rest := by
  rcases reads_prefixed.mp h with ⟨-, hoperand⟩ |
    ⟨op, argument, afterOp, hfewer, hop, hargument, rfl⟩
  · obtain ⟨us, hus, hderives⟩ := postfixed_sound hoperand
    exact ⟨us, hus, .unprefixed hderives⟩
  obtain ⟨text, p, hp, hsymbol⟩ := prefixOp?_takes hop
  obtain ⟨us, hus, hderives⟩ := prefixed_sound hargument
  exact ⟨.symbol text p :: us, hp.trans hus, .signed hsymbol hderives⟩
termination_by 30 * ts.length + 2

theorem postfixed_sound {ts rest : List Token} {tree : Node}
    (h : Reads (postfixed ts) tree rest) : Spans (.postfixed tree) ts rest := by
  obtain ⟨head, mid, hhead, hrest⟩ := reads_postfixed.mp h
  have hfewer := hhead.length_lt
  obtain ⟨us, hus, hderives⟩ := operand_sound hhead
  obtain ⟨vs, hvs, hall⟩ := postfixes_sound (.bare hderives) hrest
  exact ⟨us ++ vs, hus.trans hvs, hall⟩
termination_by 30 * ts.length + 1

theorem postfixes_sound {ts us rest : List Token} {head tree : Node}
    (hhead : Derives .innermost (.postfixed head) us)
    (h : Reads (postfixes head ts) tree rest) :
    ∃ vs, Takes ts vs rest ∧ Derives .innermost (.postfixed tree) (us ++ vs) := by
  rcases reads_postfixes.mp h with ⟨-, -, -, rfl, rfl⟩ |
    ⟨after, given, beforeClose, mid, hopen, hgiven, hclose, hrest⟩ |
    ⟨after, key, beforeClose, mid, hopen, hkey, hclose, hrest⟩ |
    ⟨after, key, mid, hpoint, hkey, hrest⟩
  · exact ⟨[], .nil _, by rwa [List.append_nil]⟩
  · obtain ⟨p, hp⟩ := hopen.takes (by decide)
    have hfewer := hopen.length_lt
    have hfewer' := hgiven.length_lt
    have hfewer'' := hclose.length_lt
    obtain ⟨vs, hvs, hderives⟩ := arguments_sound hgiven
    obtain ⟨q, hq⟩ := hclose.takes (by decide)
    obtain ⟨ws, hws, hall⟩ := postfixes_sound (.call (p := p) (q := q) hhead hderives) hrest
    refine ⟨.symbol "(" p :: vs ++ .symbol ")" q :: ws, ?_, by simpa using hall⟩
    exact (hp.trans hvs).trans (hq.trans hws)
  · obtain ⟨p, hp⟩ := hopen.takes (by decide)
    have hfewer := hopen.length_lt
    have hfewer' := hkey.length_lt
    have hfewer'' := hclose.length_lt
    obtain ⟨vs, hvs, hderives⟩ := pipeline_sound hkey
    obtain ⟨q, hq⟩ := hclose.takes (by decide)
    obtain ⟨ws, hws, hall⟩ := postfixes_sound (.index (p := p) (q := q) hhead hderives) hrest
    refine ⟨.symbol "[" p :: vs ++ .symbol "]" q :: ws, ?_, by simpa using hall⟩
    exact (hp.trans hvs).trans (hq.trans hws)
  · obtain ⟨p, hp⟩ := hpoint.takes (by decide)
    have hfewer := hpoint.length_lt
    have hfewer' := hkey.length_lt
    obtain ⟨q, rfl⟩ := reads_name.mp hkey
    obtain ⟨ws, hws, hall⟩ := postfixes_sound (.member (p := p) (q := q) hhead) hrest
    refine ⟨.symbol "." p :: .word key q :: ws, ?_, by simpa using hall⟩
    exact hp.trans ((Takes.itself _ _).trans hws)
termination_by 30 * ts.length

theorem operand_sound {ts rest : List Token} {tree : Node}
    (h : Reads (operand ts) tree rest) : Spans (.operand tree) ts rest := by
  rcases reads_operand.mp h with ⟨-, -, -, hatom⟩ | ⟨after, beforeClose, hopen, hinner, hclose⟩ |
    ⟨after, items, beforeClose, hopen, hitems, hclose, rfl⟩ |
    ⟨after, fields, beforeClose, hopen, hfields, hclose, rfl⟩
  · rcases reads_atom.mp hatom with ⟨text, p, rfl, rfl⟩ | ⟨text, value, p, rfl, rfl⟩
    · exact ⟨[.word text p], .itself _ _, .word (wordTree_denotes text)⟩
    · exact ⟨[.literal text value p], .itself _ _, .constant⟩
  · obtain ⟨p, hp⟩ := hopen.takes (by decide)
    have hfewer := hopen.length_lt
    obtain ⟨us, hus, hderives⟩ := pipeline_sound hinner
    obtain ⟨q, hq⟩ := hclose.takes (by decide)
    exact ⟨.symbol "(" p :: us ++ [.symbol ")" q], (hp.trans hus).trans hq, .bracketed hderives⟩
  · obtain ⟨p, hp⟩ := hopen.takes (by decide)
    have hfewer := hopen.length_lt
    obtain ⟨us, hus, hderives⟩ := elements_sound hitems
    obtain ⟨q, hq⟩ := hclose.takes (by decide)
    exact ⟨.symbol "[" p :: us ++ [.symbol "]" q], (hp.trans hus).trans hq, .array hderives⟩
  · obtain ⟨p, hp⟩ := hopen.takes (by decide)
    have hfewer := hopen.length_lt
    obtain ⟨us, hus, hderives⟩ := entries_sound hfields
    obtain ⟨q, hq⟩ := hclose.takes (by decide)
    exact ⟨.symbol "\x7b" p :: us ++ [.symbol "\x7d" q], (hp.trans hus).trans hq, .object hderives⟩
termination_by 30 * ts.length

theorem arguments_sound {ts rest : List Token} {given : List Node}
    (h : Reads (arguments ts) given rest) : Spans (.arguments given) ts rest := by
  rcases reads_arguments.mp h with ⟨-, rfl, rfl⟩ | ⟨-, hlist⟩
  · exact ⟨[], .nil _, .noArgument⟩
  · obtain ⟨us, hus, hderives⟩ := argumentList_sound hlist
    exact ⟨us, hus, .someArguments hderives⟩
termination_by 30 * ts.length + 19

theorem argumentList_sound {ts rest : List Token} {given : List Node}
    (h : Reads (argumentList ts) given rest) : Spans (.argumentList given) ts rest := by
  obtain ⟨argument, mid, hargument, hrest⟩ := reads_argumentList.mp h
  have hfewer := hargument.length_lt
  obtain ⟨us, hus, hderives⟩ := pipeline_sound hargument
  rcases hrest with ⟨-, rfl, rfl⟩ | ⟨after, more, hcomma, hmore, rfl⟩
  · exact ⟨us, hus, .lastArgument hderives⟩
  obtain ⟨p, hp⟩ := hcomma.takes (by decide)
  have hfewer' := hcomma.length_lt
  obtain ⟨vs, hvs, hall⟩ := argumentList_sound hmore
  exact ⟨us ++ .symbol "," p :: vs, hus.trans (hp.trans hvs), .moreArguments hderives hall⟩
termination_by 30 * ts.length + 18

theorem elements_sound {ts rest : List Token} {items : List Node}
    (h : Reads (elements ts) items rest) : Spans (.elements items) ts rest := by
  rcases reads_elements.mp h with ⟨-, rfl, rfl⟩ | ⟨-, item, mid, hitem, hrest⟩
  · exact ⟨[], .nil _, .noElement⟩
  have hfewer := hitem.length_lt
  obtain ⟨opened, ⟨us, hus, hderives⟩, -⟩ := assignment_sound hitem
  rcases hrest with ⟨-, rfl, rfl⟩ | ⟨after, more, hcomma, hmore, rfl⟩
  · exact ⟨us, hus, .lastElement hderives⟩
  obtain ⟨p, hp⟩ := hcomma.takes (by decide)
  have hfewer' := hcomma.length_lt
  obtain ⟨vs, hvs, hall⟩ := elements_sound hmore
  exact ⟨us ++ .symbol "," p :: vs, hus.trans (hp.trans hvs), .moreElements hderives hall⟩
termination_by 30 * ts.length + 18

theorem entries_sound {ts rest : List Token} {fields : List (PropertyKey × Node)}
    (h : Reads (entries ts) fields rest) : Spans (.entries fields) ts rest := by
  rcases reads_entries.mp h with ⟨-, rfl, rfl⟩ |
    ⟨-, key, beforeColon, afterColon, value, mid, hkey, hcolon, hvalue, hrest⟩
  · exact ⟨[], .nil _, .noEntry⟩
  have hfewer := hkey.length_lt
  have hfewer' := hcolon.length_lt
  have hfewer'' := hvalue.length_lt
  obtain ⟨first, rfl, hentry⟩ := propertyKey_starts hkey
  obtain ⟨q, hq⟩ := hcolon.takes (by decide)
  obtain ⟨opened, ⟨us, hus, hderives⟩, -⟩ := assignment_sound hvalue
  have hall : Takes (first :: beforeColon) (first :: .symbol ":" q :: us) mid :=
    (Takes.itself _ _).trans (hq.trans hus)
  rcases hrest with ⟨-, rfl, rfl⟩ | ⟨after, more, hcomma, hmore, rfl⟩
  · exact ⟨first :: .symbol ":" q :: us, hall, .lastEntry (hentry hderives)⟩
  obtain ⟨p, hp⟩ := hcomma.takes (by decide)
  have hfewest := hcomma.length_lt
  obtain ⟨vs, hvs, hmoreDerives⟩ := entries_sound hmore
  refine ⟨first :: .symbol ":" q :: us ++ .symbol "," p :: vs, hall.trans (hp.trans hvs), ?_⟩
  exact .moreEntries (hentry hderives) hmoreDerives
termination_by 30 * ts.length + 18
end

theorem statement?_sound {ts rest : List Token} {body : List Node}
    (h : Reads (statement? ts) body rest) : Spans (.statement body) ts rest := by
  rcases reads_statement?.mp h with ⟨-, rfl, rfl⟩ | ⟨-, tree, htree, rfl⟩
  · exact ⟨[], .nil _, .noStatement⟩
  · obtain ⟨us, hus, hderives⟩ := pipeline_sound htree
    exact ⟨us, hus, .oneStatement hderives⟩

theorem statements_sound {ts rest : List Token} {body : List Node}
    (h : Reads (statements ts) body rest) : Spans (.statements body) ts rest := by
  obtain ⟨first, mid, hfirst, hrest⟩ := reads_statements.mp h
  have hfewer := hfirst.length_lt
  obtain ⟨us, hus, hderives⟩ := statement?_sound hfirst
  rcases hrest with ⟨-, rfl, rfl⟩ | ⟨after, more, hsemicolon, hmore, rfl⟩
  · exact ⟨us, hus, .lastStatement hderives⟩
  obtain ⟨p, hp⟩ := hsemicolon.takes (by decide)
  have hfewer' := hsemicolon.length_lt
  obtain ⟨vs, hvs, hall⟩ := statements_sound hmore
  exact ⟨us ++ .symbol ";" p :: vs, hus.trans (hp.trans hvs), .moreStatements hderives hall⟩
termination_by ts.length

end Grammar

/-- **Every tree is derived.** Whatever tokens a tree is read from, the grammar derives it from them
as the rules take them. -/
theorem Node.ofTokens_derives {ts : List Token} {tree : Node} (h : Node.ofTokens ts = .ok tree) :
    ∃ us, Takes ts us [] ∧ Derives .innermost (.program tree) us := by
  unfold Node.ofTokens at h
  split at h
  · cases h
  · next body fits hbody =>
    cases h
    obtain ⟨us, hus, hderives⟩ := Grammar.statements_sound ⟨fits, hbody⟩
    exact ⟨us, hus, .program hderives⟩
  · cases h

/-- **Soundness of the parser.** The tree of a list of tokens is one that the grammar derives from
the whole list. -/
theorem Node.ofTokens_sound {ts : List Token} {tree : Node} (hts : AllDistinct ts)
    (h : Node.ofTokens ts = .ok tree) : Derives .innermost (.program tree) ts := by
  obtain ⟨us, htakes, hderives⟩ := Node.ofTokens_derives h
  rw [htakes.eq_append hts, List.append_nil]
  exact hderives

end TemplateExpr

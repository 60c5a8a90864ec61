import Mathlib
import TemplateExpr.Proofs.Token.Spelling
import TemplateExpr.Proofs.Tree.Attachment
import TemplateExpr.Proofs.Tree.Reading
import TemplateExpr.Proofs.Tree.Soundness

/-!
# What is derived is read

The parser takes the longest phrase that it can, so it reads a derived phrase back only where what
follows does not go on with it. Every nonterminal has its *continuations*, the symbols at which its
rule would read on (`Avoids`); a derivation of the nonterminal is read back in front of everything
that starts with none of them (`Phrase.ReadBack`).

Chains, postfixes and pipelines are derived left-recursively and read by a loop. For them the
statement is one about the loop: whatever the loop makes of the tree and the tokens behind it, the
rule makes of all the tokens.

For an assignment `=` is a continuation if it is open. This is the only place where the rule that an
`=` belongs to the innermost assignment is needed.
-/

namespace TemplateExpr

open Grammar Token

/-! ## How an expression begins -/

/-- The tokens begin with a word or a constant, or with one of the symbols `openers`. -/
def Begins (openers : List String) (ts : List Token) : Prop :=
  ∃ token rest, ts = token :: rest ∧ (token.kind = .symbol → token.text ∈ openers)

theorem Begins.append {openers : List String} {us : List Token} (h : Begins openers us)
    (vs : List Token) : Begins openers (us ++ vs) := by
  obtain ⟨token, rest, rfl, hopen⟩ := h
  exact ⟨token, rest ++ vs, rfl, hopen⟩

theorem Begins.mono {openers openers' : List String} {us : List Token} (h : Begins openers us)
    (hsub : ∀ text ∈ openers, text ∈ openers') : Begins openers' us := by
  obtain ⟨token, rest, rfl, hopen⟩ := h
  exact ⟨token, rest, rfl, fun hkind => hsub _ (hopen hkind)⟩

def operandOpeners : List String := ["(", "[", "\x7b"]

def openers : List String := operandOpeners ++ ["+", "-", "!"]

/-- How the tokens of a phrase begin; nothing is said of the phrases that may be empty. -/
def Phrase.Begins : Phrase → List Token → Prop
  | .pipeline _, ts | .assignment _ _, ts | .ternary _ _, ts | .chain _ _, ts | .tighter _ _, ts
  | .prefixed _, ts | .argumentList _, ts => TemplateExpr.Begins openers ts
  | .postfixed _, ts | .operand _, ts => TemplateExpr.Begins operandOpeners ts
  | .entry _ _, ts => TemplateExpr.Begins [] ts
  | _, _ => True

theorem Derives.begins {rule : Attachment} {phrase : Phrase} {ts : List Token}
    (h : Derives rule phrase ts) : phrase.Begins ts := by
  induction h with
  | @signed text _ _ _ p hop _ _ =>
    exact ⟨_, _, rfl, fun _ => List.mem_append_right _ (UnaryOp.mem_symbols hop)⟩
  | unprefixed _ ih => exact ih.mono (by decide)
  | constant | word | namedEntry | constantEntry => exact ⟨_, _, rfl, by simp⟩
  | bracketed | array | object => exact ⟨_, _, rfl, fun _ => by simp [operandOpeners]⟩
  | piped _ _ ih _ | assigned _ _ _ ih _ | chained _ _ _ ih _ | moreArguments _ _ ih _
  | member _ ih => exact ih.append _
  | conditional _ _ _ ih _ _ | index _ _ ih _ | call _ _ ih _ => exact (ih.append _).append _
  | unpiped _ ih | unassigned _ ih | unconditional _ ih | unchained _ ih | level _ _ ih
  | tightest _ _ ih | bare _ ih | lastArgument _ ih => exact ih
  | _ => exact trivial

/-! ## What may follow -/

def Avoids (texts : List String) (ts : List Token) : Prop :=
  ∀ text ∈ texts, startsWith text ts = false

theorem avoids_nil (texts : List String) : Avoids texts [] := fun _ _ => rfl

theorem avoids_cons {texts : List String} {token : Token} {ts : List Token} :
    Avoids texts (token :: ts) ↔ token.text ∉ texts := by
  constructor
  · intro h hmem
    simpa using h _ hmem
  · intro h text hmem
    rw [startsWith_cons, decide_eq_false_iff_not]
    rintro rfl
    exact h hmem

theorem avoids_singleton {text : String} {ts : List Token} :
    Avoids [text] ts ↔ startsWith text ts = false := by
  simp [Avoids]

theorem Avoids.mono {texts texts' : List String} {ts : List Token} (h : Avoids texts ts)
    (hsub : ∀ text ∈ texts', text ∈ texts) : Avoids texts' ts :=
  fun text hmem => h text (hsub text hmem)

theorem Begins.avoids {openers texts : List String} {us : List Token} (h : Begins openers us)
    (hus : AllDistinct us) (htexts : ∀ text ∈ texts, text ∈ symbolTexts ∧ text ∉ openers)
    (rest : List Token) : Avoids texts (us ++ rest) := by
  obtain ⟨token, us, rfl, hopen⟩ := h
  have hdistinct := hus token List.mem_cons_self
  rw [List.cons_append, avoids_cons]
  intro hmem
  obtain ⟨hsymbol, hno⟩ := htexts _ hmem
  -- A symbol would be an opener, and any other token is spelt unlike all symbols.
  by_cases hkind : token.kind = .symbol
  · exact hno (hopen hkind)
  · exact hdistinct hkind hsymbol

def postfixTexts : List String := ["(", "[", "."]

def Level.continuations (level : Level) : List String :=
  postfixTexts ++
    ([.or, .and, .equality, .relational, .additive, .multiplicative].filter
      fun other : Level => decide (other.rank < level.rank)).flatMap Level.symbols

/-- The continuations of an assignment or a conditional, which has to be open to take an `=`. -/
def assignmentTexts (opened : Bool) : List String :=
  "?" :: Level.or.symbols ++ Level.or.continuations ++ if opened then ["="] else []

def stageTexts : List String := ":" :: assignmentTexts true

theorem Level.continuations_tighter {level next : Level} (h : level.tighter? = some next) :
    ∀ text ∈ next.symbols ++ next.continuations, text ∈ level.continuations := by
  cases level <;> cases h <;> decide

theorem Level.postfixTexts_subset (level : Level) :
    ∀ text ∈ postfixTexts, text ∈ level.continuations :=
  fun _ hmem => List.mem_append_left _ hmem

theorem Level.not_mem_continuations {level : Level} {text : String} (h : text ∈ level.symbols) :
    text ∉ level.continuations := by
  revert text
  cases level <;> decide

theorem assignmentTexts_subset (opened : Bool) :
    ∀ text ∈ assignmentTexts opened, text ∈ assignmentTexts true := by
  cases opened <;> decide

/-! ## Where the loops stop -/

theorem infixOp?_eq_none {level : Level} {ts : List Token} (h : Avoids level.symbols ts) :
    infixOp? level ts = none := by
  cases ts with
  | nil => rfl
  | cons token ts =>
    rw [avoids_cons] at h
    have hnone : level.operator? token.text = none := if_neg h
    rw [infixOp?, hnone, Option.map_none]

theorem chainRest_stop {level : Level} {ts : List Token} (h : Avoids level.symbols ts)
    (tree : Node) : Reads (chainRest level tree ts) tree ts :=
  reads_chainRest.mpr (.inl ⟨infixOp?_eq_none h, rfl, rfl⟩)

theorem postfixes_stop {ts : List Token} (h : Avoids postfixTexts ts) (tree : Node) :
    Reads (postfixes tree ts) tree ts :=
  reads_postfixes.mpr
    (.inl ⟨h _ (by decide), h _ (by decide), h _ (by decide), rfl, rfl⟩)

theorem stages_stop {ts : List Token} (h : startsWith "|" ts = false) (tree : Node) :
    Reads (stages tree ts) tree ts :=
  reads_stages.mpr (.inl ⟨h, rfl, rfl⟩)

/-! ## Reading back -/

/-- The rule of a phrase reads the tokens of the phrase back, in front of everything that it does
not go on with. -/
def Phrase.ReadBack : Phrase → List Token → Prop
  | .program tree, us => Node.ofTokens us = .ok tree
  | .statements body, us => Reads (Grammar.statements us) body []
  | .statement body, us =>
    ∀ rest, (rest = [] ∨ ∃ after, Leads ";" rest after) →
      Reads (Grammar.statement? (us ++ rest)) body rest
  | .pipeline tree, us =>
    ∀ rest, Avoids stageTexts rest → ∀ tree' rest',
      Reads (Grammar.stages tree rest) tree' rest' →
        Reads (Grammar.pipeline (us ++ rest)) tree' rest'
  | .stageArguments given, us =>
    ∀ rest, Avoids stageTexts rest → Reads (Grammar.stageArguments (us ++ rest)) given rest
  | .assignment opened tree, us =>
    ∀ rest, Avoids (assignmentTexts opened) rest → Reads (Grammar.assignment (us ++ rest)) tree rest
  | .ternary opened tree, us =>
    ∀ rest, Avoids (assignmentTexts opened) rest → Reads (Grammar.ternary (us ++ rest)) tree rest
  | .chain level tree, us =>
    ∀ rest, Avoids level.continuations rest → ∀ tree' rest',
      Reads (Grammar.chainRest level tree rest) tree' rest' →
        Reads (Grammar.chain level (us ++ rest)) tree' rest'
  | .tighter level tree, us =>
    ∀ rest, Avoids level.continuations rest → Reads (Grammar.tighter level (us ++ rest)) tree rest
  | .prefixed tree, us =>
    ∀ rest, Avoids postfixTexts rest → Reads (Grammar.prefixed (us ++ rest)) tree rest
  | .postfixed tree, us =>
    ∀ rest tree' rest', Reads (Grammar.postfixes tree rest) tree' rest' →
      Reads (Grammar.postfixed (us ++ rest)) tree' rest'
  | .operand tree, us => ∀ rest, Reads (Grammar.operand (us ++ rest)) tree rest
  | .arguments given, us =>
    ∀ rest after, Leads ")" rest after → Reads (Grammar.arguments (us ++ rest)) given rest
  | .argumentList given, us =>
    ∀ rest after, Leads ")" rest after → Reads (Grammar.argumentList (us ++ rest)) given rest
  | .elements items, us =>
    ∀ rest after, Leads "]" rest after → Reads (Grammar.elements (us ++ rest)) items rest
  | .entry key value, us =>
    ∀ rest, Avoids (assignmentTexts true) rest → ∃ beforeColon afterColon,
      Reads (Grammar.propertyKey (us ++ rest)) key beforeColon ∧ Leads ":" beforeColon afterColon ∧
        Reads (Grammar.assignment afterColon) value rest
  | .entries fields, us =>
    ∀ rest after, Leads "\x7d" rest after → Reads (Grammar.entries (us ++ rest)) fields rest

theorem leads_symbol (text : String) (p : Nat) (rest : List Token) :
    Leads text (symbol text p :: rest) rest := ⟨_, rfl, rfl⟩

theorem avoids_symbol {texts : List String} {text : String} (h : text ∉ texts) (p : Nat)
    (rest : List Token) : Avoids texts (symbol text p :: rest) := avoids_cons.mpr h

theorem Avoids.of_leads {texts : List String} {text : String} {ts rest : List Token}
    (h : Leads text ts rest) (hno : text ∉ texts) : Avoids texts ts := by
  obtain ⟨token, rfl, rfl⟩ := h
  exact avoids_cons.mpr hno

/-! ## One step of each rule -/

section

variable {us vs ws : List Token} {p q : Nat}

theorem WordDenotes.wordTree_eq {text : String} {tree : Node} (h : WordDenotes text tree) :
    wordTree text = tree := by
  cases h with
  | null | true | false | this => rfl
  | name hname =>
    simp only [List.mem_cons, List.not_mem_nil, or_false, not_or] at hname
    obtain ⟨hnull, htrue, hfalse, hthis⟩ := hname
    simp [wordTree, *]

theorem readBack_atom {token : Token} {tree : Node} (hkind : token.kind ≠ .symbol)
    (hdistinct : AllDistinct [token]) (hatom : ∀ rest, Reads (atom (token :: rest)) tree rest) :
    (Phrase.operand tree).ReadBack [token] := by
  intro rest
  have hword : Begins [] [token] := ⟨token, [], rfl, fun h => absurd h hkind⟩
  have hopeners : Avoids operandOpeners (token :: rest) :=
    hword.avoids hdistinct (by decide) rest
  exact reads_operand.mpr (.inl ⟨hopeners _ (by decide), hopeners _ (by decide),
    hopeners _ (by decide), hatom rest⟩)

theorem readBack_pipeline {tree : Node} (h : (Phrase.pipeline tree).ReadBack us)
    {rest : List Token} (hrest : Avoids ("|" :: stageTexts) rest) :
    Reads (pipeline (us ++ rest)) tree rest :=
  h rest (hrest.mono fun _ => List.mem_cons_of_mem _) tree rest
    (stages_stop (hrest _ List.mem_cons_self) tree)

theorem readBack_bracketed {tree : Node} (h : (Phrase.pipeline tree).ReadBack us) :
    (Phrase.operand tree).ReadBack (symbol "(" p :: us ++ [symbol ")" q]) := by
  intro rest
  rw [List.append_assoc, List.cons_append]
  have hinner := readBack_pipeline h (.of_leads (leads_symbol ")" q rest) (by decide))
  exact reads_operand.mpr (.inr (.inl ⟨_, _, leads_symbol "(" p _, hinner, leads_symbol ")" q _⟩))

theorem readBack_array {items : List Node} (h : (Phrase.elements items).ReadBack us) :
    (Phrase.operand (.array false items)).ReadBack (symbol "[" p :: us ++ [symbol "]" q]) := by
  intro rest
  rw [List.append_assoc, List.cons_append]
  have hclose := leads_symbol "]" q rest
  exact reads_operand.mpr
    (.inr (.inr (.inl ⟨_, items, _, leads_symbol "[" p _, h _ _ hclose, hclose, rfl⟩)))

theorem readBack_object {fields : List (PropertyKey × Node)}
    (h : (Phrase.entries fields).ReadBack us) :
    (Phrase.operand (.object false fields)).ReadBack
      (symbol "\x7b" p :: us ++ [symbol "\x7d" q]) := by
  intro rest
  rw [List.append_assoc, List.cons_append]
  have hclose := leads_symbol "\x7d" q rest
  exact reads_operand.mpr
    (.inr (.inr (.inr ⟨_, fields, _, leads_symbol "\x7b" p _, h _ _ hclose, hclose, rfl⟩)))

theorem readBack_bare {tree : Node} (h : (Phrase.operand tree).ReadBack us) :
    (Phrase.postfixed tree).ReadBack us := by
  intro rest tree' rest' hrest
  exact reads_postfixed.mpr ⟨tree, rest, h rest, hrest⟩

theorem readBack_member {target : Node} {key : String} (h : (Phrase.postfixed target).ReadBack us) :
    (Phrase.postfixed (.member false target (.identifier false key) false)).ReadBack
      (us ++ [symbol "." p, word key q]) := by
  intro rest tree' rest' hrest
  have hname : Reads (name (word key q :: rest)) key rest := reads_name.mpr ⟨q, rfl⟩
  have hloop : Reads (postfixes target (symbol "." p :: word key q :: rest)) tree' rest' :=
    reads_postfixes.mpr (.inr (.inr (.inr ⟨_, key, rest, leads_symbol "." p _, hname, hrest⟩)))
  rw [List.append_assoc]
  exact h _ _ _ hloop

theorem readBack_index {target key : Node} (h : (Phrase.postfixed target).ReadBack us)
    (hkey : (Phrase.pipeline key).ReadBack vs) :
    (Phrase.postfixed (.member false target key true)).ReadBack
      (us ++ symbol "[" p :: vs ++ [symbol "]" q]) := by
  intro rest tree' rest' hrest
  have hclose := leads_symbol "]" q rest
  have hinner := readBack_pipeline hkey (.of_leads hclose (by decide))
  have hopen := leads_symbol "[" p (vs ++ symbol "]" q :: rest)
  have hloop := reads_postfixes.mpr
    (.inr (.inr (.inl ⟨_, key, _, rest, hopen, hinner, hclose, hrest⟩)))
  rw [List.append_assoc, List.append_assoc]
  exact h _ _ _ hloop

theorem readBack_call {callee : Node} {given : List Node}
    (h : (Phrase.postfixed callee).ReadBack us) (hgiven : (Phrase.arguments given).ReadBack vs) :
    (Phrase.postfixed (.call false callee given false)).ReadBack
      (us ++ symbol "(" p :: vs ++ [symbol ")" q]) := by
  intro rest tree' rest' hrest
  have hclose := leads_symbol ")" q rest
  have hinner := hgiven _ _ hclose
  have hopen := leads_symbol "(" p (vs ++ symbol ")" q :: rest)
  have hloop := reads_postfixes.mpr (.inr (.inl ⟨_, given, _, rest, hopen, hinner, hclose, hrest⟩))
  rw [List.append_assoc, List.append_assoc]
  exact h _ _ _ hloop

theorem prefixOp?_eq_none (h : Begins operandOpeners us) (hus : AllDistinct us)
    (rest : List Token) : prefixOp? (us ++ rest) = none := by
  have hfree : Avoids ["+", "-", "!"] (us ++ rest) := h.avoids hus (by decide) rest
  obtain ⟨token, us, rfl, -⟩ := h
  have hnone : UnaryOp.ofSymbol? token.text = none := by
    cases hop : UnaryOp.ofSymbol? token.text with
    | none => rfl
    | some op => simpa using hfree _ (UnaryOp.mem_symbols hop)
  simp [prefixOp?, hnone]

theorem readBack_unprefixed {tree : Node} (h : (Phrase.postfixed tree).ReadBack us)
    (hbegins : Begins operandOpeners us) (hus : AllDistinct us) :
    (Phrase.prefixed tree).ReadBack us := by
  intro rest hrest
  have hoperand := h rest tree rest (postfixes_stop hrest tree)
  exact reads_prefixed.mpr (.inl ⟨prefixOp?_eq_none hbegins hus rest, hoperand⟩)

theorem readBack_signed {text : String} {op : UnaryOp} {argument : Node}
    (hop : UnaryOp.ofSymbol? text = some op) (h : (Phrase.prefixed argument).ReadBack us) :
    (Phrase.prefixed (.unary false op argument)).ReadBack (symbol text p :: us) := by
  intro rest hrest
  refine reads_prefixed.mpr (.inr ⟨op, argument, us ++ rest, by simp, ?_, h rest hrest, rfl⟩)
  simp [prefixOp?, hop]

/-! ## Chains of operators -/

theorem readBack_unchained {level : Level} {tree : Node}
    (h : (Phrase.tighter level tree).ReadBack us) : (Phrase.chain level tree).ReadBack us := by
  intro rest hrest tree' rest' hloop
  exact reads_chain.mpr ⟨tree, rest, h rest hrest, hloop⟩

/-- The operator of a link is no continuation of the operands of its level, so the left side ends in
front of it, and the loop goes on with it. -/
theorem readBack_chained {level : Level} {left right : Node} {text : String} {op : InfixOp}
    (hleft : (Phrase.chain level left).ReadBack us) (hop : level.operator? text = some op)
    (hright : (Phrase.tighter level right).ReadBack vs) :
    (Phrase.chain level (op.apply left right)).ReadBack (us ++ symbol text p :: vs) := by
  intro rest hrest tree' rest' hloop
  -- Levels share no operator, so this one stops every tighter chain.
  have hstop : text ∉ level.continuations := Level.not_mem_continuations (Level.mem_symbols hop)
  rw [List.append_assoc, List.cons_append]
  refine hleft _ (avoids_symbol hstop p _) _ _ (reads_chainRest.mpr (.inr ?_))
  exact ⟨op, right, vs ++ rest, rest, by simp, by simp [infixOp?, hop], hright rest hrest, hloop⟩

theorem readBack_level {level next : Level} {tree : Node} (hnext : level.tighter? = some next)
    (h : (Phrase.chain next tree).ReadBack us) : (Phrase.tighter level tree).ReadBack us := by
  intro rest hrest
  have hall := hrest.mono (Level.continuations_tighter hnext)
  have hsymbols := hall.mono fun _ => List.mem_append_left next.continuations
  have hinner := hall.mono fun _ => List.mem_append_right next.symbols
  exact (reads_tighter_level hnext).mpr (h rest hinner tree rest (chainRest_stop hsymbols tree))

theorem readBack_tightest {level : Level} {tree : Node} (hnext : level.tighter? = none)
    (h : (Phrase.prefixed tree).ReadBack us) : (Phrase.tighter level tree).ReadBack us := by
  intro rest hrest
  exact (reads_tighter_prefixed hnext).mpr (h rest (hrest.mono level.postfixTexts_subset))

/-! ## Conditionals and assignments -/

theorem readBack_unconditional {tree : Node} (h : (Phrase.chain .or tree).ReadBack us) :
    (Phrase.ternary false tree).ReadBack us := by
  intro rest hrest
  have hsymbols : Avoids Level.or.symbols rest := hrest.mono (by decide)
  have hchain := h rest (hrest.mono (by decide)) tree rest (chainRest_stop hsymbols tree)
  exact reads_ternary.mpr ⟨tree, rest, hchain, .inl ⟨hrest _ (by decide), rfl, rfl⟩⟩

theorem readBack_conditional {openedInner opened : Bool} {test consequent alternate : Node}
    (htest : (Phrase.chain .or test).ReadBack us)
    (hconsequent : (Phrase.assignment openedInner consequent).ReadBack vs)
    (halternate : (Phrase.assignment opened alternate).ReadBack ws) :
    (Phrase.ternary opened (.conditional false test consequent alternate)).ReadBack
      (us ++ symbol "?" p :: vs ++ symbol ":" q :: ws) := by
  intro rest hrest
  -- No rule goes on with a colon, so it ends the consequent, open or not.
  have hcolon := leads_symbol ":" q (ws ++ rest)
  have hmark := leads_symbol "?" p (vs ++ symbol ":" q :: (ws ++ rest))
  have hinner := hconsequent _ (.of_leads hcolon (by cases openedInner <;> decide))
  have hchain := htest _ (.of_leads hmark (by decide)) test _
    (chainRest_stop (.of_leads hmark (by decide)) test)
  rw [List.append_assoc, List.append_assoc]
  refine reads_ternary.mpr ⟨test, _, hchain, .inr ?_⟩
  exact ⟨_, consequent, _, _, alternate, hmark, hinner, hcolon, halternate rest hrest, rfl⟩

theorem readBack_unassigned {opened : Bool} {tree : Node}
    (h : (Phrase.ternary opened tree).ReadBack us) : (Phrase.assignment true tree).ReadBack us := by
  intro rest hrest
  have hternary := h rest (hrest.mono (assignmentTexts_subset opened))
  exact reads_assignment.mpr ⟨tree, rest, hternary, .inl ⟨hrest _ (by decide), rfl, rfl⟩⟩

/-- The left side is closed, so it is read up to the `=`. -/
theorem readBack_assigned {opened : Bool} {left right : Node}
    (hleft : (Phrase.ternary false left).ReadBack us)
    (hright : (Phrase.ternary opened right).ReadBack vs) :
    (Phrase.assignment opened (.assignment false left right)).ReadBack
      (us ++ symbol "=" p :: vs) := by
  intro rest hrest
  have hsign := leads_symbol "=" p (vs ++ rest)
  have hternary := hleft _ (.of_leads hsign (by decide))
  rw [List.append_assoc]
  exact reads_assignment.mpr
    ⟨left, _, hternary, .inr ⟨_, right, hsign, hright rest hrest, rfl⟩⟩

/-! ## Pipelines -/

theorem readBack_unpiped {opened : Bool} {tree : Node}
    (h : (Phrase.assignment opened tree).ReadBack us) : (Phrase.pipeline tree).ReadBack us := by
  intro rest hrest tree' rest' hloop
  have hopen : Avoids (assignmentTexts true) rest := hrest.mono fun _ => List.mem_cons_of_mem _
  have hassignment := h rest (hopen.mono (assignmentTexts_subset opened))
  exact reads_pipeline.mpr ⟨tree, rest, hassignment, hloop⟩

theorem readBack_piped {input : Node} {filter : String} {given : List Node}
    (hinput : (Phrase.pipeline input).ReadBack us)
    (hgiven : (Phrase.stageArguments given).ReadBack vs) :
    (Phrase.pipeline (.call false (.identifier false filter) (input :: given) true)).ReadBack
      (us ++ symbol "|" p :: word filter q :: vs) := by
  intro rest hrest tree' rest' hloop
  have hbar := leads_symbol "|" p (word filter q :: (vs ++ rest))
  have hname : Reads (name (word filter q :: (vs ++ rest))) filter (vs ++ rest) :=
    reads_name.mpr ⟨q, rfl⟩
  have hstages := reads_stages.mpr
    (.inr ⟨_, filter, _, given, rest, hbar, hname, hgiven rest hrest, hloop⟩)
  rw [List.append_assoc]
  exact hinput _ (.of_leads hbar (by decide)) tree' rest' hstages

/-- Behind an argument of a filter stand the next one, which no argument goes on with, or what
stands behind all of them. -/
theorem avoids_stageArguments {rule : Attachment} {given : List Node}
    (h : Derives rule (.stageArguments given) us) {rest : List Token}
    (hrest : Avoids (assignmentTexts true) rest) : Avoids (assignmentTexts true) (us ++ rest) := by
  cases h with
  | noStageArgument => exact hrest
  | stageArgument _ _ => exact avoids_symbol (by decide) _ _

theorem readBack_noStageArgument : (Phrase.stageArguments []).ReadBack [] := by
  intro rest hrest
  exact reads_stageArguments.mpr (.inl ⟨hrest _ List.mem_cons_self, rfl, rfl⟩)

theorem readBack_stageArgument {opened : Bool} {argument : Node} {more : List Node}
    (hargument : (Phrase.assignment opened argument).ReadBack us)
    (hderives : Derives .innermost (.stageArguments more) vs)
    (hmore : (Phrase.stageArguments more).ReadBack vs) :
    (Phrase.stageArguments (argument :: more)).ReadBack (symbol ":" p :: us ++ vs) := by
  intro rest hrest
  have hopen : Avoids (assignmentTexts true) rest := hrest.mono fun _ => List.mem_cons_of_mem _
  have hfollow := avoids_stageArguments hderives hopen
  have hfirst := hargument _ (hfollow.mono (assignmentTexts_subset opened))
  rw [List.append_assoc]
  exact reads_stageArguments.mpr
    (.inr ⟨_, argument, _, more, leads_symbol ":" p _, hfirst, hmore rest hrest, rfl⟩)

/-! ## Lists in brackets -/

theorem readBack_noArgument : (Phrase.arguments []).ReadBack [] := by
  intro rest after hclose
  exact reads_arguments.mpr (.inl ⟨hclose.startsWith, rfl, rfl⟩)

theorem readBack_someArguments {given : List Node} (h : (Phrase.argumentList given).ReadBack us)
    (hbegins : Begins openers us) (hus : AllDistinct us) :
    (Phrase.arguments given).ReadBack us := by
  intro rest after hclose
  have hfirst : startsWith ")" (us ++ rest) = false :=
    avoids_singleton.mp (hbegins.avoids hus (by decide) rest)
  exact reads_arguments.mpr (.inr ⟨hfirst, h rest after hclose⟩)

theorem readBack_lastArgument {argument : Node} (h : (Phrase.pipeline argument).ReadBack us) :
    (Phrase.argumentList [argument]).ReadBack us := by
  intro rest after hclose
  have hargument := readBack_pipeline h (.of_leads hclose (by decide))
  have hcomma : startsWith "," rest = false :=
    avoids_singleton.mp (.of_leads hclose (by decide))
  exact reads_argumentList.mpr ⟨argument, rest, hargument, .inl ⟨hcomma, rfl, rfl⟩⟩

theorem readBack_moreArguments {argument : Node} {more : List Node}
    (h : (Phrase.pipeline argument).ReadBack us) (hmore : (Phrase.argumentList more).ReadBack vs) :
    (Phrase.argumentList (argument :: more)).ReadBack (us ++ symbol "," p :: vs) := by
  intro rest after hclose
  have hcomma := leads_symbol "," p (vs ++ rest)
  have hargument := readBack_pipeline h (.of_leads hcomma (by decide))
  rw [List.append_assoc]
  exact reads_argumentList.mpr
    ⟨argument, _, hargument, .inr ⟨_, more, hcomma, hmore rest after hclose, rfl⟩⟩

theorem readBack_noElement : (Phrase.elements []).ReadBack [] := by
  intro rest after hclose
  exact reads_elements.mpr (.inl ⟨hclose.startsWith, rfl, rfl⟩)

theorem readBack_lastElement {opened : Bool} {item : Node}
    (h : (Phrase.assignment opened item).ReadBack us) (hbegins : Begins openers us)
    (hus : AllDistinct us) : (Phrase.elements [item]).ReadBack us := by
  intro rest after hclose
  have hfirst : startsWith "]" (us ++ rest) = false :=
    avoids_singleton.mp (hbegins.avoids hus (by decide) rest)
  have hitem := h rest (.of_leads hclose (by cases opened <;> decide))
  have hcomma : startsWith "," rest = false :=
    avoids_singleton.mp (.of_leads hclose (by decide))
  exact reads_elements.mpr (.inr ⟨hfirst, item, rest, hitem, .inl ⟨hcomma, rfl, rfl⟩⟩)

theorem readBack_moreElements {opened : Bool} {item : Node} {more : List Node}
    (h : (Phrase.assignment opened item).ReadBack us) (hbegins : Begins openers us)
    (hus : AllDistinct us) (hmore : (Phrase.elements more).ReadBack vs) :
    (Phrase.elements (item :: more)).ReadBack (us ++ symbol "," p :: vs) := by
  intro rest after hclose
  have hcomma := leads_symbol "," p (vs ++ rest)
  have hitem := h _ (.of_leads hcomma (by cases opened <;> decide))
  have hfirst : startsWith "]" (us ++ symbol "," p :: (vs ++ rest)) = false :=
    avoids_singleton.mp (hbegins.avoids hus (by decide) _)
  rw [List.append_assoc]
  exact reads_elements.mpr
    (.inr ⟨hfirst, item, _, hitem, .inr ⟨_, more, hcomma, hmore rest after hclose, rfl⟩⟩)

theorem readBack_entry {opened : Bool} {value : Node} {first : Token} {key : PropertyKey}
    (h : (Phrase.assignment opened value).ReadBack us)
    (hkey : ∀ rest, Reads (propertyKey (first :: rest)) key rest) :
    (Phrase.entry key value).ReadBack (first :: symbol ":" q :: us) := by
  intro rest hrest
  have hvalue := h rest (hrest.mono (assignmentTexts_subset opened))
  exact ⟨_, _, hkey _, leads_symbol ":" q _, hvalue⟩

theorem readBack_noEntry : (Phrase.entries []).ReadBack [] := by
  intro rest after hclose
  exact reads_entries.mpr (.inl ⟨hclose.startsWith, rfl, rfl⟩)

theorem readBack_lastEntry {key : PropertyKey} {value : Node}
    (h : (Phrase.entry key value).ReadBack us) (hbegins : Begins [] us) (hus : AllDistinct us) :
    (Phrase.entries [(key, value)]).ReadBack us := by
  intro rest after hclose
  have hfirst : startsWith "\x7d" (us ++ rest) = false :=
    avoids_singleton.mp (hbegins.avoids hus (by decide) rest)
  have hcomma : startsWith "," rest = false :=
    avoids_singleton.mp (.of_leads hclose (by decide))
  obtain ⟨beforeColon, afterColon, hkey, hcolon, hvalue⟩ := h rest (.of_leads hclose (by decide))
  exact reads_entries.mpr (.inr ⟨hfirst, key, beforeColon, afterColon, value, rest, hkey, hcolon,
    hvalue, .inl ⟨hcomma, rfl, rfl⟩⟩)

theorem readBack_moreEntries {key : PropertyKey} {value : Node} {more : List (PropertyKey × Node)}
    (h : (Phrase.entry key value).ReadBack us) (hbegins : Begins [] us) (hus : AllDistinct us)
    (hmore : (Phrase.entries more).ReadBack vs) :
    (Phrase.entries ((key, value) :: more)).ReadBack (us ++ symbol "," p :: vs) := by
  intro rest after hclose
  have hcomma := leads_symbol "," p (vs ++ rest)
  have hfirst : startsWith "\x7d" (us ++ symbol "," p :: (vs ++ rest)) = false :=
    avoids_singleton.mp (hbegins.avoids hus (by decide) _)
  obtain ⟨beforeColon, afterColon, hkey, hcolon, hvalue⟩ := h _ (.of_leads hcomma (by decide))
  rw [List.append_assoc]
  exact reads_entries.mpr (.inr ⟨hfirst, key, beforeColon, afterColon, value, _, hkey, hcolon,
    hvalue, .inr ⟨_, more, hcomma, hmore rest after hclose, rfl⟩⟩)

/-! ## Statements -/

theorem readBack_noStatement : (Phrase.statement []).ReadBack [] := by
  intro rest hrest
  have hnone : startsNoStatement rest = true := by
    rcases hrest with rfl | ⟨after, hsemicolon⟩
    · rfl
    · simp [startsNoStatement, hsemicolon.startsWith]
  exact reads_statement?.mpr (.inl ⟨hnone, rfl, rfl⟩)

theorem readBack_oneStatement {tree : Node} (h : (Phrase.pipeline tree).ReadBack us)
    (hbegins : Begins openers us) (hus : AllDistinct us) :
    (Phrase.statement [tree]).ReadBack us := by
  intro rest hrest
  have hfirst : startsNoStatement (us ++ rest) = false := by
    have hclosers : Avoids ["\x7d", ")", ";", "]"] (us ++ rest) :=
      hbegins.avoids hus (by decide) rest
    obtain ⟨token, us, rfl, -⟩ := hbegins
    rw [startsNoStatement, Bool.or_eq_false_iff]
    refine ⟨rfl, List.any_eq_false.mpr fun text hmem => ?_⟩
    rw [hclosers text hmem]
    exact Bool.false_ne_true
  have hpipeline : Reads (pipeline (us ++ rest)) tree rest := by
    rcases hrest with rfl | ⟨after, hsemicolon⟩
    · exact readBack_pipeline h (avoids_nil _)
    · exact readBack_pipeline h (.of_leads hsemicolon (by decide))
  exact reads_statement?.mpr (.inr ⟨hfirst, tree, hpipeline, rfl⟩)

theorem readBack_lastStatement {body : List Node} (h : (Phrase.statement body).ReadBack us) :
    (Phrase.statements body).ReadBack us := by
  have hfirst := h [] (.inl rfl)
  rw [List.append_nil] at hfirst
  exact reads_statements.mpr ⟨body, [], hfirst, .inl ⟨rfl, rfl, rfl⟩⟩

theorem readBack_moreStatements {first more : List Node}
    (hfirst : (Phrase.statement first).ReadBack us) (hmore : (Phrase.statements more).ReadBack vs) :
    (Phrase.statements (first ++ more)).ReadBack (us ++ symbol ";" p :: vs) := by
  have hsemicolon := leads_symbol ";" p vs
  have hstatement := hfirst _ (.inr ⟨vs, hsemicolon⟩)
  exact reads_statements.mpr
    ⟨first, _, hstatement, .inr ⟨vs, more, hsemicolon, hmore, rfl⟩⟩

theorem readBack_program {body : List Node} (h : (Phrase.statements body).ReadBack us) :
    (Phrase.program (.program false body)).ReadBack us := by
  obtain ⟨fits, hbody⟩ := h
  show Node.ofTokens us = .ok (.program false body)
  rw [Node.ofTokens, hbody]

end

/-! ## Whole derivations -/

/-- **Completeness of the rules.** The tokens of a derived phrase are read back by its rule. -/
theorem Derives.readBack {phrase : Phrase} {us : List Token} (h : Derives .innermost phrase us)
    (hus : AllDistinct us) : phrase.ReadBack us := by
  induction h with
  | program _ ih => exact readBack_program (ih hus)
  | lastStatement _ ih => exact readBack_lastStatement (ih hus)
  | moreStatements _ _ ihf ihm =>
    obtain ⟨hfirst, hmore⟩ := hus.of_append
    exact readBack_moreStatements (ihf hfirst) (ihm hmore.tail)
  | noStatement => exact readBack_noStatement
  | oneStatement hderives ih => exact readBack_oneStatement (ih hus) hderives.begins hus
  | unpiped _ ih => exact readBack_unpiped (ih hus)
  | piped _ _ ihi iha =>
    obtain ⟨hinput, hstage⟩ := hus.of_append
    exact readBack_piped (ihi hinput) (iha hstage.tail.tail)
  | noStageArgument => exact readBack_noStageArgument
  | stageArgument _ hderives iha ihm =>
    obtain ⟨hargument, hmore⟩ := hus.of_append
    exact readBack_stageArgument (iha hargument.tail) hderives (ihm hmore)
  | unassigned _ ih => exact readBack_unassigned (ih hus)
  | assigned _ _ hclosed ihl ihr =>
    obtain ⟨hleft, hright⟩ := hus.of_append
    obtain rfl := hclosed rfl
    exact readBack_assigned (ihl hleft) (ihr hright.tail)
  | unconditional _ ih => exact readBack_unconditional (ih hus)
  | conditional _ _ _ iht ihc iha =>
    obtain ⟨hfront, halternate⟩ := hus.of_append
    obtain ⟨htest, hconsequent⟩ := hfront.of_append
    exact readBack_conditional (iht htest) (ihc hconsequent.tail) (iha halternate.tail)
  | unchained _ ih => exact readBack_unchained (ih hus)
  | chained _ hop _ ihl ihr =>
    obtain ⟨hleft, hright⟩ := hus.of_append
    exact readBack_chained (ihl hleft) hop (ihr hright.tail)
  | level hnext _ ih => exact readBack_level hnext (ih hus)
  | tightest hnext _ ih => exact readBack_tightest hnext (ih hus)
  | unprefixed hderives ih => exact readBack_unprefixed (ih hus) hderives.begins hus
  | signed hop _ ih => exact readBack_signed hop (ih hus.tail)
  | bare _ ih => exact readBack_bare (ih hus)
  | member _ ih => exact readBack_member (ih hus.of_append.1)
  | index _ _ iht ihk =>
    obtain ⟨htarget, hkey⟩ := hus.of_append.1.of_append
    exact readBack_index (iht htarget) (ihk hkey.tail)
  | call _ _ ihc ihg =>
    obtain ⟨hcallee, hgiven⟩ := hus.of_append.1.of_append
    exact readBack_call (ihc hcallee) (ihg hgiven.tail)
  | constant =>
    exact readBack_atom (by simp) hus fun _ => reads_atom.mpr (.inr ⟨_, _, _, rfl, rfl⟩)
  | word hword =>
    exact readBack_atom (by simp) hus fun _ =>
      reads_atom.mpr (.inl ⟨_, _, rfl, hword.wordTree_eq.symm⟩)
  | bracketed _ ih => exact readBack_bracketed (ih hus.of_append.1.tail)
  | array _ ih => exact readBack_array (ih hus.of_append.1.tail)
  | object _ ih => exact readBack_object (ih hus.of_append.1.tail)
  | noArgument => exact readBack_noArgument
  | someArguments hderives ih => exact readBack_someArguments (ih hus) hderives.begins hus
  | lastArgument _ ih => exact readBack_lastArgument (ih hus)
  | moreArguments _ _ iha ihm =>
    obtain ⟨hargument, hmore⟩ := hus.of_append
    exact readBack_moreArguments (iha hargument) (ihm hmore.tail)
  | noElement => exact readBack_noElement
  | lastElement hderives ih => exact readBack_lastElement (ih hus) hderives.begins hus
  | moreElements hderives _ ihi ihm =>
    obtain ⟨hitem, hmore⟩ := hus.of_append
    exact readBack_moreElements (ihi hitem) hderives.begins hitem (ihm hmore.tail)
  | namedEntry _ ih =>
    exact readBack_entry (ih hus.tail.tail) fun _ =>
      reads_propertyKey.mpr (.inl ⟨_, _, rfl, rfl⟩)
  | constantEntry _ ih =>
    exact readBack_entry (ih hus.tail.tail) fun _ =>
      reads_propertyKey.mpr (.inr ⟨_, _, _, rfl, rfl⟩)
  | noEntry => exact readBack_noEntry
  | lastEntry hderives ih => exact readBack_lastEntry (ih hus) hderives.begins hus
  | moreEntries hderives _ ihe ihm =>
    obtain ⟨hentry, hmore⟩ := hus.of_append
    exact readBack_moreEntries (ihe hentry) hderives.begins hentry (ihm hmore.tail)

/-- **Completeness of the parser.** Tokens that the grammar derives from a program are read as its
tree. -/
theorem Node.ofTokens_complete {ts : List Token} {tree : Node} (hts : AllDistinct ts)
    (h : Derives .innermost (.program tree) ts) : Node.ofTokens ts = .ok tree :=
  h.readBack hts

/-! ## The language of the parser -/

/-- **The parser accepts the grammar and nothing else.** For every source that splits into tokens,
the trees that it gives are those that the grammar derives with every `=` at the innermost
assignment that can take it, and it gives one whenever the ambiguous grammar derives the tokens in
any way. -/
theorem Node.ofTokens_iff_derives {source : String} {ts : List Token}
    (h : tokenize source = .ok ts) :
    (∀ tree, Node.ofTokens ts = .ok tree ↔ Derives .innermost (.program tree) ts) ∧
      ((∃ tree, Node.ofTokens ts = .ok tree) ↔ ∃ tree, Derives .either (.program tree) ts) := by
  have hts : AllDistinct ts := tokenize_distinct h
  have hiff : ∀ tree, Node.ofTokens ts = .ok tree ↔ Derives .innermost (.program tree) ts :=
    fun tree => ⟨Node.ofTokens_sound hts, Node.ofTokens_complete hts⟩
  refine ⟨hiff, ?_⟩
  constructor
  · rintro ⟨tree, hread⟩
    exact ⟨tree, ((hiff tree).mp hread).toEither⟩
  · rintro ⟨tree, hderives⟩
    obtain ⟨regrouped, hinnermost⟩ := hderives.regroup
    exact ⟨regrouped, (hiff regrouped).mpr hinnermost⟩

/-- In `a ? b : c = d` the `=` belongs to the alternate. -/
theorem Node.ofTokens_nested_assignment :
    tokenize "a ? b : c = d" = .ok
        [word "a" 0, symbol "?" 2, word "b" 4, symbol ":" 6, word "c" 8, symbol "=" 10,
          word "d" 12] ∧
      Derives .innermost
        (.program (.program false [.conditional false (.identifier false "a")
          (.identifier false "b")
          (.assignment false (.identifier false "c") (.identifier false "d"))]))
        [word "a" 0, symbol "?" 2, word "b" 4, symbol ":" 6, word "c" 8, symbol "=" 10,
          word "d" 12] := by
  have htokens : tokenize "a ? b : c = d" = .ok
      [word "a" 0, symbol "?" 2, word "b" 4, symbol ":" 6, word "c" 8, symbol "=" 10,
        word "d" 12] := by cbv
  exact ⟨htokens, ((ofTokens_iff_derives htokens).1 _).mp (by cbv)⟩

end TemplateExpr

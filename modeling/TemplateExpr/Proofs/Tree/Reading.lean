import TemplateExpr.Tree.Grammar

/-!
# What each rule of the parser reads

One equivalence for every rule: the rule reads a tree off the front of some tokens exactly when the
rules it calls read the parts. The results of rules carry bounds on what they leave; these are
dropped here (`Reads`), so that what follows speaks of trees and tokens only. Nothing after this
module opens a rule.
-/

namespace TemplateExpr

theorem Level.mem_symbols {level : Level} {text : String} {op : InfixOp}
    (h : level.operator? text = some op) : text ∈ level.symbols := by
  unfold Level.operator? at h
  split at h
  · assumption
  · cases h

theorem UnaryOp.mem_symbols {text : String} {op : UnaryOp} (h : UnaryOp.ofSymbol? text = some op) :
    text ∈ ["+", "-", "!"] := by
  unfold UnaryOp.ofSymbol? at h
  split at h
  · decide
  · decide
  · decide
  · cases h

namespace Grammar

/-- A rule reads `value` off the front of its tokens and leaves `rest`. -/
def Reads {α : Type} {bound : Nat} (parse : Parse α bound) (value : α) (rest : List Token) : Prop :=
  ∃ fits, parse = .ok ⟨value, rest, fits⟩

theorem Reads.length_lt {α : Type} {bound : Nat} {parse : Parse α bound} {value : α}
    {rest : List Token} (h : Reads parse value rest) : rest.length < bound := h.1

@[simp, grind =] theorem reads_ok {α : Type} {bound : Nat} {v value : α} {r rest : List Token}
    {fits : r.length < bound} :
    Reads (.ok ⟨v, r, fits⟩) value rest ↔ value = v ∧ rest = r := by
  constructor
  · rintro ⟨_, heq⟩
    cases heq
    exact ⟨rfl, rfl⟩
  · rintro ⟨rfl, rfl⟩
    exact ⟨fits, rfl⟩

@[grind →] theorem Reads.eq_ok {α : Type} {bound : Nat} {parse : Parse α bound} {value : α}
    {rest : List Token} (h : Reads parse value rest) :
    ∃ fits, parse = .ok ⟨value, rest, fits⟩ := h

/-! ## The first token -/

@[simp, grind =] theorem startsWith_nil (text : String) : startsWith text [] = false := rfl

@[simp, grind =] theorem startsWith_cons (text : String) (token : Token) (ts : List Token) :
    startsWith text (token :: ts) = decide (token.text = text) := by
  simp only [startsWith, accept?]
  split <;> simp [*]

@[grind =] theorem accept?_eq_none {text : String} {ts : List Token} :
    accept? text ts = none ↔ startsWith text ts = false := by
  simp [startsWith]

/-- The tokens `ts` are one with the given text and, behind it, `rest`. -/
def Leads (text : String) (ts rest : List Token) : Prop :=
  ∃ token, ts = token :: rest ∧ token.text = text

@[grind →] theorem Leads.startsWith {text : String} {ts rest : List Token}
    (h : Leads text ts rest) : startsWith text ts = true := by
  obtain ⟨token, rfl, htext⟩ := h
  simp [htext]

@[grind →] theorem Leads.unique {text text' : String} {ts rest rest' : List Token}
    (h : Leads text ts rest) (h' : Leads text' ts rest') : text = text' ∧ rest = rest' := by
  obtain ⟨token, rfl, htext⟩ := h
  obtain ⟨token', heq, htext'⟩ := h'
  cases heq
  exact ⟨htext.symm.trans htext', rfl⟩

@[grind →] theorem Leads.accept? {text : String} {ts rest : List Token} (h : Leads text ts rest) :
    ∃ token fits, accept? text ts = some ⟨token, rest, fits⟩ := by
  obtain ⟨token, rfl, htext⟩ := h
  exact ⟨token, by simp, by simp [Grammar.accept?, htext]⟩

@[grind →] theorem leads_of_accept? {text : String} {ts rest : List Token} {token : Token}
    {fits : rest.length < ts.length} (h : accept? text ts = some ⟨token, rest, fits⟩) :
    Leads text ts rest := by
  cases ts with
  | nil => simp [Grammar.accept?] at h
  | cons first ts =>
    simp only [Grammar.accept?] at h
    split at h
    · cases h
      exact ⟨token, rfl, by assumption⟩
    · cases h

@[grind →] theorem Leads.require {text : String} {ts rest : List Token} (h : Leads text ts rest) :
    ∃ token fits, require text ts = .ok ⟨token, rest, fits⟩ := by
  obtain ⟨token, fits, haccept⟩ := h.accept?
  exact ⟨token, fits, by rw [Grammar.require, haccept]⟩

@[grind →] theorem leads_of_require {text : String} {ts rest : List Token} {token : Token}
    {fits : rest.length < ts.length} (h : require text ts = .ok ⟨token, rest, fits⟩) :
    Leads text ts rest := by
  rw [Grammar.require] at h
  grind

/-! ## Single tokens -/

theorem reads_name {ts rest : List Token} {text : String} :
    Reads (name ts) text rest ↔ ∃ p, ts = ⟨text, .identifier, p⟩ :: rest := by
  cases ts with
  | nil => simp [Reads, name]
  | cons token ts =>
    obtain ⟨text', kind, p⟩ := token
    grind [name, Reads]

theorem reads_atom {ts rest : List Token} {tree : Node} :
    Reads (atom ts) tree rest ↔
      (∃ text p, ts = ⟨text, .identifier, p⟩ :: rest ∧ tree = wordTree text) ∨
      ∃ text value p, ts = ⟨text, .constant value, p⟩ :: rest ∧ tree = .literal false value := by
  cases ts with
  | nil => simp [Reads, atom]
  | cons token ts =>
    obtain ⟨text', kind, p⟩ := token
    cases kind <;> grind [atom, Reads]

theorem reads_propertyKey {ts rest : List Token} {key : PropertyKey} :
    Reads (propertyKey ts) key rest ↔
      (∃ text p, ts = ⟨text, .identifier, p⟩ :: rest ∧ key = .identifier text) ∨
      ∃ text value p, ts = ⟨text, .constant value, p⟩ :: rest ∧ key = .literal value := by
  cases ts with
  | nil => simp [Reads, propertyKey]
  | cons token ts =>
    obtain ⟨text', kind, p⟩ := token
    cases kind <;> grind [propertyKey, Reads]

/-! ## Pipelines and assignments -/

theorem reads_pipeline {ts rest : List Token} {tree : Node} :
    Reads (pipeline ts) tree rest ↔
      ∃ input mid, Reads (assignment ts) input mid ∧ Reads (stages input mid) tree rest := by
  rw [pipeline]
  grind

theorem reads_stages {ts rest : List Token} {input tree : Node} :
    Reads (stages input ts) tree rest ↔
      (startsWith "|" ts = false ∧ tree = input ∧ rest = ts) ∨
      ∃ afterBar filter afterName given afterArguments,
        Leads "|" ts afterBar ∧ Reads (name afterBar) filter afterName ∧
        Reads (stageArguments afterName) given afterArguments ∧
        Reads (stages (.call false (.identifier false filter) (input :: given) true)
          afterArguments) tree rest := by
  rw [stages]
  grind

theorem reads_stageArguments {ts rest : List Token} {given : List Node} :
    Reads (stageArguments ts) given rest ↔
      (startsWith ":" ts = false ∧ given = [] ∧ rest = ts) ∨
      ∃ afterColon argument afterArgument more,
        Leads ":" ts afterColon ∧ Reads (assignment afterColon) argument afterArgument ∧
        Reads (stageArguments afterArgument) more rest ∧ given = argument :: more := by
  rw [stageArguments]
  grind

theorem reads_assignment {ts rest : List Token} {tree : Node} :
    Reads (assignment ts) tree rest ↔
      ∃ left mid, Reads (ternary ts) left mid ∧
        ((startsWith "=" mid = false ∧ tree = left ∧ rest = mid) ∨
          ∃ afterSign right, Leads "=" mid afterSign ∧
            Reads (ternary afterSign) right rest ∧ tree = .assignment false left right) := by
  rw [assignment]
  grind

theorem reads_ternary {ts rest : List Token} {tree : Node} :
    Reads (ternary ts) tree rest ↔
      ∃ test mid, Reads (chain .or ts) test mid ∧
        ((startsWith "?" mid = false ∧ tree = test ∧ rest = mid) ∨
          ∃ afterMark consequent beforeColon afterColon alternate,
            Leads "?" mid afterMark ∧ Reads (assignment afterMark) consequent beforeColon ∧
            Leads ":" beforeColon afterColon ∧
            Reads (assignment afterColon) alternate rest ∧
            tree = .conditional false test consequent alternate) := by
  rw [ternary]
  constructor
  · intro h
    split at h
    · grind
    · split at h
      · grind
      · split at h <;> grind
  · rintro ⟨test, mid, htest, ⟨hno, rfl, rfl⟩ | ⟨afterMark, consequent, beforeColon, afterColon,
      alternate, hmark, hconsequent, hcolon, halternate, rfl⟩⟩
    · grind
    · grind

/-! ## Operators -/

theorem reads_chain {level : Level} {ts rest : List Token} {tree : Node} :
    Reads (chain level ts) tree rest ↔
      ∃ left mid, Reads (tighter level ts) left mid ∧
        Reads (chainRest level left mid) tree rest := by
  rw [chain]
  grind

theorem reads_tighter_level {level next : Level} (h : level.tighter? = some next)
    {ts rest : List Token} {tree : Node} :
    Reads (tighter level ts) tree rest ↔ Reads (chain next ts) tree rest := by
  rw [tighter]
  grind

theorem reads_tighter_prefixed {level : Level} (h : level.tighter? = none) {ts rest : List Token}
    {tree : Node} : Reads (tighter level ts) tree rest ↔ Reads (prefixed ts) tree rest := by
  rw [tighter]
  grind

theorem reads_chainRest {level : Level} {ts rest : List Token} {left tree : Node} :
    Reads (chainRest level left ts) tree rest ↔
      (infixOp? level ts = none ∧ tree = left ∧ rest = ts) ∨
      ∃ op right afterOp mid fits,
        infixOp? level ts = some ⟨op, afterOp, fits⟩ ∧ Reads (tighter level afterOp) right mid ∧
        Reads (chainRest level (op.apply left right) mid) tree rest := by
  rw [chainRest]
  grind

theorem reads_prefixed {ts rest : List Token} {tree : Node} :
    Reads (prefixed ts) tree rest ↔
      (prefixOp? ts = none ∧ Reads (postfixed ts) tree rest) ∨
      ∃ op argument afterOp fits,
        prefixOp? ts = some ⟨op, afterOp, fits⟩ ∧ Reads (prefixed afterOp) argument rest ∧
        tree = .unary false op argument := by
  rw [prefixed]
  grind

/-! ## Operands and what follows them -/

theorem reads_postfixed {ts rest : List Token} {tree : Node} :
    Reads (postfixed ts) tree rest ↔
      ∃ head mid, Reads (operand ts) head mid ∧ Reads (postfixes head mid) tree rest := by
  rw [postfixed]
  grind

theorem reads_postfixes {ts rest : List Token} {head tree : Node} :
    Reads (postfixes head ts) tree rest ↔
      (startsWith "(" ts = false ∧ startsWith "[" ts = false ∧ startsWith "." ts = false ∧
        tree = head ∧ rest = ts) ∨
      (∃ after given beforeClose mid, Leads "(" ts after ∧
        Reads (arguments after) given beforeClose ∧ Leads ")" beforeClose mid ∧
        Reads (postfixes (.call false head given false) mid) tree rest) ∨
      (∃ after key beforeClose mid, Leads "[" ts after ∧ Reads (pipeline after) key beforeClose ∧
        Leads "]" beforeClose mid ∧
        Reads (postfixes (.member false head key true) mid) tree rest) ∨
      ∃ after key mid, Leads "." ts after ∧ Reads (name after) key mid ∧
        Reads (postfixes (.member false head (.identifier false key) false) mid) tree rest := by
  rw [postfixes]
  constructor
  · intro h
    split at h
    · grind
    · split at h
      · grind
      · grind
  · rintro (⟨hparen, hbracket, hpoint, rfl, rfl⟩ |
      ⟨after, given, beforeClose, mid, hopen, hgiven, hclose, hrest⟩ |
      ⟨after, key, beforeClose, mid, hopen, hkey, hclose, hrest⟩ |
      ⟨after, key, mid, hpoint, hkey, hrest⟩)
    · grind
    · grind
    · grind
    · grind

theorem reads_operand {ts rest : List Token} {tree : Node} :
    Reads (operand ts) tree rest ↔
      (startsWith "(" ts = false ∧ startsWith "[" ts = false ∧ startsWith "\x7b" ts = false ∧
        Reads (atom ts) tree rest) ∨
      (∃ after beforeClose, Leads "(" ts after ∧ Reads (pipeline after) tree beforeClose ∧
        Leads ")" beforeClose rest) ∨
      (∃ after items beforeClose, Leads "[" ts after ∧ Reads (elements after) items beforeClose ∧
        Leads "]" beforeClose rest ∧ tree = .array false items) ∨
      ∃ after fields beforeClose, Leads "\x7b" ts after ∧
        Reads (entries after) fields beforeClose ∧ Leads "\x7d" beforeClose rest ∧
        tree = .object false fields := by
  rw [operand]
  constructor
  · intro h
    split at h
    · grind
    · split at h
      · grind
      · grind
  · rintro (⟨hparen, hbracket, hbrace, hatom⟩ | ⟨after, beforeClose, hopen, hinner, hclose⟩ |
      ⟨after, items, beforeClose, hopen, hitems, hclose, rfl⟩ |
      ⟨after, fields, beforeClose, hopen, hfields, hclose, rfl⟩)
    · grind
    · grind
    · grind
    · grind

/-! ## Lists in brackets -/

theorem reads_arguments {ts rest : List Token} {given : List Node} :
    Reads (arguments ts) given rest ↔
      (startsWith ")" ts = true ∧ given = [] ∧ rest = ts) ∨
      (startsWith ")" ts = false ∧ Reads (argumentList ts) given rest) := by
  rw [arguments]
  grind

theorem reads_argumentList {ts rest : List Token} {given : List Node} :
    Reads (argumentList ts) given rest ↔
      ∃ argument mid, Reads (pipeline ts) argument mid ∧
        ((startsWith "," mid = false ∧ given = [argument] ∧ rest = mid) ∨
          ∃ after more, Leads "," mid after ∧ Reads (argumentList after) more rest ∧
            given = argument :: more) := by
  rw [argumentList]
  grind

theorem reads_elements {ts rest : List Token} {items : List Node} :
    Reads (elements ts) items rest ↔
      (startsWith "]" ts = true ∧ items = [] ∧ rest = ts) ∨
      (startsWith "]" ts = false ∧ ∃ item mid, Reads (assignment ts) item mid ∧
        ((startsWith "," mid = false ∧ items = [item] ∧ rest = mid) ∨
          ∃ after more, Leads "," mid after ∧ Reads (elements after) more rest ∧
            items = item :: more)) := by
  rw [elements]
  grind

theorem reads_entries {ts rest : List Token} {fields : List (PropertyKey × Node)} :
    Reads (entries ts) fields rest ↔
      (startsWith "\x7d" ts = true ∧ fields = [] ∧ rest = ts) ∨
      (startsWith "\x7d" ts = false ∧ ∃ key beforeColon afterColon value mid,
        Reads (propertyKey ts) key beforeColon ∧ Leads ":" beforeColon afterColon ∧
        Reads (assignment afterColon) value mid ∧
        ((startsWith "," mid = false ∧ fields = [(key, value)] ∧ rest = mid) ∨
          ∃ after more, Leads "," mid after ∧ Reads (entries after) more rest ∧
            fields = (key, value) :: more)) := by
  rw [entries]
  constructor
  · intro h
    split at h
    · grind
    · split at h
      · grind
      · split at h <;> grind
  · grind

/-! ## Statements -/

theorem reads_statement? {ts rest : List Token} {body : List Node} :
    Reads (statement? ts) body rest ↔
      (startsNoStatement ts = true ∧ body = [] ∧ rest = ts) ∨
      (startsNoStatement ts = false ∧ ∃ tree, Reads (pipeline ts) tree rest ∧ body = [tree]) := by
  rw [statement?]
  grind

theorem reads_statements {ts rest : List Token} {body : List Node} :
    Reads (statements ts) body rest ↔
      ∃ first mid, Reads (statement? ts) first mid ∧
        ((startsWith ";" mid = false ∧ body = first ∧ rest = mid) ∨
          ∃ after more, Leads ";" mid after ∧ Reads (statements after) more rest ∧
            body = first ++ more) := by
  rw [statements]
  grind

end Grammar

end TemplateExpr

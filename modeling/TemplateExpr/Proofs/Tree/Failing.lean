import TemplateExpr.Proofs.Tree.Reading

/-!
# Where each rule of the parser fails

The counterpart of `Tree.Reading`: one equivalence for every rule, which says in which of the rules
that it calls, and behind which parts, a rule fails. It fails with the error of the rule it calls.
-/

namespace TemplateExpr

namespace Grammar

variable {ts : List Token} {fault : ParseError}

/-- That a rule fails, or the symbol that has to close what it reads is not there. -/
def FailsClosed {α : Type} {bound : List Token → Nat}
    (rule : (ts : List Token) → Parse α (bound ts)) (close : String) (ts : List Token)
    (fault : ParseError) : Prop :=
  rule ts = .error fault ∨
    ∃ value beforeClose, Reads (rule ts) value beforeClose ∧
      require close beforeClose = .error fault

/-! ## Pipelines and assignments -/

theorem fails_pipeline :
    pipeline ts = .error fault ↔
      assignment ts = .error fault ∨
      ∃ input mid, Reads (assignment ts) input mid ∧ stages input mid = .error fault := by
  rw [pipeline]
  simp only [Reads]
  grind

theorem fails_stages {input : Node} :
    stages input ts = .error fault ↔
      (∃ afterBar, Leads "|" ts afterBar ∧ name afterBar = .error fault) ∨
      (∃ afterBar filter afterName, Leads "|" ts afterBar ∧
        Reads (name afterBar) filter afterName ∧ stageArguments afterName = .error fault) ∨
      ∃ afterBar filter afterName given mid, Leads "|" ts afterBar ∧
        Reads (name afterBar) filter afterName ∧ Reads (stageArguments afterName) given mid ∧
        stages (.call false (.identifier false filter) (input :: given) true) mid =
          .error fault := by
  rw [stages]
  simp only [Reads]
  grind

theorem fails_stageArguments :
    stageArguments ts = .error fault ↔
      (∃ afterColon, Leads ":" ts afterColon ∧ assignment afterColon = .error fault) ∨
      ∃ afterColon argument mid, Leads ":" ts afterColon ∧
        Reads (assignment afterColon) argument mid ∧ stageArguments mid = .error fault := by
  rw [stageArguments]
  simp only [Reads]
  grind

theorem fails_assignment :
    assignment ts = .error fault ↔
      ternary ts = .error fault ∨
      ∃ left mid afterSign, Reads (ternary ts) left mid ∧ Leads "=" mid afterSign ∧
        ternary afterSign = .error fault := by
  rw [assignment]
  simp only [Reads]
  grind

theorem fails_ternary :
    ternary ts = .error fault ↔
      chain .or ts = .error fault ∨
      (∃ test mid afterMark, Reads (chain .or ts) test mid ∧ Leads "?" mid afterMark ∧
        assignment afterMark = .error fault) ∨
      (∃ test mid afterMark consequent beforeColon, Reads (chain .or ts) test mid ∧
        Leads "?" mid afterMark ∧ Reads (assignment afterMark) consequent beforeColon ∧
        require ":" beforeColon = .error fault) ∨
      ∃ test mid afterMark consequent beforeColon afterColon, Reads (chain .or ts) test mid ∧
        Leads "?" mid afterMark ∧ Reads (assignment afterMark) consequent beforeColon ∧
        Leads ":" beforeColon afterColon ∧ assignment afterColon = .error fault := by
  rw [ternary]
  simp only [Reads]
  constructor
  · intro h
    split at h
    · grind
    · split at h
      · grind
      · split at h <;> grind
  · rintro (h | h | h | h) <;> grind

/-! ## Operators -/

theorem fails_chain {level : Level} :
    chain level ts = .error fault ↔
      tighter level ts = .error fault ∨
      ∃ left mid, Reads (tighter level ts) left mid ∧ chainRest level left mid = .error fault := by
  rw [chain]
  simp only [Reads]
  grind

theorem fails_tighter_level {level next : Level} (h : level.tighter? = some next) :
    tighter level ts = .error fault ↔ chain next ts = .error fault := by
  rw [tighter]
  grind

theorem fails_tighter_prefixed {level : Level} (h : level.tighter? = none) :
    tighter level ts = .error fault ↔ prefixed ts = .error fault := by
  rw [tighter]
  grind

theorem fails_chainRest {level : Level} {left : Node} :
    chainRest level left ts = .error fault ↔
      (∃ op afterOp fits, infixOp? level ts = some ⟨op, afterOp, fits⟩ ∧
        tighter level afterOp = .error fault) ∨
      ∃ op afterOp fits right mid, infixOp? level ts = some ⟨op, afterOp, fits⟩ ∧
        Reads (tighter level afterOp) right mid ∧
        chainRest level (op.apply left right) mid = .error fault := by
  rw [chainRest]
  simp only [Reads]
  grind

theorem fails_prefixed :
    prefixed ts = .error fault ↔
      (prefixOp? ts = none ∧ postfixed ts = .error fault) ∨
      ∃ op afterOp fits, prefixOp? ts = some ⟨op, afterOp, fits⟩ ∧
        prefixed afterOp = .error fault := by
  rw [prefixed]
  grind

/-! ## Operands and what follows them -/

theorem fails_postfixed :
    postfixed ts = .error fault ↔
      operand ts = .error fault ∨
      ∃ head mid, Reads (operand ts) head mid ∧ postfixes head mid = .error fault := by
  rw [postfixed]
  simp only [Reads]
  grind

theorem fails_postfixes {head : Node} :
    postfixes head ts = .error fault ↔
      ((∃ after, Leads "(" ts after ∧ FailsClosed arguments ")" after fault) ∨
        ∃ after given beforeClose mid, Leads "(" ts after ∧
          Reads (arguments after) given beforeClose ∧ Leads ")" beforeClose mid ∧
          postfixes (.call false head given false) mid = .error fault) ∨
      ((∃ after, Leads "[" ts after ∧ FailsClosed pipeline "]" after fault) ∨
        ∃ after key beforeClose mid, Leads "[" ts after ∧
          Reads (pipeline after) key beforeClose ∧ Leads "]" beforeClose mid ∧
          postfixes (.member false head key true) mid = .error fault) ∨
      (∃ after, Leads "." ts after ∧ name after = .error fault) ∨
      ∃ after key mid, Leads "." ts after ∧ Reads (name after) key mid ∧
        postfixes (.member false head (.identifier false key) false) mid = .error fault := by
  rw [postfixes]
  simp only [Reads, FailsClosed]
  constructor
  · intro h
    split at h
    · exact .inl (by grind)
    · split at h
      · exact .inr (.inl (by grind))
      · exact .inr (.inr (by grind))
  · rintro ((⟨after, hopen, h | h⟩ | h) | (⟨after, hopen, h | h⟩ | h) | h | h) <;> grind

theorem fails_operand :
    operand ts = .error fault ↔
      (startsWith "(" ts = false ∧ startsWith "[" ts = false ∧ startsWith "\x7b" ts = false ∧
        atom ts = .error fault) ∨
      (∃ after, Leads "(" ts after ∧ FailsClosed pipeline ")" after fault) ∨
      (∃ after, Leads "[" ts after ∧ FailsClosed elements "]" after fault) ∨
      ∃ after, Leads "\x7b" ts after ∧ FailsClosed entries "\x7d" after fault := by
  rw [operand]
  simp only [Reads, FailsClosed]
  constructor
  · intro h
    split at h
    · exact .inr (.inl (by grind))
    · split at h
      · exact .inr (.inr (.inl (by grind)))
      · grind
  · rintro (h | ⟨after, hopen, h | h⟩ | ⟨after, hopen, h | h⟩ | ⟨after, hopen, h | h⟩) <;> grind

/-! ## Lists in brackets -/

theorem fails_arguments :
    arguments ts = .error fault ↔
      startsWith ")" ts = false ∧ argumentList ts = .error fault := by
  rw [arguments]
  grind

theorem fails_argumentList :
    argumentList ts = .error fault ↔
      pipeline ts = .error fault ∨
      ∃ argument mid after, Reads (pipeline ts) argument mid ∧ Leads "," mid after ∧
        argumentList after = .error fault := by
  rw [argumentList]
  simp only [Reads]
  grind

theorem fails_elements :
    elements ts = .error fault ↔
      startsWith "]" ts = false ∧ (assignment ts = .error fault ∨
        ∃ item mid after, Reads (assignment ts) item mid ∧ Leads "," mid after ∧
          elements after = .error fault) := by
  rw [elements]
  simp only [Reads]
  grind

theorem fails_entries :
    entries ts = .error fault ↔
      startsWith "\x7d" ts = false ∧ (propertyKey ts = .error fault ∨
        (∃ key beforeColon, Reads (propertyKey ts) key beforeColon ∧
          require ":" beforeColon = .error fault) ∨
        (∃ key beforeColon afterColon, Reads (propertyKey ts) key beforeColon ∧
          Leads ":" beforeColon afterColon ∧ assignment afterColon = .error fault) ∨
        ∃ key beforeColon afterColon value mid after, Reads (propertyKey ts) key beforeColon ∧
          Leads ":" beforeColon afterColon ∧ Reads (assignment afterColon) value mid ∧
          Leads "," mid after ∧ entries after = .error fault) := by
  rw [entries]
  simp only [Reads]
  constructor
  · intro h
    split at h
    · grind
    · split at h
      · grind
      · split at h <;> grind
  · rintro ⟨hno, h | h | h | h⟩ <;> grind

/-! ## Statements -/

theorem fails_statement? :
    statement? ts = .error fault ↔
      startsNoStatement ts = false ∧ pipeline ts = .error fault := by
  rw [statement?]
  grind

theorem fails_statements :
    statements ts = .error fault ↔
      statement? ts = .error fault ∨
      ∃ first mid after, Reads (statement? ts) first mid ∧ Leads ";" mid after ∧
        statements after = .error fault := by
  rw [statements]
  simp only [Reads]
  grind

end Grammar

end TemplateExpr

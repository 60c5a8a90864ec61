import TemplateExpr.Tree.Precedence

/-!
# The grammar of expressions

The grammar as a relation between phrases and the tokens they are derived from, with no parser in
it. A phrase carries the tree that the grammar builds for it.

    program    := pipeline? (';' pipeline?)*
    pipeline   := assignment ('|' NAME (':' assignment)*)*
    assignment := ternary ('=' ternary)?
    ternary    := or ('?' assignment ':' assignment)?
    or, and, equality, relational, additive, multiplicative
               := left-associative chains of the next tighter level
    prefixed   := ('+' | '-' | '!') prefixed | postfixed
    postfixed  := operand ('.' NAME | '[' pipeline ']' | '(' arguments ')')*
    operand    := CONSTANT | null | true | false | this | NAME | '(' pipeline ')'
                | '[' elements ']' | '{' entries '}'
    arguments  := (pipeline (',' pipeline)*)?
    elements   := (assignment (',' assignment)* ','?)?
    entries    := (entry (',' entry)* ','?)?      entry := (NAME | CONSTANT) ':' assignment

Chains and postfixes are derived left-recursively here, which is what makes them associate to the
left.

The grammar is ambiguous in one place. In `a ? b : c = d` the `=` can belong to the alternate,
`a ? b : (c = d)`, or to the whole, `(a ? b : c) = d`. `Attachment` says which derivations are
meant. The rule that an `=` belongs to the innermost assignment is kept by *openness*: a phrase is
open when an assignment without `=` stands at its end, so that a following `=` could belong there.
Then only a closed phrase may stand to the left of an `=`.
-/

namespace TemplateExpr

/-! ## Tokens as terminals -/

namespace Token

abbrev symbol (text : String) (position : Nat) : Token := ⟨text, .symbol, position⟩

/-- A name, or one of the words `null`, `true`, `false` and `this`. -/
abbrev word (text : String) (position : Nat) : Token := ⟨text, .identifier, position⟩

abbrev literal (text : String) (value : Literal) (position : Nat) : Token :=
  ⟨text, .constant value, position⟩

end Token

/-! ## Phrases -/

/-- To which assignment an `=` belongs that two nested ones could take. -/
inductive Attachment where
  /-- To the inner one. -/
  | innermost
  /-- To either; this is the ambiguous grammar. -/
  | either
deriving DecidableEq

/-- A nonterminal of the grammar with what it stands for. -/
inductive Phrase where
  | program (tree : Node)
  | statements (body : List Node)
  | statement (body : List Node)
  | pipeline (tree : Node)
  | stageArguments (arguments : List Node)
  | assignment (opened : Bool) (tree : Node)
  | ternary (opened : Bool) (tree : Node)
  | chain (level : Level) (tree : Node)
  | tighter (level : Level) (tree : Node)
  | prefixed (tree : Node)
  | postfixed (tree : Node)
  | operand (tree : Node)
  | arguments (given : List Node)
  | argumentList (given : List Node)
  | elements (items : List Node)
  | entry (key : PropertyKey) (value : Node)
  | entries (fields : List (PropertyKey × Node))

/-- The tree of a word in the place of an operand: four words are literals or `this`, and every
other one is a name. -/
inductive WordDenotes : String → Node → Prop where
  | null : WordDenotes "null" (.literal false .null)
  | true : WordDenotes "true" (.literal false (.boolean true))
  | false : WordDenotes "false" (.literal false (.boolean false))
  | this : WordDenotes "this" (.this false)
  | name {name : String} (h : name ∉ ["null", "true", "false", "this"]) :
      WordDenotes name (.identifier false name)

/-! ## Derivations -/

open Token in
/-- `Derives rule phrase ts`: the grammar derives the tokens `ts`, all of them, from `phrase`. -/
inductive Derives (rule : Attachment) : Phrase → List Token → Prop where
  | program {body ts} :
      Derives rule (.statements body) ts → Derives rule (.program (.program false body)) ts
  | lastStatement {body ts} :
      Derives rule (.statement body) ts → Derives rule (.statements body) ts
  | moreStatements {first more us vs p} :
      Derives rule (.statement first) us → Derives rule (.statements more) vs →
        Derives rule (.statements (first ++ more)) (us ++ symbol ";" p :: vs)
  | noStatement : Derives rule (.statement []) []
  | oneStatement {tree ts} : Derives rule (.pipeline tree) ts → Derives rule (.statement [tree]) ts
  | unpiped {opened tree ts} :
      Derives rule (.assignment opened tree) ts → Derives rule (.pipeline tree) ts
  | piped {input filter arguments us vs p q} :
      Derives rule (.pipeline input) us → Derives rule (.stageArguments arguments) vs →
        Derives rule
          (.pipeline (.call false (.identifier false filter) (input :: arguments) true))
          (us ++ symbol "|" p :: word filter q :: vs)
  | noStageArgument : Derives rule (.stageArguments []) []
  | stageArgument {opened argument more us vs p} :
      Derives rule (.assignment opened argument) us → Derives rule (.stageArguments more) vs →
        Derives rule (.stageArguments (argument :: more)) (symbol ":" p :: us ++ vs)
  /-- An assignment without `=` is open, whatever it ends with. -/
  | unassigned {opened tree ts} :
      Derives rule (.ternary opened tree) ts → Derives rule (.assignment true tree) ts
  /-- What stands to the left of `=` is closed, if an `=` is to belong to the innermost. -/
  | assigned {openedLeft opened left right us vs p} :
      Derives rule (.ternary openedLeft left) us → Derives rule (.ternary opened right) vs →
        (rule = .innermost → openedLeft = false) →
        Derives rule (.assignment opened (.assignment false left right))
          (us ++ symbol "=" p :: vs)
  | unconditional {tree ts} :
      Derives rule (.chain .or tree) ts → Derives rule (.ternary false tree) ts
  | conditional {openedInner opened test consequent alternate us vs ws p q} :
      Derives rule (.chain .or test) us → Derives rule (.assignment openedInner consequent) vs →
        Derives rule (.assignment opened alternate) ws →
        Derives rule (.ternary opened (.conditional false test consequent alternate))
          (us ++ symbol "?" p :: vs ++ symbol ":" q :: ws)
  | unchained {level tree ts} :
      Derives rule (.tighter level tree) ts → Derives rule (.chain level tree) ts
  | chained {level : Level} {left right us vs text op p} :
      Derives rule (.chain level left) us → level.operator? text = some op →
        Derives rule (.tighter level right) vs →
        Derives rule (.chain level (op.apply left right)) (us ++ symbol text p :: vs)
  | level {level next : Level} {tree ts} :
      level.tighter? = some next → Derives rule (.chain next tree) ts →
        Derives rule (.tighter level tree) ts
  | tightest {level : Level} {tree ts} :
      level.tighter? = none → Derives rule (.prefixed tree) ts →
        Derives rule (.tighter level tree) ts
  | unprefixed {tree ts} : Derives rule (.postfixed tree) ts → Derives rule (.prefixed tree) ts
  | signed {text op argument us p} :
      UnaryOp.ofSymbol? text = some op → Derives rule (.prefixed argument) us →
        Derives rule (.prefixed (.unary false op argument)) (symbol text p :: us)
  | bare {tree ts} : Derives rule (.operand tree) ts → Derives rule (.postfixed tree) ts
  | member {target key us p q} :
      Derives rule (.postfixed target) us →
        Derives rule (.postfixed (.member false target (.identifier false key) false))
          (us ++ [symbol "." p, word key q])
  | index {target key us vs p q} :
      Derives rule (.postfixed target) us → Derives rule (.pipeline key) vs →
        Derives rule (.postfixed (.member false target key true))
          (us ++ symbol "[" p :: vs ++ [symbol "]" q])
  | call {callee given us vs p q} :
      Derives rule (.postfixed callee) us → Derives rule (.arguments given) vs →
        Derives rule (.postfixed (.call false callee given false))
          (us ++ symbol "(" p :: vs ++ [symbol ")" q])
  | constant {text value p} :
      Derives rule (.operand (.literal false value)) [literal text value p]
  | word {text tree p} : WordDenotes text tree → Derives rule (.operand tree) [word text p]
  | bracketed {tree us p q} :
      Derives rule (.pipeline tree) us →
        Derives rule (.operand tree) (symbol "(" p :: us ++ [symbol ")" q])
  | array {items us p q} :
      Derives rule (.elements items) us →
        Derives rule (.operand (.array false items)) (symbol "[" p :: us ++ [symbol "]" q])
  | object {fields us p q} :
      Derives rule (.entries fields) us →
        Derives rule (.operand (.object false fields))
          (symbol "\x7b" p :: us ++ [symbol "\x7d" q])
  | noArgument : Derives rule (.arguments []) []
  | someArguments {given ts} :
      Derives rule (.argumentList given) ts → Derives rule (.arguments given) ts
  | lastArgument {argument ts} :
      Derives rule (.pipeline argument) ts → Derives rule (.argumentList [argument]) ts
  | moreArguments {argument more us vs p} :
      Derives rule (.pipeline argument) us → Derives rule (.argumentList more) vs →
        Derives rule (.argumentList (argument :: more)) (us ++ symbol "," p :: vs)
  | noElement : Derives rule (.elements []) []
  | lastElement {opened item ts} :
      Derives rule (.assignment opened item) ts → Derives rule (.elements [item]) ts
  /-- With no more items behind it, the comma is the one that may follow the last. -/
  | moreElements {opened item more us vs p} :
      Derives rule (.assignment opened item) us → Derives rule (.elements more) vs →
        Derives rule (.elements (item :: more)) (us ++ symbol "," p :: vs)
  | namedEntry {opened name value us p q} :
      Derives rule (.assignment opened value) us →
        Derives rule (.entry (.identifier name) value) (word name p :: symbol ":" q :: us)
  | constantEntry {opened text key value us p q} :
      Derives rule (.assignment opened value) us →
        Derives rule (.entry (.literal key) value) (literal text key p :: symbol ":" q :: us)
  | noEntry : Derives rule (.entries []) []
  | lastEntry {key value ts} :
      Derives rule (.entry key value) ts → Derives rule (.entries [(key, value)]) ts
  | moreEntries {key value more us vs p} :
      Derives rule (.entry key value) us → Derives rule (.entries more) vs →
        Derives rule (.entries ((key, value) :: more)) (us ++ symbol "," p :: vs)

namespace Derives

variable {rule : Attachment} {tree : Node} {ts : List Token}

theorem chain_climb {level next : Level} (hnext : level.tighter? = some next)
    (h : Derives rule (.chain next tree) ts) : Derives rule (.chain level tree) ts :=
  .unchained (.level hnext h)

theorem chain_or {level : Level} (h : Derives rule (.chain level tree) ts) :
    Derives rule (.chain .or tree) ts := by
  -- One step for every level that is looser.
  cases level with
  | or => exact h
  | and => exact chain_climb rfl h
  | equality => exact chain_climb rfl (chain_climb rfl h)
  | relational => exact chain_climb rfl (chain_climb rfl (chain_climb rfl h))
  | additive => exact chain_climb rfl (chain_climb rfl (chain_climb rfl (chain_climb rfl h)))
  | multiplicative =>
    exact chain_climb rfl
      (chain_climb rfl (chain_climb rfl (chain_climb rfl (chain_climb rfl h))))

theorem tighter_of_prefixed (level : Level) (h : Derives rule (.prefixed tree) ts) :
    Derives rule (.tighter level tree) ts := by
  have hmultiplicative : Derives rule (.tighter .multiplicative tree) ts := .tightest rfl h
  have hadditive : Derives rule (.tighter .additive tree) ts :=
    .level rfl (.unchained hmultiplicative)
  have hrelational : Derives rule (.tighter .relational tree) ts :=
    .level rfl (.unchained hadditive)
  have hequality : Derives rule (.tighter .equality tree) ts := .level rfl (.unchained hrelational)
  have hand : Derives rule (.tighter .and tree) ts := .level rfl (.unchained hequality)
  cases level with
  | or => exact .level rfl (.unchained hand)
  | and => exact hand
  | equality => exact hequality
  | relational => exact hrelational
  | additive => exact hadditive
  | multiplicative => exact hmultiplicative

theorem assignment_of_prefixed (h : Derives rule (.prefixed tree) ts) :
    Derives rule (.assignment true tree) ts :=
  .unassigned (.unconditional (.unchained (h.tighter_of_prefixed .or)))

theorem pipeline_of_chain {level : Level} (h : Derives rule (.chain level tree) ts) :
    Derives rule (.pipeline tree) ts :=
  .unpiped (.unassigned (.unconditional h.chain_or))

theorem pipeline_of_prefixed (h : Derives rule (.prefixed tree) ts) :
    Derives rule (.pipeline tree) ts :=
  .unpiped h.assignment_of_prefixed

theorem prefixed_of_operand (h : Derives rule (.operand tree) ts) :
    Derives rule (.prefixed tree) ts :=
  .unprefixed (.bare h)

/-! An operand can stand anywhere. -/

theorem tighter_of_operand (level : Level) (h : Derives rule (.operand tree) ts) :
    Derives rule (.tighter level tree) ts :=
  h.prefixed_of_operand.tighter_of_prefixed level

theorem ternary_of_operand (h : Derives rule (.operand tree) ts) :
    Derives rule (.ternary false tree) ts :=
  .unconditional (.unchained (h.tighter_of_operand .or))

theorem assignment_of_operand (h : Derives rule (.operand tree) ts) :
    Derives rule (.assignment true tree) ts :=
  .unassigned h.ternary_of_operand

theorem pipeline_of_operand (h : Derives rule (.operand tree) ts) :
    Derives rule (.pipeline tree) ts :=
  .unpiped h.assignment_of_operand

end Derives

end TemplateExpr

import TemplateExpr.Tree.Grammar

/-!
# Rules, one call at a time

The rules of the parser with the recursion taken out. What a rule does on its own are its steps
(`Rule.steps`): it takes tokens, calls a rule and goes on with what that gives, and ends. Nothing is
said here of what a called rule gives, and no step carries a bound or a proof. Where a call gives
what the parser gives for its rule, the steps of a rule come to what the rule gives
(`result_steps`).

So the steps show what the parser's own definition keeps to itself: which rule calls which, on which
tokens, and in what order.
-/

namespace TemplateExpr

namespace Grammar

/-! ## Rules -/

/-- A rule. Three of them go on from a tree that was read before. -/
inductive Rule where
  | statements | statement
  | pipeline | stages (input : Node) | stageArguments
  | assignment | ternary
  | chain (level : Level) | tighter (level : Level) | chainRest (level : Level) (left : Node)
  | prefixed | postfixed | postfixes (head : Node) | operand
  | arguments | argumentList | elements | entries

abbrev Rule.Result : Rule → Type
  | .statements | .statement | .stageArguments | .arguments | .argumentList | .elements => List Node
  | .entries => List (PropertyKey × Node)
  | _ => Node

abbrev Outcome (α : Type) := Except ParseError (α × List Token)

/-- What a result comes to without its bound. -/
def Parse.outcome {α : Type} {bound : Nat} : Parse α bound → Outcome α
  | .ok parsed => .ok (parsed.value, parsed.rest)
  | .error fault => .error fault

@[simp] theorem Parse.outcome_ok {α : Type} {bound : Nat} (parsed : Parsed α bound) :
    Parse.outcome (.ok parsed) = .ok (parsed.value, parsed.rest) := rfl

@[simp] theorem Parse.outcome_error {α : Type} {bound : Nat} (fault : ParseError) :
    Parse.outcome (.error fault : Parse α bound) = .error fault := rfl

@[simp] def Rule.parse : (rule : Rule) → List Token → Outcome rule.Result
  | .statements, ts => (Grammar.statements ts).outcome
  | .statement, ts => (statement? ts).outcome
  | .pipeline, ts => (Grammar.pipeline ts).outcome
  | .stages input, ts => (Grammar.stages input ts).outcome
  | .stageArguments, ts => (Grammar.stageArguments ts).outcome
  | .assignment, ts => (Grammar.assignment ts).outcome
  | .ternary, ts => (Grammar.ternary ts).outcome
  | .chain level, ts => (Grammar.chain level ts).outcome
  | .tighter level, ts => (Grammar.tighter level ts).outcome
  | .chainRest level left, ts => (Grammar.chainRest level left ts).outcome
  | .prefixed, ts => (Grammar.prefixed ts).outcome
  | .postfixed, ts => (Grammar.postfixed ts).outcome
  | .postfixes head, ts => (Grammar.postfixes head ts).outcome
  | .operand, ts => (Grammar.operand ts).outcome
  | .arguments, ts => (Grammar.arguments ts).outcome
  | .argumentList, ts => (Grammar.argumentList ts).outcome
  | .elements, ts => (Grammar.elements ts).outcome
  | .entries, ts => (Grammar.entries ts).outcome

/-! ## Steps -/

/-- What is done to read something: it is there, with the tokens behind it; there is an error; a
token is taken, and `rest` is left; or a rule is called on some tokens, and `next` goes on with what
it reads and what it leaves. -/
inductive Step (α : Type) where
  | done (value : α) (rest : List Token)
  | fail (fault : ParseError)
  | take (rest : List Token) (next : Step α)
  | call (rule : Rule) (ts : List Token) (next : rule.Result → List Token → Step α)

namespace Step

variable {α β : Type} {bound : Nat}

@[simp] def required (part : Parse β bound) (next : β → List Token → Step α) : Step α :=
  match part with
  | .ok parsed => .take parsed.rest (next parsed.value parsed.rest)
  | .error fault => .fail fault

/-- A token that may be there, or else `other`. -/
@[simp] def optional (part : Option (Parsed β bound)) (other : Step α)
    (next : β → List Token → Step α) : Step α :=
  match part with
  | some parsed => .take parsed.rest (next parsed.value parsed.rest)
  | none => other

/-- What steps come to when a call gives what the parser gives for its rule. -/
@[simp] def result : Step α → Outcome α
  | .done value rest => .ok (value, rest)
  | .fail fault => .error fault
  | .take _ next => next.result
  | .call rule ts next =>
    match rule.parse ts with
    | .ok (value, rest) => (next value rest).result
    | .error fault => .error fault

end Step

def Rule.steps : (rule : Rule) → List Token → Step rule.Result
  | .statements, ts =>
    .call .statement ts fun first rest =>
      .optional (accept? ";" rest) (.done first rest) fun _ afterSemicolon =>
        .call .statements afterSemicolon fun more rest => .done (first ++ more) rest
  | .statement, ts =>
    if startsNoStatement ts then .done [] ts
    else .call .pipeline ts fun tree rest => .done [tree] rest
  | .pipeline, ts => .call .assignment ts fun input rest => .call (.stages input) rest .done
  | .stages input, ts =>
    .optional (accept? "|" ts) (.done input ts) fun _ afterBar =>
      .required (name afterBar) fun filter afterName =>
        .call .stageArguments afterName fun given rest =>
          .call (.stages (.call false (.identifier false filter) (input :: given) true)) rest .done
  | .stageArguments, ts =>
    .optional (accept? ":" ts) (.done [] ts) fun _ afterColon =>
      .call .assignment afterColon fun argument rest =>
        .call .stageArguments rest fun more rest => .done (argument :: more) rest
  | .assignment, ts =>
    .call .ternary ts fun left rest =>
      .optional (accept? "=" rest) (.done left rest) fun _ afterSign =>
        .call .ternary afterSign fun right rest => .done (.assignment false left right) rest
  | .ternary, ts =>
    .call (.chain .or) ts fun test rest =>
      .optional (accept? "?" rest) (.done test rest) fun _ afterMark =>
        .call .assignment afterMark fun consequent beforeColon =>
          .required (require ":" beforeColon) fun _ afterColon =>
            .call .assignment afterColon fun alternate rest =>
              .done (.conditional false test consequent alternate) rest
  | .chain level, ts =>
    .call (.tighter level) ts fun left rest => .call (.chainRest level left) rest .done
  | .tighter level, ts =>
    match level.tighter? with
    | some level' => .call (.chain level') ts .done
    | none => .call .prefixed ts .done
  | .chainRest level left, ts =>
    .optional (infixOp? level ts) (.done left ts) fun op afterOp =>
      .call (.tighter level) afterOp fun right rest =>
        .call (.chainRest level (op.apply left right)) rest .done
  | .prefixed, ts =>
    .optional (prefixOp? ts) (.call .postfixed ts .done) fun op afterOp =>
      .call .prefixed afterOp fun argument rest => .done (.unary false op argument) rest
  | .postfixed, ts => .call .operand ts fun head rest => .call (.postfixes head) rest .done
  | .postfixes head, ts =>
    let point : Step Node :=
      .optional (accept? "." ts) (.done head ts) fun _ afterPoint =>
        .required (name afterPoint) fun key rest =>
          .call (.postfixes (.member false head (.identifier false key) false)) rest .done
    let bracket : Step Node :=
      .optional (accept? "[" ts) point fun _ afterBracket =>
        .call .pipeline afterBracket fun key beforeClose =>
          .required (require "]" beforeClose) fun _ rest =>
            .call (.postfixes (.member false head key true)) rest .done
    .optional (accept? "(" ts) bracket fun _ afterParen =>
      .call .arguments afterParen fun given beforeClose =>
        .required (require ")" beforeClose) fun _ rest =>
          .call (.postfixes (.call false head given false)) rest .done
  | .operand, ts =>
    let brace : Step Node :=
      .optional (accept? "\x7b" ts) (.required (atom ts) .done) fun _ afterBrace =>
        .call .entries afterBrace fun fields beforeClose =>
          .required (require "\x7d" beforeClose) fun _ rest => .done (.object false fields) rest
    let bracket : Step Node :=
      .optional (accept? "[" ts) brace fun _ afterBracket =>
        .call .elements afterBracket fun items beforeClose =>
          .required (require "]" beforeClose) fun _ rest => .done (.array false items) rest
    .optional (accept? "(" ts) bracket fun _ afterParen =>
      .call .pipeline afterParen fun inner beforeClose =>
        .required (require ")" beforeClose) fun _ rest => .done inner rest
  | .arguments, ts =>
    if startsWith ")" ts then .done [] ts else .call .argumentList ts .done
  | .argumentList, ts =>
    .call .pipeline ts fun argument rest =>
      .optional (accept? "," rest) (.done [argument] rest) fun _ afterComma =>
        .call .argumentList afterComma fun more rest => .done (argument :: more) rest
  | .elements, ts =>
    if startsWith "]" ts then .done [] ts
    else
      .call .assignment ts fun item rest =>
        .optional (accept? "," rest) (.done [item] rest) fun _ afterComma =>
          .call .elements afterComma fun more rest => .done (item :: more) rest
  | .entries, ts =>
    if startsWith "\x7d" ts then .done [] ts
    else
      .required (propertyKey ts) fun key beforeColon =>
        .required (require ":" beforeColon) fun _ afterColon =>
          .call .assignment afterColon fun value rest =>
            .optional (accept? "," rest) (.done [(key, value)] rest) fun _ afterComma =>
              .call .entries afterComma fun more rest => .done ((key, value) :: more) rest

/-! ## The parser -/

theorem result_tail (rule : Rule) (ts : List Token) :
    (Step.call rule ts .done).result = rule.parse ts := by
  rw [Step.result]
  rcases rule.parse ts with fault | ⟨value, rest⟩ <;> rfl

/-- **The steps of a rule come to what the parser gives for it.** -/
theorem result_steps (rule : Rule) (ts : List Token) : (rule.steps ts).result = rule.parse ts := by
  cases rule with
  | statements => rw [Rule.steps, Rule.parse]; fun_cases statements ts <;> simp [*]
  | statement => rw [Rule.steps, Rule.parse]; fun_cases statement? ts <;> simp [*]
  | pipeline => rw [Rule.steps, Rule.parse]; fun_cases pipeline ts <;> simp [*]
  | stages input => rw [Rule.steps, Rule.parse]; fun_cases stages input ts <;> simp_all +zetaDelta
  | stageArguments => rw [Rule.steps, Rule.parse]; fun_cases stageArguments ts <;> simp [*]
  | assignment => rw [Rule.steps, Rule.parse]; fun_cases assignment ts <;> simp [*]
  | ternary => rw [Rule.steps, Rule.parse]; fun_cases ternary ts <;> simp [*]
  | chain level => rw [Rule.steps, Rule.parse]; fun_cases chain level ts <;> simp [*]
  | tighter level =>
    rw [Rule.steps, Rule.parse]
    fun_cases tighter level ts with
    | case1 level' h => rw [h]; exact result_tail (.chain level') ts
    | case2 h => rw [h]; exact result_tail .prefixed ts
  | chainRest level left =>
    rw [Rule.steps, Rule.parse]
    fun_cases chainRest level left ts <;> simp [*]
  | prefixed =>
    rw [Rule.steps, Rule.parse]
    fun_cases prefixed ts with
    | case3 h => rw [h]; exact result_tail .postfixed ts
    | _ => simp [*]
  | postfixed => rw [Rule.steps, Rule.parse]; fun_cases postfixed ts <;> simp [*]
  | postfixes head => rw [Rule.steps, Rule.parse]; fun_cases postfixes head ts <;> simp [*]
  | operand =>
    rw [Rule.steps, Rule.parse]
    fun_cases operand ts <;> simp [*]
    rcases atom ts <;> rfl
  | arguments => rw [Rule.steps, Rule.parse]; fun_cases arguments ts <;> simp [*]
  | argumentList => rw [Rule.steps, Rule.parse]; fun_cases argumentList ts <;> simp [*]
  | elements => rw [Rule.steps, Rule.parse]; fun_cases elements ts <;> simp [*]
  | entries => rw [Rule.steps, Rule.parse]; fun_cases entries ts <;> simp [*]

end Grammar

end TemplateExpr

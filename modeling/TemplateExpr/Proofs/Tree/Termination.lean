import Mathlib.Logic.Relation
import TemplateExpr.Proofs.Tree.Size
import TemplateExpr.Proofs.Tree.Steps

/-!
# Termination of the parser

Why reading a list of tokens comes to an end, whatever the tokens are (`Node.ofTokens_terminates`).

A rule only calls rules on tokens that are left, and rules of lower rank (`Rule.rank`) as long as it
has taken no token. So a rule that is called again, in a loop or through other rules, has fewer
tokens to read. What a called rule leaves matters for the calls behind it; all that has to be known
is whether the rule takes a token whenever it reads something (`Rule.takes`).

Whether the steps of a rule keep to this is a matter of their shape alone (`Step.Orderly`): one bit
is carried along them, which says if a token has been taken yet. That is checked rule by rule
(`steps_orderly`), and all the rest follows from it, by induction over steps and over the weight of
calls (`Frame.weight`).
-/

namespace TemplateExpr

namespace Grammar

/-! ## Rank -/

/-- The place of a rule among the others. Before a token is taken, calls only go down. -/
def Rule.rank : Rule → Nat
  | .statements => 21
  | .statement => 20
  | .arguments => 19
  | .argumentList | .elements | .entries => 18
  | .pipeline => 17
  | .assignment => 16
  | .ternary => 15
  | .chain level => 2 * level.rank + 4
  | .tighter level => 2 * level.rank + 3
  | .prefixed => 2
  | .postfixed => 1
  | .stages _ | .stageArguments | .chainRest .. | .postfixes _ | .operand => 0

theorem Rule.rank_le (rule : Rule) : rule.rank ≤ 21 := by
  have hlevel (level : Level) : level.rank ≤ 5 := by cases level <;> decide
  cases rule with
  | chain level | tighter level => have := hlevel level; simp only [rank]; omega
  | _ => simp [rank]

/-- Whether a rule takes a token whenever it reads something. The others may read nothing. -/
def Rule.takes : Rule → Bool
  | .statements | .statement | .stages _ | .stageArguments | .chainRest .. | .postfixes _
  | .arguments | .elements | .entries => false
  | .pipeline | .assignment | .ternary | .chain _ | .tighter _ | .prefixed | .postfixed | .operand
  | .argumentList => true

/-! ## Steps in order -/

/-- Steps of the rule `outer` that keep order, where `here` is left and `moved` says whether a token
has been taken yet: tokens are taken one by one, calls and the end are where the parser stands,
rules that are called before the first token is taken have a lower rank, and a rule that always
takes a token does not end without one. -/
def Step.Orderly {α : Type} (outer : Rule) : Step α → Bool → List Token → Prop
  | .done _ rest, moved, here => rest = here ∧ (outer.takes → moved)
  | .fail _, _, _ => True
  | .take rest next, _, here => (∃ token, here = token :: rest) ∧ next.Orderly outer true rest
  | .call rule ts next, moved, here =>
    ts = here ∧ (moved ∨ rule.rank < outer.rank) ∧
      ∀ value rest, (next value rest).Orderly outer (moved || rule.takes) rest

/-! ### One token -/

section

variable {ts : List Token}

theorem accept?_cons {text : String} {parsed : Parsed Token ts.length}
    (h : accept? text ts = some parsed) : ∃ token, ts = token :: parsed.rest := by
  obtain ⟨token, hts, -⟩ := leads_of_accept? h
  exact ⟨token, hts⟩

theorem require_cons {text : String} {parsed : Parsed Token ts.length}
    (h : require text ts = .ok parsed) : ∃ token, ts = token :: parsed.rest := by
  obtain ⟨token, hts, -⟩ := leads_of_require h
  exact ⟨token, hts⟩

theorem name_cons {parsed : Parsed String ts.length} (h : name ts = .ok parsed) :
    ∃ token, ts = token :: parsed.rest := by
  obtain ⟨p, hts⟩ := reads_name.mp ⟨parsed.fits, h⟩
  exact ⟨_, hts⟩

theorem atom_cons {parsed : Parsed Node ts.length} (h : atom ts = .ok parsed) :
    ∃ token, ts = token :: parsed.rest := by
  rcases reads_atom.mp ⟨parsed.fits, h⟩ with ⟨text, p, hts, -⟩ | ⟨text, value, p, hts, -⟩
  · exact ⟨_, hts⟩
  · exact ⟨_, hts⟩

theorem propertyKey_cons {parsed : Parsed PropertyKey ts.length} (h : propertyKey ts = .ok parsed) :
    ∃ token, ts = token :: parsed.rest := by
  obtain ⟨first, hts, -⟩ := propertyKey_starts ⟨parsed.fits, h⟩
  exact ⟨first, hts⟩

theorem prefixOp?_cons {parsed : Parsed UnaryOp ts.length} (h : prefixOp? ts = some parsed) :
    ∃ token, ts = token :: parsed.rest := by
  cases ts with
  | nil => cases h
  | cons token rest =>
    obtain ⟨op, -, rfl⟩ := Option.map_eq_some_iff.mp h
    exact ⟨token, rfl⟩

theorem infixOp?_cons {level : Level} {parsed : Parsed InfixOp ts.length}
    (h : infixOp? level ts = some parsed) : ∃ token, ts = token :: parsed.rest := by
  cases ts with
  | nil => cases h
  | cons token rest =>
    obtain ⟨op, -, rfl⟩ := Option.map_eq_some_iff.mp h
    exact ⟨token, rfl⟩

end

section

variable {α β : Type} {bound : Nat} {outer : Rule} {moved : Bool} {here : List Token}
  {next : β → List Token → Step α}

theorem Step.Orderly.stop {value : α} : (Step.done value here).Orderly outer true here :=
  ⟨rfl, fun _ => rfl⟩

theorem Step.Orderly.nothing {value : α} (h : outer.takes = false) :
    (Step.done value here).Orderly outer false here :=
  ⟨rfl, fun htakes => h.symm.trans htakes⟩

theorem Step.Orderly.required {part : Parse β bound}
    (htake : ∀ {parsed}, part = .ok parsed → ∃ token, here = token :: parsed.rest)
    (hnext : ∀ value rest, (next value rest).Orderly outer true rest) :
    (Step.required part next).Orderly outer moved here := by
  cases part with
  | ok parsed => exact ⟨htake rfl, hnext parsed.value parsed.rest⟩
  | error fault => trivial

theorem Step.Orderly.optional {part : Option (Parsed β bound)} {other : Step α}
    (htake : ∀ {parsed}, part = some parsed → ∃ token, here = token :: parsed.rest)
    (hother : other.Orderly outer moved here)
    (hnext : ∀ value rest, (next value rest).Orderly outer true rest) :
    (Step.optional part other next).Orderly outer moved here := by
  cases part with
  | some parsed => exact ⟨htake rfl, hnext parsed.value parsed.rest⟩
  | none => exact hother

/-- Before a token is taken, a rule of lower rank may be called. -/
theorem Step.Orderly.down {rule : Rule} {next : rule.Result → List Token → Step α}
    (h : rule.rank < outer.rank)
    (hnext : ∀ value rest, (next value rest).Orderly outer (moved || rule.takes) rest) :
    (Step.call rule here next).Orderly outer moved here :=
  ⟨rfl, .inr h, hnext⟩

/-- After a token has been taken, any rule may be called. -/
theorem Step.Orderly.onward {rule : Rule} {next : rule.Result → List Token → Step α}
    (hnext : ∀ value rest, (next value rest).Orderly outer true rest) :
    (Step.call rule here next).Orderly outer true here :=
  ⟨rfl, .inl rfl, hnext⟩

end

/-! ### Every rule -/

theorem tighter_orderly (level : Level) (ts : List Token) :
    ((Rule.tighter level).steps ts).Orderly (.tighter level) false ts := by
  rw [Rule.steps]
  split
  next level' h =>
    have hlower : (Rule.chain level').rank < (Rule.tighter level).rank := by
      have := Level.rank_tighter h
      simp only [Rule.rank]
      omega
    exact .down hlower fun tree rest => .stop
  next =>
    have hlower : Rule.prefixed.rank < (Rule.tighter level).rank := by
      simp only [Rule.rank]
      omega
    exact .down hlower fun tree rest => .stop

theorem postfixes_orderly (head : Node) (ts : List Token) :
    ((Rule.postfixes head).steps ts).Orderly (.postfixes head) false ts := by
  simp only [Rule.steps]
  refine .optional accept?_cons (.optional accept?_cons
    (.optional accept?_cons (.nothing rfl) ?point) ?bracket) ?paren
  case point =>
    refine fun _ afterPoint => .required name_cons fun key rest => ?_
    exact .onward fun tree rest => .stop
  case bracket =>
    refine fun _ afterBracket => .onward fun key beforeClose => ?_
    refine .required require_cons fun _ rest => ?_
    exact .onward fun tree rest => .stop
  case paren =>
    refine fun _ afterParen => .onward fun given beforeClose => ?_
    refine .required require_cons fun _ rest => ?_
    exact .onward fun tree rest => .stop

theorem operand_orderly (ts : List Token) :
    (Rule.operand.steps ts).Orderly .operand false ts := by
  simp only [Rule.steps]
  refine .optional accept?_cons (.optional accept?_cons (.optional accept?_cons
    (.required atom_cons fun tree rest => .stop) ?brace) ?bracket) ?paren
  case brace =>
    refine fun _ afterBrace => .onward fun fields beforeClose => ?_
    exact .required require_cons fun _ rest => .stop
  case bracket =>
    refine fun _ afterBracket => .onward fun items beforeClose => ?_
    exact .required require_cons fun _ rest => .stop
  case paren =>
    refine fun _ afterParen => .onward fun inner beforeClose => ?_
    exact .required require_cons fun _ rest => .stop

/-- **Every rule keeps order.** -/
theorem steps_orderly (rule : Rule) (ts : List Token) : (rule.steps ts).Orderly rule false ts := by
  cases rule with
  | statements =>
    refine .down (by decide) fun first rest => ?_
    refine .optional accept?_cons (.nothing rfl) fun _ afterSemicolon => ?_
    exact .onward fun more rest => .stop
  | statement =>
    rw [Rule.steps]
    split
    · exact .nothing rfl
    · exact .down (by decide) fun tree rest => .stop
  | pipeline =>
    refine .down (by decide) fun input rest => ?_
    exact .onward fun tree rest => .stop
  | stages input =>
    rw [Rule.steps]
    refine .optional accept?_cons (.nothing rfl) fun _ afterBar => ?_
    refine .required name_cons fun filter afterName => ?_
    refine .onward fun given rest => ?_
    exact .onward fun tree rest => .stop
  | stageArguments =>
    rw [Rule.steps]
    refine .optional accept?_cons (.nothing rfl) fun _ afterColon => ?_
    refine .onward fun argument rest => ?_
    exact .onward fun more rest => .stop
  | assignment =>
    refine .down (by decide) fun left rest => ?_
    refine .optional accept?_cons .stop fun _ afterSign => ?_
    exact .onward fun right rest => .stop
  | ternary =>
    refine .down (by decide) fun test rest => ?_
    refine .optional accept?_cons .stop fun _ afterMark => ?_
    refine .onward fun consequent beforeColon => ?_
    refine .required require_cons fun _ afterColon => ?_
    exact .onward fun alternate rest => .stop
  | chain level =>
    refine .down (Nat.lt_succ_self _) fun left rest => ?_
    exact .onward fun tree rest => .stop
  | tighter level => exact tighter_orderly level ts
  | chainRest level left =>
    rw [Rule.steps]
    refine .optional infixOp?_cons (.nothing rfl) fun op afterOp => ?_
    refine .onward fun right rest => ?_
    exact .onward fun tree rest => .stop
  | prefixed =>
    rw [Rule.steps]
    refine .optional prefixOp?_cons ?_ fun op afterOp => ?_
    · exact .down (by decide) fun tree rest => .stop
    · exact .onward fun argument rest => .stop
  | postfixed =>
    refine .down (by decide) fun head rest => ?_
    exact .onward fun tree rest => .stop
  | postfixes head => exact postfixes_orderly head ts
  | operand => exact operand_orderly ts
  | arguments =>
    rw [Rule.steps]
    split
    · exact .nothing rfl
    · exact .down (by decide) fun given rest => .stop
  | argumentList =>
    refine .down (by decide) fun argument rest => ?_
    refine .optional accept?_cons .stop fun _ afterComma => ?_
    exact .onward fun more rest => .stop
  | elements =>
    rw [Rule.steps]
    split
    · exact .nothing rfl
    refine .down (by decide) fun item rest => ?_
    refine .optional accept?_cons .stop fun _ afterComma => ?_
    exact .onward fun more rest => .stop
  | entries =>
    rw [Rule.steps]
    split
    · exact .nothing rfl
    refine .required propertyKey_cons fun key beforeColon => ?_
    refine .required require_cons fun _ afterColon => ?_
    refine .onward fun value rest => ?_
    refine .optional accept?_cons .stop fun _ afterComma => ?_
    exact .onward fun more rest => .stop

/-! ## What is left -/

/-- `rest` is what is left of `ts`, and less than all of it if a token has been taken. -/
structure Left (moved : Bool) (ts rest : List Token) : Prop where
  suffix : rest <:+ ts
  fewer : moved → rest.length < ts.length

namespace Left

variable {ts us rest : List Token} {moved more : Bool}

theorem all (ts : List Token) : Left false ts ts :=
  ⟨List.suffix_refl ts, fun h => absurd h Bool.false_ne_true⟩

theorem length_le (h : Left moved ts rest) : rest.length ≤ ts.length := h.suffix.length_le

theorem take {token : Token} (h : Left moved ts (token :: rest)) : Left true ts rest :=
  ⟨(List.suffix_cons token rest).trans h.suffix, fun _ => h.suffix.length_le⟩

theorem trans (h : Left moved ts us) (h' : Left more us rest) : Left (moved || more) ts rest := by
  refine ⟨h'.suffix.trans h.suffix, fun hmoved => ?_⟩
  rcases Bool.or_eq_true_iff.mp hmoved with hmoved | hmore
  · exact Nat.lt_of_le_of_lt h'.length_le (h.fewer hmoved)
  · exact Nat.lt_of_lt_of_le (h'.fewer hmore) h.length_le

end Left

/-! ## Calls -/

structure Frame where
  rule : Rule
  tokens : List Token

def Frame.weight (frame : Frame) : Nat := 22 * frame.tokens.length + frame.rule.rank

structure Frame.Below (inner outer : Frame) : Prop where
  suffix : inner.tokens <:+ outer.tokens
  lower : inner.tokens.length < outer.tokens.length ∨ inner.rule.rank < outer.rule.rank

namespace Frame.Below

theorem trans {a b c : Frame} (h : a.Below b) (h' : b.Below c) : a.Below c := by
  refine ⟨h.suffix.trans h'.suffix, ?_⟩
  have hab := h.suffix.length_le
  have hbc := h'.suffix.length_le
  rcases h.lower with hlower | hlower <;> rcases h'.lower with hlower' | hlower' <;> omega

theorem weight_lt {inner outer : Frame} (h : inner.Below outer) : inner.weight < outer.weight := by
  have hle := h.suffix.length_le
  have hrank := inner.rule.rank_le
  simp only [Frame.weight]
  rcases h.lower with hlower | hlower <;> omega

end Frame.Below

section

variable {α : Type} {outer : Frame} {step : Step α} {moved : Bool} {here : List Token}

theorem Step.Orderly.below {rule : Rule} {ts : List Token}
    {next : rule.Result → List Token → Step α}
    (h : (Step.call rule ts next).Orderly outer.rule moved here)
    (hleft : Left moved outer.tokens here) : Frame.Below ⟨rule, ts⟩ outer := by
  obtain ⟨rfl, hlower, -⟩ := h
  exact ⟨hleft.suffix, hlower.imp_left hleft.fewer⟩

theorem Step.Orderly.left {value : α} {rest : List Token} (h : step.Orderly outer.rule moved here)
    (hleft : Left moved outer.tokens here)
    (hcalled : ∀ inner : Frame, inner.Below outer → ∀ {value rest},
      inner.rule.parse inner.tokens = .ok (value, rest) → Left inner.rule.takes inner.tokens rest)
    (hresult : step.result = .ok (value, rest)) :
    Left outer.rule.takes outer.tokens rest := by
  induction step generalizing moved here with
  | done _ _ =>
    obtain ⟨rfl, htakes⟩ := h
    cases hresult
    exact ⟨hleft.suffix, fun h => hleft.fewer (htakes h)⟩
  | fail _ => cases hresult
  | take _ _ ih =>
    obtain ⟨⟨token, rfl⟩, hnext⟩ := h
    exact ih hnext hleft.take hresult
  | call rule ts next ih =>
    have hbelow := h.below hleft
    obtain ⟨rfl, -, hnext⟩ := h
    rw [Step.result] at hresult
    rcases hparse : rule.parse ts with fault | ⟨called, between⟩
    · rw [hparse] at hresult
      cases hresult
    · rw [hparse] at hresult
      exact ih called between (hnext called between) (hleft.trans (hcalled _ hbelow hparse)) hresult

end

/-- **What a rule leaves are the last of its tokens**, and not all of them if the rule takes one
whenever it reads something. -/
theorem Frame.parse_left (frame : Frame) {value : frame.rule.Result} {rest : List Token}
    (h : frame.rule.parse frame.tokens = .ok (value, rest)) :
    Left frame.rule.takes frame.tokens rest := by
  refine (steps_orderly frame.rule frame.tokens).left (.all _) (fun inner hbelow => ?_)
    ((result_steps _ _).trans h)
  intro value rest hinner
  exact inner.parse_left hinner
termination_by frame.weight
decreasing_by exact hbelow.weight_lt

/-! ## Loops and cycles -/

def Step.calls {α : Type} : Step α → List Frame
  | .done .. | .fail _ => []
  | .take _ next => next.calls
  | .call rule ts next =>
    ⟨rule, ts⟩ ::
      match rule.parse ts with
      | .ok (value, rest) => (next value rest).calls
      | .error _ => []

/-- While it reads its tokens, the rule of `outer` calls that of `inner`. -/
def Frame.Calls (outer inner : Frame) : Prop := inner ∈ (outer.rule.steps outer.tokens).calls

theorem Step.Orderly.calls_below {α : Type} {outer inner : Frame} {step : Step α} {moved : Bool}
    {here : List Token} (h : step.Orderly outer.rule moved here)
    (hleft : Left moved outer.tokens here) (hinner : inner ∈ step.calls) : inner.Below outer := by
  induction step generalizing moved here with
  | done _ _ | fail _ => cases hinner
  | take _ _ ih =>
    obtain ⟨⟨token, rfl⟩, hnext⟩ := h
    exact ih hnext hleft.take hinner
  | call rule ts next ih =>
    have hbelow := h.below hleft
    obtain ⟨rfl, -, hnext⟩ := h
    rw [Step.calls] at hinner
    rcases List.mem_cons.mp hinner with rfl | hlater
    · exact hbelow
    rcases hparse : rule.parse ts with fault | ⟨value, rest⟩
    · rw [hparse] at hlater
      cases hlater
    · rw [hparse] at hlater
      have hcalled := Frame.parse_left ⟨rule, ts⟩ hparse
      exact ih value rest (hnext value rest) (hleft.trans hcalled) hlater

theorem Frame.Calls.below {outer inner : Frame} (h : outer.Calls inner) : inner.Below outer :=
  (steps_orderly outer.rule outer.tokens).calls_below (.all _) h

/-- Whether two rules are the same, whatever trees they go on from. -/
def Rule.Alike : Rule → Rule → Prop
  | .stages _, .stages _ | .postfixes _, .postfixes _ => True
  | .chainRest level _, .chainRest level' _ => level = level'
  | rule, rule' => rule = rule'

theorem Rule.Alike.rank_eq {rule rule' : Rule} (h : rule.Alike rule') : rule.rank = rule'.rank := by
  unfold Rule.Alike at h
  split at h
  · rfl
  · rfl
  · rfl
  · rw [h]

theorem below_of_calls {outer inner : Frame} (h : Relation.TransGen Frame.Calls outer inner) :
    inner.Below outer := by
  induction h with
  | single h => exact h.below
  | tail _ h ih => exact h.below.trans ih

/-- **A rule that is called again has fewer tokens to read**, be it in a loop, which is a rule that
calls itself, or through other rules. -/
theorem fewer_of_alike {outer inner : Frame} (h : Relation.TransGen Frame.Calls outer inner)
    (halike : outer.rule.Alike inner.rule) : inner.tokens.length < outer.tokens.length :=
  (below_of_calls h).lower.resolve_right (Nat.not_lt_of_le (Nat.le_of_eq halike.rank_eq))

/-! ## The whole run -/

/-- Tokens are taken one by one from `ts` on until `rest` is left; `trail` is what is left after
each of them. -/
inductive Walk : (ts : List Token) → (trail : List (List Token)) → (rest : List Token) → Prop
  | stay (ts : List Token) : Walk ts [] ts
  | take {token : Token} {ts rest : List Token} {trail : List (List Token)}
    (h : Walk ts trail rest) : Walk (token :: ts) (ts :: trail) rest

theorem Walk.trans {ts us rest : List Token} {trail more : List (List Token)}
    (h : Walk ts trail us) (h' : Walk us more rest) : Walk ts (trail ++ more) rest := by
  induction h with
  | stay => exact h'
  | take _ ih => exact .take (ih h')

/-- **The position goes up by one with each token and never passes the end.** -/
theorem Walk.positions {ts rest : List Token} {trail : List (List Token)} (h : Walk ts trail rest) :
    ∃ taken ≤ ts.length, trail = (List.range' 1 taken).map ts.drop ∧ rest = ts.drop taken := by
  induction h with
  | stay ts => exact ⟨0, Nat.zero_le _, rfl, rfl⟩
  | @take token ts rest trail _ ih =>
    obtain ⟨taken, hle, rfl, rfl⟩ := ih
    refine ⟨taken + 1, Nat.succ_le_succ hle, ?_, rfl⟩
    rw [List.range'_succ, List.map_cons, List.range'_succ_left (s := 1), List.map_map]
    rfl

/-- A run comes to `outcome` after walking from `here`. -/
def Comes {α : Type} (run : Option (List (List Token) × Outcome α)) (here : List Token)
    (outcome : Outcome α) : Prop :=
  ∃ trail last, run = some (trail, outcome) ∧ Walk here trail last ∧
    ∀ {value rest}, outcome = .ok (value, rest) → rest = last

/-- What steps come to when calls are answered by `answer`, and what was left after each token that
was taken, by a called rule or between the calls. Where a call is not answered, they come to
nothing. -/
def Step.run {α : Type}
    (answer : (rule : Rule) → List Token → Option (List (List Token) × Outcome rule.Result)) :
    Step α → Option (List (List Token) × Outcome α)
  | .done value rest => some ([], .ok (value, rest))
  | .fail fault => some ([], .error fault)
  | .take rest next => (next.run answer).map fun (trail, outcome) => (rest :: trail, outcome)
  | .call rule ts next =>
    match answer rule ts with
    | none => none
    | some (trail, .error fault) => some (trail, .error fault)
    | some (trail, .ok (value, rest)) =>
      ((next value rest).run answer).map fun (more, outcome) => (trail ++ more, outcome)

/-- What a rule comes to if calls may be nested up to the given depth only; nothing, if this is too
little. -/
def Rule.within :
    Nat → (rule : Rule) → List Token → Option (List (List Token) × Outcome rule.Result)
  | 0, _, _ => none
  | depth + 1, rule, ts => (rule.steps ts).run (Rule.within depth)

theorem Step.Orderly.comes {α : Type} {outer : Frame} {step : Step α} {moved : Bool}
    {here : List Token}
    {answer : (rule : Rule) → List Token → Option (List (List Token) × Outcome rule.Result)}
    (h : step.Orderly outer.rule moved here) (hleft : Left moved outer.tokens here)
    (hanswer : ∀ inner : Frame, inner.Below outer →
      Comes (answer inner.rule inner.tokens) inner.tokens (inner.rule.parse inner.tokens)) :
    Comes (step.run answer) here step.result := by
  induction step generalizing moved here with
  | done value rest =>
    obtain ⟨rfl, -⟩ := h
    exact ⟨[], rest, rfl, .stay rest, fun heq => by cases heq; rfl⟩
  | fail fault => exact ⟨[], here, rfl, .stay here, nofun⟩
  | take rest next ih =>
    obtain ⟨⟨token, rfl⟩, hnext⟩ := h
    obtain ⟨trail, last, hrun, hwalk, hends⟩ := ih hnext hleft.take
    exact ⟨rest :: trail, last, by rw [Step.run, hrun]; rfl, .take hwalk, hends⟩
  | call rule ts next ih =>
    have hbelow := h.below hleft
    obtain ⟨rfl, -, hnext⟩ := h
    have hcomes : Comes (answer rule ts) ts (rule.parse ts) := hanswer _ hbelow
    obtain ⟨trail, last, hcall, hwalk, hends⟩ := hcomes
    rw [Step.run, Step.result, hcall]
    rcases hparse : rule.parse ts with fault | ⟨value, rest⟩
    · exact ⟨trail, last, rfl, hwalk, nofun⟩
    · obtain rfl := hends hparse
      have hrest := hleft.trans (Frame.parse_left ⟨rule, ts⟩ hparse)
      obtain ⟨more, last, hrun, hwalk', hends'⟩ := ih value rest (hnext value rest) hrest
      exact ⟨trail ++ more, last, by simp only [hrun, Option.map_some], hwalk.trans hwalk', hends'⟩

/-- **Calls are nested no deeper than the weight of the first**, and tokens are taken one by one. -/
theorem Frame.within_comes (frame : Frame) {depth : Nat} (h : frame.weight < depth) :
    Comes (frame.rule.within depth frame.tokens) frame.tokens
      (frame.rule.parse frame.tokens) := by
  induction depth generalizing frame with
  | zero => exact absurd h (Nat.not_lt_zero _)
  | succ depth ih =>
    rw [Rule.within, ← result_steps]
    refine (steps_orderly _ _).comes (.all _) fun inner hbelow => ih inner ?_
    exact Nat.lt_of_lt_of_le hbelow.weight_lt (Nat.le_of_lt_succ h)

def programOf : Outcome (List Node) → Except ParseError Node
  | .error fault => .error fault
  | .ok (body, []) => .ok (.program false body)
  | .ok (_, token :: _) => .error (.unexpectedToken token.text .endOfExpression token.position)

end Grammar

open Grammar

theorem Node.ofTokens_eq_programOf (ts : List Token) :
    Node.ofTokens ts = programOf (Rule.statements.parse ts) := by
  rw [Node.ofTokens, Rule.parse]
  rcases statements ts with fault | ⟨body, _ | ⟨token, rest⟩, h⟩ <;> rfl

/-- The tree of a whole list of tokens if calls may be nested up to the given depth only, and what
was left after each token that was taken. -/
def Node.ofTokensWithin (depth : Nat) (ts : List Token) :
    Option (List (List Token) × Except ParseError Node) :=
  (Rule.statements.within depth ts).map fun (trail, outcome) => (trail, programOf outcome)

/-- **Reading tokens comes to an end, and to a tree of linear size**, whatever the tokens.

A rule that is called again while it is at work, in a loop or through other rules, has fewer tokens
to read. A run whose calls are nested no deeper than a multiple of the number of tokens gives what
the parser gives, a tree or an error; in it the position goes up one by one, from the start to some
position that is not past the end. And a tree has no more nodes than there are tokens, its root
apart. -/
theorem Node.ofTokens_terminates (all : List Token) :
    (∀ outer inner : Frame, Relation.TransGen Frame.Calls outer inner →
      outer.rule.Alike inner.rule → inner.tokens.length < outer.tokens.length) ∧
    (∀ depth, 22 * all.length + 21 < depth → ∃ taken ≤ all.length,
      Node.ofTokensWithin depth all =
        some ((List.range' 1 taken).map all.drop, Node.ofTokens all)) ∧
    ∀ tree, Node.ofTokens all = .ok tree → Node.sizeAll tree.children ≤ all.length := by
  refine ⟨fun outer inner => fewer_of_alike, fun depth hdepth => ?_, fun tree => Node.ofTokens_size⟩
  obtain ⟨trail, last, hrun, hwalk, -⟩ := Frame.within_comes ⟨.statements, all⟩ hdepth
  obtain ⟨taken, hle, rfl, -⟩ := hwalk.positions
  refine ⟨taken, hle, ?_⟩
  rw [Node.ofTokensWithin, Node.ofTokens_eq_programOf]
  exact congrArg (Option.map _) hrun

/-- A bracket that is not closed: both tokens are taken before the error. -/
example :
    (Node.ofTokensWithin 38 [.symbol "(" 0, .word "a" 1]).map (·.1) = some [[.word "a" 1], []] := by
  decide

end TemplateExpr

import TemplateExpr.Command
import TemplateExpr.Proofs.Program.Agreement
import TemplateExpr.Proofs.Program.Allowed
import TemplateExpr.Proofs.Tree.Sequence

/-!
# A semicolon is sequencing

Two sources that are expressions are one with a semicolon between them, whatever stands at the end
of the first and at the start of the second. Evaluating it is evaluating the first and then, in what
the first left, the second (`Expression.eval_semicolon`). Trees, code and flags are put together
piece by piece: each of them is a list or a fold over a list, and the list of the whole is the first
followed by the second.
-/

namespace TemplateExpr

/-! ## Lists of statements -/

theorem Node.analyzeAll_append (first more : List Node) :
    Node.analyzeAll (first ++ more) = Node.analyzeAll first ++ Node.analyzeAll more := by
  induction first with
  | nil => rfl
  | cons node first ih => rw [List.cons_append, analyzeAll, analyzeAll, ih, List.cons_append]

theorem Node.compileAll_append {registry : Registry} {first more : List Node}
    {before after : List Code} (hfirst : Node.compileAll registry first = .ok before)
    (hmore : Node.compileAll registry more = .ok after) :
    Node.compileAll registry (first ++ more) = .ok (before ++ after) := by
  induction first generalizing before with
  | nil =>
    cases hfirst
    exact hmore
  | cons node first ih =>
    rw [compileAll] at hfirst
    obtain ⟨code, hcode, hfirst⟩ := bind_ok hfirst
    obtain ⟨codes, hcodes, hfirst⟩ := bind_ok hfirst
    cases hfirst
    rw [List.cons_append, compileAll, hcode, ih hcodes]
    rfl

theorem Node.compileAll_isEmpty {registry : Registry} {body : List Node} {codes : List Code}
    (h : Node.compileAll registry body = .ok codes) : codes.isEmpty = body.isEmpty := by
  cases body with
  | nil =>
    cases h
    rfl
  | cons node body =>
    rw [compileAll] at h
    obtain ⟨code, -, h⟩ := bind_ok h
    obtain ⟨codes, -, h⟩ := bind_ok h
    cases h
    rfl

theorem Code.anyStateful_append (before after : List Code) :
    Code.anyStateful (before ++ after) = (Code.anyStateful before || Code.anyStateful after) := by
  induction before with
  | nil => rfl
  | cons code before ih => rw [List.cons_append, anyStateful, anyStateful, ih, Bool.or_assoc]

section

variable {σ : Type} (host : Host σ)

/-- The value so far is handed on from the statements in front to those behind. -/
theorem Code.evalStatements_append (last : Value) (before after : List Code) :
    Code.evalStatements host last (before ++ after) =
      Code.evalStatements host last before >>= fun value =>
        Code.evalStatements host value after := by
  induction before generalizing last with
  | nil => rw [List.nil_append, evalStatements, pure_bind]
  | cons code before ih =>
    rw [List.cons_append, evalStatements, evalStatements, bind_assoc]
    exact bind_congr fun value => ih value

theorem Code.evalStatements_last (last other : Value) (codes : List Code) :
    Code.evalStatements host last codes =
      if codes.isEmpty then pure last else Code.evalStatements host other codes := by
  cases codes <;> rfl

end

theorem mapError_ok {ε ε' α : Type} {f : ε → ε'} {x : Except ε α} {result : α}
    (h : x.mapError f = .ok result) : x = .ok result := by
  cases x with
  | ok value => exact congrArg Except.ok (Except.ok.inj h)
  | error fault => cases h

namespace Expression

/-! ## Places -/

theorem place?_of_several (registry : Registry) (node node' : Node) (nodes : List Node) :
    place? registry (node :: node' :: nodes) = .ok none := by
  cases node <;> rfl

/-- The search for a place fails on no list of statements whose two parts it does not fail on. -/
theorem place?_append {registry : Registry} {first more : List Node} {place place' : Option Place}
    (hfirst : place? registry first = .ok place) (hmore : place? registry more = .ok place') :
    ∃ whole, place? registry (first ++ more) = .ok whole := by
  match first, more with
  | [], _ => exact ⟨place', hmore⟩
  | [node], [] => exact ⟨place, hfirst⟩
  | [node], node' :: nodes => exact ⟨none, place?_of_several registry node node' nodes⟩
  | node :: node' :: nodes, more =>
    exact ⟨none, place?_of_several registry node node' (nodes ++ more)⟩

/-! ## What an expression is made of -/

theorem treeOf_ok {source : String} {tree : Node} (h : treeOf source = .ok tree) :
    ∃ ts raw, tokenize source = .ok ts ∧ Node.ofTokens ts = .ok raw ∧ tree = raw.analyze := by
  obtain ⟨ts, hts, h⟩ := bind_ok h
  obtain ⟨raw, hraw, h⟩ := bind_ok h
  cases h
  exact ⟨ts, raw, mapError_ok hts, mapError_ok hraw, rfl⟩

theorem treeOf_of_tokens {source : String} {ts : List Token} {tree : Node}
    (hts : tokenize source = .ok ts) (htree : Node.ofTokens ts = .ok tree) :
    treeOf source = .ok tree.analyze := by
  rw [treeOf, hts]
  show (Node.ofTokens ts).mapError CompileError.parse >>= (fun tree => pure tree.analyze) = _
  rw [htree]
  rfl

theorem treeOf_semicolon {first second : String} {left right : Node}
    (hleft : treeOf first = .ok left) (hright : treeOf second = .ok right) :
    ∃ before after, left = .program (before.all Node.constant) before ∧
      right = .program (after.all Node.constant) after ∧
      treeOf (first ++ ";" ++ second) =
        .ok (.program ((before ++ after).all Node.constant) (before ++ after)) := by
  obtain ⟨us, rawLeft, hus, hrawLeft, rfl⟩ := treeOf_ok hleft
  obtain ⟨vs, rawRight, hvs, hrawRight, rfl⟩ := treeOf_ok hright
  obtain ⟨before, after, ts, rfl, rfl, hts, hwhole⟩ :=
    Node.ofTokens_semicolon hus hvs hrawLeft hrawRight
  refine ⟨Node.analyzeAll before, Node.analyzeAll after, rfl, rfl, ?_⟩
  rw [treeOf_of_tokens hts hwhole, Node.analyze, Node.analyzeAll_append]

/-- The expression of a source with the statements `body`, from their code and their place. -/
def assembled (source : String) (body : List Node) (codes : List Code) (place : Option Place) :
    Expression where
  source := some source
  reading := .statements codes
  place
  literal := isLiteral body
  constant := body.all Node.constant && !Code.anyStateful codes

theorem eval_assembled {σ : Type} (host : Host σ) (source : String) (body : List Node)
    (codes : List Code) (place : Option Place) :
    (assembled source body codes place).eval host = Code.evalStatements host .undefined codes :=
  rfl

theorem ofTree_assembled {registry : Registry} {source : String} {body : List Node}
    {codes : List Code} {place : Option Place} (hcodes : Node.compileAll registry body = .ok codes)
    (hplace : place? registry body = .ok place) :
    ofTree registry source (.program (body.all Node.constant) body) =
      .ok (assembled source body codes place) := by
  rw [ofTree, hcodes, hplace]
  rfl

theorem ofTree_ok {registry : Registry} {source : String} {body : List Node}
    {expression : Expression}
    (h : ofTree registry source (.program (body.all Node.constant) body) = .ok expression) :
    ∃ codes place, Node.compileAll registry body = .ok codes ∧ place? registry body = .ok place ∧
      expression = assembled source body codes place := by
  obtain ⟨codes, hcodes, h⟩ := bind_ok h
  obtain ⟨place, hplace, h⟩ := bind_ok h
  cases h
  exact ⟨codes, place, hcodes, hplace, rfl⟩

/-! ## The law -/

/-- **A semicolon is sequencing.** With a semicolon between them two sources that compile make one
that compiles, and it is constant if both are. From any scope and any state of the host it ends as
the first does if that ends in an error, and the second is not run; otherwise it ends as the second
does from where the first has left off, except that without any statement in the second the value is
that of the first. -/
theorem eval_semicolon {registry : Registry} {first second : String}
    {before after : Expression} (hbefore : ofSource registry first = .ok before)
    (hafter : ofSource registry second = .ok after) :
    ∃ whole flag body, ofSource registry (first ++ ";" ++ second) = .ok whole ∧
      treeOf second = .ok (.program flag body) ∧
      whole.constant = (before.constant && after.constant) ∧
      ∀ {σ : Type} (host : Host σ) (world : World σ),
        (whole.eval host).start world =
          match (before.eval host).start world with
          | (.error fault, left) => (.error fault, left)
          | (.ok value, left) =>
            if body.isEmpty then (.ok value, left) else (after.eval host).start left := by
  obtain ⟨tree, htree, hbefore⟩ := bind_ok hbefore
  obtain ⟨tree', htree', hafter⟩ := bind_ok hafter
  obtain ⟨front, back, rfl, rfl, hwhole⟩ := treeOf_semicolon htree htree'
  obtain ⟨codes, place, hcodes, hplace, rfl⟩ := ofTree_ok hbefore
  obtain ⟨codes', place', hcodes', hplace', rfl⟩ := ofTree_ok hafter
  obtain ⟨both, hboth⟩ := place?_append hplace hplace'
  have hall := Node.compileAll_append hcodes hcodes'
  refine ⟨assembled (first ++ ";" ++ second) (front ++ back) (codes ++ codes') both, _, back,
    ?_, htree', ?_, fun host world => ?_⟩
  · rw [ofSource, hwhole]
    exact ofTree_assembled hall hboth
  · simp only [assembled, List.all_append, Code.anyStateful_append, Bool.not_or]
    ac_rfl
  · simp only [eval_assembled]
    rw [Code.evalStatements_append, Run.start_bind]
    rcases (Code.evalStatements host .undefined codes).start world with ⟨fault | value, left⟩
    · rfl
    · dsimp only
      rw [Code.evalStatements_last host value .undefined, Node.compileAll_isEmpty hcodes']
      split <;> rfl

/-- Without the semicolon the numeral would go on with an exponent. -/
theorem assignments_in_sequence : ∃ before after whole value left,
    ofSource .empty "n = 10" = .ok before ∧ ofSource .empty "e1 = n" = .ok after ∧
      ofSource .empty ("n = 10" ++ ";" ++ "e1 = n") = .ok whole ∧
      whole.constant = (before.constant && after.constant) ∧
      (before.eval Host.none).start ⟨⟨.record [], none⟩, ()⟩ = (.ok value, left) ∧
      (whole.eval Host.none).start ⟨⟨.record [], none⟩, ()⟩ =
        (after.eval Host.none).start left := by
  obtain ⟨before, after, value, left, hbefore, hafter, hrun⟩ : ∃ before after value left,
      ofSource .empty "n = 10" = .ok before ∧ ofSource .empty "e1 = n" = .ok after ∧
        (before.eval Host.none).start ⟨⟨.record [], none⟩, ()⟩ = (.ok value, left) :=
    ⟨_, _, _, _, by cbv, by cbv, rfl⟩
  obtain ⟨flag, node, body, hsecond⟩ : ∃ flag node body,
      treeOf "e1 = n" = .ok (.program flag (node :: body)) := ⟨_, _, _, by cbv⟩
  obtain ⟨whole, flag', body', hwhole, htree, hconstant, heval⟩ := eval_semicolon hbefore hafter
  rw [hsecond] at htree
  cases htree
  have hboth := heval Host.none ⟨⟨.record [], none⟩, ()⟩
  rw [hrun] at hboth
  exact ⟨before, after, whole, value, left, hbefore, hafter, hwhole, hconstant, hrun, hboth⟩

end Expression

end TemplateExpr

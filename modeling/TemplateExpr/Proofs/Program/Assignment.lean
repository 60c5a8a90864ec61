import Mathlib
import TemplateExpr.Proofs.Program.Fault
import TemplateExpr.Proofs.Program.Literal

/-!
# Assigning and evaluating an assignment

There are two ways to store a literal where an expression points: to assign it to the expression,
and to evaluate the statement that assigns it. They are checked and run by routines of their own.
Whether an expression can be assigned to is read off the form of its only statement, and whether the
statement compiles is what the check of places says of its left side. The guard sees an assigned
value before the place is resolved, and the value of a right side after it.

They agree all the same (`Expression.assign_statement`). The order of the guard does not matter
because it refuses no literal, and neither does the order of resolving and evaluating, because a
literal is evaluated without any effect (`Place.assign_written_out`).
-/

namespace TemplateExpr

theorem Guard.checkObject_literal (literal : Literal) :
    Guard.checkObject literal.value = .ok () := by
  cases literal <;> rfl

section

variable {registry : Registry} {source : String} {flag : Bool} {tree : Node}

/-! ## What compiles -/

theorem Node.assignment_compiles_iff {left right : Node} :
    (∃ code, (Node.assignment flag left right).compile registry = .ok code) ↔
      (∃ place, left.compilePlace registry = .ok place) ∧
        ∃ value, right.compile registry = .ok value := by
  constructor
  · rintro ⟨code, hcode⟩
    obtain ⟨place, value, hplace, hvalue, -⟩ := Node.assignment_ok hcode
    exact ⟨⟨place, hplace⟩, value, hvalue⟩
  · rintro ⟨⟨place, hplace⟩, value, hvalue⟩
    exact ⟨.assign place.root place.path value, by rw [Node.compile, hplace, hvalue]; rfl⟩

theorem Node.isPlace_iff {code : Code} (h : tree.compile registry = .ok code) :
    (∃ place, tree.compilePlace registry = .ok place) ↔ tree.IsPlace := by
  constructor
  · rintro ⟨place, hplace⟩
    by_contra hno
    rw [Node.not_place_error hno] at hplace
    cases hplace
  · intro hplace
    exact (Node.compilePlace_verdict tree hplace).ok_iff.mpr ⟨code, h⟩

namespace Expression

theorem ofTree_single {expression : Expression}
    (h : ofTree registry source (.program flag [tree]) = .ok expression) :
    ∃ code, tree.compile registry = .ok code ∧ expression.reading = .statements [code] ∧
      place? registry [tree] = .ok expression.place := by
  obtain ⟨codes, hcodes, h⟩ := bind_ok h
  obtain ⟨place, hplace, h⟩ := bind_ok h
  cases h
  obtain ⟨code, hcode, hcodes⟩ := bind_ok hcodes
  cases hcodes
  exact ⟨code, hcode, rfl, hplace⟩

theorem ofTree_single_iff :
    (∃ expression, ofTree registry source (.program flag [tree]) = .ok expression) ↔
      ∃ code, tree.compile registry = .ok code := by
  constructor
  · rintro ⟨expression, h⟩
    obtain ⟨code, hcode, -⟩ := ofTree_single h
    exact ⟨code, hcode⟩
  · rintro ⟨code, hcode⟩
    have hcodes : Node.compileAll registry [tree] = .ok [code] := by
      rw [Node.compileAll, hcode]
      rfl
    obtain ⟨place, hplace⟩ := place?_verdict hcodes
    exact ⟨_, by rw [ofTree, hcodes, hplace]; rfl⟩

theorem place?_single {place : Option Place} (h : place? registry [tree] = .ok place) :
    (place.isSome = true ↔ tree.IsPlace) ∧
      ∀ found, place = some found → tree.compilePlace registry = .ok found := by
  cases tree with
  | identifier | member =>
    obtain ⟨found, hfound, rfl⟩ := map_ok h
    refine ⟨⟨fun _ => trivial, fun _ => rfl⟩, ?_⟩
    rintro _ ⟨⟩
    exact hfound
  | _ =>
    cases h
    refine ⟨⟨fun hsome => ?_, fun hplace => hplace.elim⟩, ?_⟩
    · cases hsome
    · rintro _ ⟨⟩

end Expression

end

/-! ## What is run -/

section

variable {σ : Type} (host : Host σ)

/-- **Storing what is written out** is evaluating the assignment of it, if the guard lets it
pass. -/
theorem Place.assign_written_out (place : Place) {code : Code} {value : Value}
    (hvalue : code.literalValue? = some value) (hsafe : Guard.checkObject value = .ok ()) :
    place.assign host value = (Code.assign place.root place.path code).eval host := by
  have hpass : (Run.guarded (Guard.checkObject value) : Run σ Unit) = pure () := by
    rw [hsafe]
    rfl
  rw [Place.assign, Code.eval, hpass, Code.eval_of_literalValue? host code hvalue]
  simp only [pure_bind, Run.safe, hpass]
  rfl

theorem Code.evalStatements_single (last : Value) (code : Code) :
    Code.evalStatements host last [code] = code.eval host :=
  bind_pure _

end

/-- **Assigning a literal is evaluating the assignment of it.** Let the program of one statement be
an expression. It can be assigned to exactly if the program that assigns a literal to the statement
is an expression as well, whatever the literal. And then assigning the literal and evaluating that
program end, from any scope and with any host, in the same result, be it a value or an error, and
leave the same scope and the same state of the host. -/
theorem Expression.assign_statement {registry : Registry} {source : String} {flag : Bool}
    {tree : Node} {expression : Expression}
    (h : ofTree registry source (.program flag [tree]) = .ok expression)
    (source' : String) (flag' flag'' flag''' : Bool) (literal : Literal) :
    (expression.isAssignable = true ↔ ∃ statement, ofTree registry source'
      (.program flag' [.assignment flag'' tree (.literal flag''' literal)]) = .ok statement) ∧
    ∀ statement, ofTree registry source'
        (.program flag' [.assignment flag'' tree (.literal flag''' literal)]) = .ok statement →
      ∀ (σ : Type) (host : Host σ) (world : World σ),
        (expression.assign host literal.value).start world = (statement.eval host).start world := by
  obtain ⟨code, hcode, -, hplace⟩ := ofTree_single h
  obtain ⟨hassignable, hfound⟩ := place?_single hplace
  have hliteral : (Node.literal flag''' literal).compile registry = .ok (.literal literal) := rfl
  have hcompiles : (∃ statement, ofTree registry source'
      (.program flag' [.assignment flag'' tree (.literal flag''' literal)]) = .ok statement) ↔
        tree.IsPlace := by
    rw [ofTree_single_iff, Node.assignment_compiles_iff, Node.isPlace_iff hcode]
    exact and_iff_left ⟨_, hliteral⟩
  refine ⟨hassignable.trans hcompiles.symm, fun statement hstatement σ host world => ?_⟩
  obtain ⟨code', hcode', hreading, -⟩ := ofTree_single hstatement
  obtain ⟨place, value, hleft, hright, rfl⟩ := Node.assignment_ok hcode'
  cases hliteral.symm.trans hright
  obtain ⟨found, hsome⟩ :=
    Option.isSome_iff_exists.mp (hassignable.mpr (hcompiles.mp ⟨statement, hstatement⟩))
  cases (hfound found hsome).symm.trans hleft
  have hwritten : (Code.literal literal).literalValue? = some literal.value := rfl
  have hstored := place.assign_written_out host hwritten (Guard.checkObject_literal literal)
  have hassign : expression.assign host literal.value = place.assign host literal.value := by
    rw [assign, hsome]
  have heval : statement.eval host =
      (Code.assign place.root place.path (.literal literal)).eval host := by
    rw [eval, hreading]
    exact Code.evalStatements_single host .undefined _
  rw [hassign, hstored, heval]

def Host.counting : Host Nat where
  call _ _ _ := do
    modify (· + 1)
    return .text "b"
  filter _ _ := return .undefined
  evaluator _ := return .undefined

/-- A scope in which the locals hold a number where a container is needed. -/
def shadowedNumber : Scope where
  context := .record [("f", .function ⟨"f", .plain⟩), ("a", .record [])]
  locals := some (.record [("a", .record [("b", .integer 1)])])

/-- A key that calls a function, and a write that fails behind it, on a number in the locals. -/
theorem Expression.assign_statement_failing :
    ∃ tree expression statement after,
      treeOf "a[f()].c" = .ok (.program false [tree]) ∧
      ofTree .empty "a[f()].c" (.program false [tree]) = .ok expression ∧
      expression.isAssignable = true ∧
      ofTree .empty "" (.program false [.assignment false tree (.literal true .null)]) =
        .ok statement ∧
      (expression.assign Host.counting .null).start ⟨shadowedNumber, 0⟩ =
        (.error (.type (.member (.notAContainer "c" .number))), after) ∧
      (statement.eval Host.counting).start ⟨shadowedNumber, 0⟩ =
        (.error (.type (.member (.notAContainer "c" .number))), after) ∧
      after.host = 1 := by
  obtain ⟨tree, expression, htree, h, hplace⟩ : ∃ tree expression,
      treeOf "a[f()].c" = .ok (.program false [tree]) ∧
        ofTree .empty "a[f()].c" (.program false [tree]) = .ok expression ∧
          expression.place = some ⟨.name "a", [.computed (.callName "f" []), .fixed "c"]⟩ :=
    ⟨_, _, by cbv, by cbv, rfl⟩
  have hassignable : expression.isAssignable = true := by
    rw [isAssignable, hplace]
    rfl
  obtain ⟨hcompiles, hagree⟩ := assign_statement h "" false false true .null
  obtain ⟨statement, hstatement⟩ := hcompiles.mp hassignable
  obtain ⟨after, hassign, hcalls⟩ : ∃ after,
      (expression.assign Host.counting .null).start ⟨shadowedNumber, 0⟩ =
        (.error (.type (.member (.notAContainer "c" .number))), after) ∧ after.host = 1 := by
    rw [assign, hplace]
    exact ⟨_, by cbv, rfl⟩
  exact ⟨tree, expression, statement, after, htree, h, hassignable, hstatement, hassign,
    (hagree statement hstatement Nat Host.counting _).symm.trans hassign, hcalls⟩

end TemplateExpr

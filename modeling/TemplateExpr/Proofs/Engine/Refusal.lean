import Mathlib
import TemplateExpr.Engine
import TemplateExpr.Proofs.Program.Fault
import TemplateExpr.Proofs.Program.Sequence
import TemplateExpr.Proofs.Tree.Shape

/-!
# What an engine never refuses a text for

Four errors are about the shape of a tree. They are there for trees that are made by hand: whatever
is read from a text has a shape that none of them is about, and setting the flags leaves the shape
as it is. So an engine that is given texts only never reports one (`Engine.generation_unreachable`).
-/

namespace TemplateExpr

namespace Node

section

variable {registry : Registry} {fault : ShapeFault}

theorem Everywhere.part {P : Node → Prop} {tree : Node} (h : tree.Everywhere P) :
    ∀ part ∈ tree.parts, P part := by
  induction tree using induction with
  | step tree ih =>
    obtain ⟨hself, hchildren⟩ := everywhere_iff.mp h
    intro part hpart
    rw [parts_eq, List.mem_cons, List.mem_flatMap] at hpart
    rcases hpart with rfl | ⟨child, hchild, hpart⟩
    · exact hself
    · have hmem := operands_subset_children tree hchild
      exact ih child hmem (hchildren child hmem) part hpart

theorem Shaped.faultless {node : Node} (h : node.Shaped) :
    ¬ node.Fault registry (.generation fault) := by
  intro hfault
  cases hfault with
  | nestedProgram => exact h
  | keyNoName hno =>
    obtain ⟨flag, name, heq⟩ := h
    exact hno flag name heq
  | filterNoName hno =>
    obtain ⟨⟨flag, name, heq⟩, -⟩ := h
    exact hno flag name heq

theorem compile_shaped {node : Node} (h : node.Everywhere Shaped) :
    node.compile registry ≠ .error (.generation fault) := by
  intro herror
  obtain ⟨part, hpart, hfault⟩ := compile_error herror
  exact (h.part part hpart).faultless hfault

end

end Node

namespace Expression

section

variable {registry : Registry}

theorem place?_error {body : List Node} {fault : CompileError}
    (h : place? registry body = .error fault) :
    ∃ statement ∈ body, statement.compile registry = .error fault := by
  unfold place? at h
  split at h
  case h_1 flag name =>
    refine ⟨_, List.mem_cons_self, ?_⟩
    exact ((Node.compilePlace_verdict (.identifier flag name) trivial).map some).error_iff.mp h
  case h_2 flag target key computed =>
    refine ⟨_, List.mem_cons_self, ?_⟩
    exact ((Node.compilePlace_verdict (.member flag target key computed) trivial).map
      some).error_iff.mp h
  case h_3 => cases h

theorem ofTree_shaped {source : String} {flag : Bool} {body : List Node} {fault : ShapeFault}
    (h : ∀ statement ∈ body, statement.Everywhere Node.Shaped) :
    ofTree registry source (.program flag body) ≠ .error (.generation fault) := by
  intro herror
  obtain ⟨statement, hmem, hstatement⟩ : ∃ statement ∈ body,
      statement.compile registry = .error (.generation fault) := by
    rcases bind_error herror with hcodes | ⟨codes, -, herror⟩
    · exact Node.compileAll_error hcodes
    rcases bind_error herror with hplace | ⟨place, -, herror⟩
    · exact place?_error hplace
    · cases herror
  exact Node.compile_shaped (h statement hmem) hstatement

theorem mapError_error {ε ε' α : Type} {x : Except ε α} {f : ε → ε'} {fault : ε'}
    (h : x.mapError f = .error fault) : ∃ before, f before = fault := by
  cases x with
  | ok => cases h
  | error before => exact ⟨before, Except.error.inj h⟩

theorem treeOf_shaped {source : String} {tree : Node} (h : treeOf source = .ok tree) :
    ∃ flag body, tree = .program flag body ∧
      ∀ statement ∈ body, statement.Everywhere Node.Shaped := by
  obtain ⟨ts, raw, -, hraw, rfl⟩ := treeOf_ok h
  obtain ⟨body, rfl, hbody⟩ := Node.ofTokens_shaped hraw
  refine ⟨_, _, rfl, fun statement hmem => ?_⟩
  rw [Node.analyzeAll_eq] at hmem
  obtain ⟨before, hbefore, rfl⟩ := List.mem_map.mp hmem
  exact Node.analyze_shaped fun address node hnode => (hbody before hbefore address node hnode).1

theorem ofSource_shaped {source : String} {fault : ShapeFault} :
    ofSource registry source ≠ .error (.generation fault) := by
  intro herror
  rcases bind_error herror with htree | ⟨tree, htree, herror⟩
  · rcases bind_error htree with hlex | ⟨tokens, -, htree⟩
    · obtain ⟨lexical, heq⟩ := mapError_error hlex
      cases heq
    rcases bind_error htree with hparse | ⟨tree, -, htree⟩
    · obtain ⟨syntactic, heq⟩ := mapError_error hparse
      cases heq
    · cases htree
  · obtain ⟨flag, body, rfl, hbody⟩ := treeOf_shaped htree
    exact ofTree_shaped hbody herror

end

end Expression

/-- **Errors about the shape of a tree are out of reach of texts.** Every tree that is read, from
any tokens, has a program at its root and nowhere else, names as the keys of members that are not
computed, names and at least one argument in calls of filters, and no flag set; and whatever the
filters, no text is refused for its shape. -/
theorem Engine.generation_unreachable :
    (∀ ts tree, Node.ofTokens ts = .ok tree → tree.AsRead) ∧
      ∀ (engine : Engine) (source : String) (fault : ShapeFault),
        engine.compile source ≠ .error (.generation fault) := by
  refine ⟨fun ts tree htree => ?_, fun _ _ _ => Expression.ofSource_shaped⟩
  obtain ⟨body, rfl, hbody⟩ := Node.ofTokens_shaped htree
  exact Node.asRead_program hbody

/-- A filter over a member, with an argument. -/
theorem Engine.piped_member_read :
    ∃ ts tree, tokenize "a.b | f : c" = .ok ts ∧ Node.ofTokens ts = .ok tree ∧ tree.AsRead := by
  obtain ⟨ts, tree, hts, htree⟩ : ∃ ts tree,
      tokenize "a.b | f : c" = .ok ts ∧ Node.ofTokens ts = .ok tree := ⟨_, _, by cbv, by cbv⟩
  exact ⟨ts, tree, hts, htree, Engine.generation_unreachable.1 ts tree htree⟩

end TemplateExpr

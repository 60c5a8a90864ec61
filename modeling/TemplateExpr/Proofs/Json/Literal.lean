import Mathlib
import TemplateExpr.Expression
import TemplateExpr.Proofs.Json.Number
import TemplateExpr.Proofs.Json.Phrase
import TemplateExpr.Proofs.Program.Literal
import TemplateExpr.Proofs.Tree.Completeness
import TemplateExpr.Proofs.Value.Equality

/-!
# JSON texts are literals

The JSON text of data is an expression. It compiles whatever filters there are, it is constant, and
its value equals the data in every scope (`Value.toJson_literal`). A number may come back in the
other representation, and the entries of a record come back by name; neither makes a difference to
equality.

The text of every part is the tree of a literal (`Node.Denotes`), wherever the part stands. The two
facts are carried through one induction on the data.
-/

namespace TemplateExpr

open Number Json

/-! ## Data -/

/-- Data: what JSON can say in full. The names of a record are distinct, as the names of a record
are, and none of them is for bookkeeping. -/
inductive Value.IsData : Value → Prop
  | null : IsData .null
  | boolean (b : Bool) : IsData (.boolean b)
  | integer (n : Int64) : IsData (.integer n)
  | float {x : Float} (finite : isFinite x = true) : IsData (.float x)
  | text (s : String) : IsData (.text s)
  | array {items : List Value} (items_data : ∀ item ∈ items, IsData item) : IsData (.array items)
  | record {entries : Entries Value} (nodup : (entries.map Prod.fst).Nodup)
      (plain : ∀ entry ∈ entries, isInternal entry.1 = false)
      (entries_data : ∀ entry ∈ entries, IsData entry.2) : IsData (.record entries)

/-! ## Trees of literals -/

/-- That a tree is a literal of a value: it is constant, no place, and its code is written out, with
a value that equals the given one. -/
structure Node.Denotes (node : Node) (value : Value) : Prop where
  constant : node.analyze.constant = true
  no_place : ∀ registry, Expression.place? registry [node.analyze] = .ok none
  compiles : ∃ code result, (∀ registry, node.analyze.compile registry = .ok code) ∧
    code.isStateful = false ∧ code.literalValue? = some result ∧ result.strictEquals value = true

namespace Node.Denotes

theorem literal {given : Literal} {value : Value} (h : given.value.strictEquals value = true) :
    (Node.literal false given).Denotes value where
  constant := rfl
  no_place _ := rfl
  compiles := ⟨.literal given, given.value, fun _ => rfl, rfl, rfl, h⟩

theorem minus {given : Literal} {value : Value}
    (h : given.value.negate.strictEquals value = true) :
    (Node.unary false .minus (.literal false given)).Denotes value where
  constant := rfl
  no_place _ := rfl
  compiles := ⟨.unary .minus (.literal given), given.value.negate, fun _ => rfl, rfl, rfl, h⟩

theorem compileAll {nodes : List Node} {items : List Value}
    (h : List.Forall₂ Node.Denotes nodes items) :
    (Node.analyzeAll nodes).all Node.constant = true ∧
      ∃ codes results, (∀ registry, Node.compileAll registry (Node.analyzeAll nodes) = .ok codes) ∧
        Code.anyStateful codes = false ∧ Code.literalValues? codes = some results ∧
        Value.itemsEqual results items = true := by
  induction h with
  | nil => exact ⟨rfl, [], [], fun _ => rfl, rfl, rfl, rfl⟩
  | @cons node item nodes items hnode _ ih =>
    obtain ⟨hall, codes, results, hcodes, hstateless, hvalues, hequal⟩ := ih
    obtain ⟨code, result, hcode, hstateful, hvalue, heq⟩ := hnode.compiles
    refine ⟨by rw [Node.analyzeAll, List.all_cons, hnode.constant, hall]; rfl, code :: codes,
      result :: results, fun registry => ?_, ?_, ?_, ?_⟩
    · rw [Node.analyzeAll, Node.compileAll, hcode, hcodes]
      rfl
    · rw [Code.anyStateful, hstateful, hstateless]
      rfl
    · rw [Code.literalValues?, hvalue, hvalues]
      rfl
    · rw [Value.itemsEqual, heq, hequal]
      rfl

theorem array {nodes : List Node} {items : List Value}
    (h : List.Forall₂ Node.Denotes nodes items) :
    (Node.array false nodes).Denotes (.array items) := by
  obtain ⟨hall, codes, results, hcodes, hstateless, hvalues, hequal⟩ := compileAll h
  refine ⟨hall, fun _ => rfl, .array codes, .array results, fun registry => ?_, hstateless, ?_,
    hequal⟩
  · rw [Node.analyze, Node.compile, hcodes]
    rfl
  · rw [Code.literalValue?, hvalues]
    rfl

/-- Codes of entries whose values are literals. Under distinct names they are stored one behind the
other. -/
theorem compileEntries {nodes : List Node} {entries : Entries Value}
    (hnodup : (entries.map Prod.fst).Nodup)
    (h : List.Forall₂ (fun node entry => node.Denotes entry.2) nodes entries) :
    (Node.analyzeEntries (Phrase.textFields (entries.map Prod.fst) nodes)).all
        (·.2.constant) = true ∧
      ∃ codes stored,
        (∀ registry, Node.compileEntries registry
          (Node.analyzeEntries (Phrase.textFields (entries.map Prod.fst) nodes)) = .ok codes) ∧
        Code.anyEntryStateful codes = false ∧ List.Forall₂ Value.EntryEquals stored entries ∧
        ∀ before : Entries Value, (∀ name ∈ entries.map Prod.fst, before.get? name = none) →
          Code.literalEntries? before codes = some (before ++ stored) := by
  induction h with
  | nil =>
    refine ⟨rfl, [], [], fun _ => rfl, rfl, .nil, fun before _ => ?_⟩
    rw [Code.literalEntries?, List.append_nil]
  | @cons node entry nodes entries hnode _ ih =>
    obtain ⟨key, value⟩ := entry
    rw [List.map_cons, List.nodup_cons] at hnodup
    obtain ⟨hall, codes, stored, hcodes, hstateless, hequal, hvalues⟩ := ih hnodup.2
    obtain ⟨code, result, hcode, hstateful, hvalue, heq⟩ := hnode.compiles
    refine ⟨?_, (key, code) :: codes, (key, result) :: stored, fun registry => ?_, ?_,
      .cons ⟨rfl, heq⟩ hequal, fun before hbefore => ?_⟩
    · rw [List.map_cons, Phrase.textFields_cons, Node.analyzeEntries, List.all_cons, hall]
      exact Bool.and_eq_true_iff.mpr ⟨hnode.constant, rfl⟩
    · rw [List.map_cons, Phrase.textFields_cons, Node.analyzeEntries, Node.compileEntries, hcode,
        hcodes]
      rfl
    · rw [Code.anyEntryStateful, hstateful, hstateless]
      rfl
    · -- The name is new, so its entry is put at the end and the names behind it stay new.
      have hkey : before.get? key = none := hbefore key List.mem_cons_self
      have hrest : ∀ name ∈ entries.map Prod.fst,
          Entries.get? name (before ++ [(key, result)]) = none := by
        intro name hname
        rw [Entries.get?_append_singleton (by rintro rfl; exact hnodup.1 hname)]
        exact hbefore name (List.mem_cons_of_mem _ hname)
      rw [Code.literalEntries?, hvalue, Option.bind_eq_bind, Option.bind_some,
        Entries.insert_of_get?_none result hkey, hvalues _ hrest, List.append_assoc]
      rfl

theorem object {nodes : List Node} {entries others : Entries Value}
    (hnodup : (others.map Prod.fst).Nodup) (hperm : entries.Perm others)
    (h : List.Forall₂ (fun node entry => node.Denotes entry.2) nodes entries) :
    (Node.object false (Phrase.textFields (entries.map Prod.fst) nodes)).Denotes
      (.record others) := by
  have hlisted : (entries.map Prod.fst).Nodup := (hperm.map Prod.fst).nodup_iff.mpr hnodup
  obtain ⟨hall, codes, stored, hcodes, hstateless, hequal, hvalues⟩ := compileEntries hlisted h
  refine ⟨hall, fun _ => rfl, .record codes, .record stored, fun registry => ?_, hstateless, ?_,
    Value.strictEquals_record hnodup hperm hequal⟩
  · rw [Node.analyze, Node.compile, hcodes]
    rfl
  · rw [Code.literalValue?, hvalues [] (fun _ _ => rfl)]
    rfl

end Node.Denotes

/-! ## The literal of a value -/

theorem negate_integer {n : Int64} {digits : List Char} (h : n.toInt = signedValue false digits) :
    ∃ m : Int64, (Value.integer n).negate = .integer m ∧ m.toInt = signedValue true digits := by
  -- Only the least integer has no opposite, and no digits without a sign spell it.
  have hlow : 0 ≤ n.toInt := by
    rw [h]
    exact Int.natCast_nonneg _
  have hhigh : n.toInt ≤ maxInt := n.toInt_le
  have hrange : minInt ≤ -n.toInt ∧ -n.toInt ≤ maxInt := by
    unfold minInt
    unfold maxInt at hhigh ⊢
    omega
  refine ⟨Int64.ofInt (-n.toInt), ?_, ?_⟩
  · show ((toWord? (-n.toInt)).map Value.integer).getD _ = _
    rw [toWord?, if_pos hrange]
    rfl
  · rw [toInt_ofInt hrange, h]
    rfl

theorem exists_number {value : Value} (hnumber : value.isNumber = true)
    (hfinite : ∀ x, value = .float x → isFinite x = true) :
    ∃ node : Node, node.Denotes value ∧
      ∀ layout level, (Phrase.prefixed node).SpeltAs (render layout level value) := by
  obtain ⟨negative, whole, fraction, hplain, htext, hfloat, hinteger⟩ :=
    render_number hnumber hfinite
  simp only [htext]
  obtain ⟨given, hvalue, hgiven, hopposite⟩ : ∃ given : Literal,
      numeralValue? (plainText whole fraction) = some given ∧
        (negative = false → given.value.strictEquals value = true) ∧
        (negative = true → given.value.negate.strictEquals value = true) := by
    rcases numeralValue?_plain hplain with hvalue | ⟨n, hvalue, hwhole, hn⟩
    · refine ⟨_, hvalue, ?_, ?_⟩
      · rintro rfl
        exact hfloat
      · rintro rfl
        show (Value.float (-plainFloat false whole fraction)).strictEquals value = true
        rw [plainFloat, neg_ofDecimal]
        exact hfloat
    · refine ⟨_, hvalue, ?_, ?_⟩
      · rintro rfl
        exact hinteger hwhole n hn
      · rintro rfl
        obtain ⟨m, hnegate, hm⟩ := negate_integer hn
        rw [Literal.value, hnegate]
        exact hinteger hwhole m hm
  have hspelt := (Phrase.speltAs_numeral hplain.isNumeral hvalue).prefixed
  cases negative with
  | false => exact ⟨_, .literal (hgiven rfl), fun _ _ => hspelt⟩
  | true => exact ⟨_, .minus (hopposite rfl), fun _ _ => hspelt.minus⟩

/-- That a tree is a literal of a value, and that the value is written as the tree in every layout
and at every level. -/
def Node.LiteralOf (node : Node) (value : Value) : Prop :=
  node.Denotes value ∧
    ∀ layout level, (Phrase.prefixed node).SpeltAs (render layout level value)

theorem Value.IsData.isUnwritable {value : Value} (h : value.IsData) :
    value.isUnwritable = false := by
  cases h <;> rfl

theorem written_perm {entries : Entries Value}
    (hplain : ∀ entry ∈ entries, isInternal entry.1 = false)
    (hdata : ∀ entry ∈ entries, entry.2.IsData) : (written entries).Perm entries := by
  have hall : ∀ entry ∈ entries, isWritten entry = true := by
    intro entry hentry
    rw [isWritten, hplain entry hentry, (hdata entry hentry).isUnwritable]
    rfl
  rw [written, List.filter_eq_self.mpr hall]
  exact sortByName_perm entries

/-- **Data has a literal.** -/
theorem exists_literal {value : Value} (h : value.IsData) :
    ∃ node : Node, node.LiteralOf value := by
  induction h with
  | null =>
    have hname : IsName "null".toList := Phrase.isName_word (by decide)
    exact ⟨_, .literal rfl, fun _ _ => (Phrase.speltAs_word .null hname).prefixed⟩
  | boolean b =>
    cases b with
    | false =>
      have hname : IsName "false".toList := Phrase.isName_word (by decide)
      exact ⟨_, .literal rfl, fun _ _ => (Phrase.speltAs_word .false hname).prefixed⟩
    | true =>
      have hname : IsName "true".toList := Phrase.isName_word (by decide)
      exact ⟨_, .literal rfl, fun _ _ => (Phrase.speltAs_word .true hname).prefixed⟩
  | integer n => exact exists_number rfl fun _ h => nomatch h
  | float finite =>
    refine exists_number rfl ?_
    rintro _ ⟨⟩
    exact finite
  | text s =>
    refine ⟨_, .literal ?_, fun _ _ => (Phrase.speltAs_quoted s).prefixed⟩
    rw [Literal.value, Value.strictEquals, beq_self_eq_true]
  | @array items _ ih =>
    -- The level is left open in the hypothesis, since the items are written one level further in.
    obtain ⟨nodes, hnodes⟩ := exists_forall₂ ih
    have hdenotes := (hnodes.imp fun _ _ hnode => hnode.1).flip
    refine ⟨_, .array hdenotes, fun layout level => ?_⟩
    rw [render, renderItems_eq]
    refine (Phrase.speltAs_array layout level ?_).prefixed
    rw [List.forall₂_map_left_iff]
    exact hnodes.imp fun _ _ hnode => (hnode.2 layout (level + 1)).assignment
  | @record entries nodup plain entries_data ih =>
    have hperm := written_perm plain entries_data
    obtain ⟨nodes, hnodes⟩ : ∃ nodes,
        List.Forall₂ (fun entry node => Node.LiteralOf node entry.2) (written entries) nodes :=
      exists_forall₂ fun entry hentry => ih entry (hperm.mem_iff.mp hentry)
    have hdenotes := (hnodes.imp fun _ _ hnode => hnode.1).flip
    refine ⟨_, .object nodup hperm hdenotes, fun layout level => ?_⟩
    have hmembers : List.Forall₂ (fun member node => (Phrase.assignment true node).SpeltAs member.2)
        ((written entries).map fun entry => (entry.1, render layout (level + 1) entry.2))
        nodes := by
      rw [List.forall₂_map_left_iff]
      exact hnodes.imp fun _ _ hnode => (hnode.2 layout (level + 1)).assignment
    have hspelt := (Phrase.speltAs_object layout level hmembers).prefixed
    rw [List.map_map, List.map_map] at hspelt
    rw [render_record]
    exact hspelt

/-! ## Compiling and evaluating -/

/-- **The JSON text of data is a constant expression that evaluates to the data.** It compiles
against every registry, and evaluating it gives an equal value in every scope, with nothing
changed. -/
theorem Value.toJson_literal {value : Value} (h : value.IsData) :
    ∃ result : Value, result.strictEquals value = true ∧ ∀ layout registry,
      ∃ expression, Expression.ofSource registry (value.toJson layout) = .ok expression ∧
        expression.constant = true ∧
        ∀ {σ : Type} (host : Host σ) (world : World σ),
          (expression.eval host).start world = (.ok result, world) := by
  obtain ⟨node, hdenotes, hspelt⟩ := exists_literal h
  obtain ⟨code, result, hcode, hstateless, hvalue, hequal⟩ := hdenotes.compiles
  refine ⟨result, hequal, fun layout registry => ?_⟩
  obtain ⟨ts, htokens, hderives⟩ := tokenize_speltAs (hspelt layout 0)
  have htree : Expression.treeOf (value.toJson layout) =
      .ok (.program ([node.analyze].all Node.constant) [node.analyze]) := by
    have hprogram : Derives .innermost (.program (.program false [node])) ts :=
      .program (.lastStatement (.oneStatement hderives.pipeline_of_prefixed))
    have hread := Node.ofTokens_complete (tokenize_distinct htokens) hprogram
    rw [Expression.treeOf, Value.toJson, htokens]
    show (Node.ofTokens ts).mapError CompileError.parse >>= (fun tree => pure tree.analyze) = _
    rw [hread]
    rfl
  have hcodes : Node.compileAll registry [node.analyze] = .ok [code] := by
    rw [Node.compileAll, hcode, Node.compileAll]
    rfl
  have hflag : ([node.analyze].all Node.constant && !Code.anyStateful [code]) = true := by
    rw [List.all_cons, hdenotes.constant, Code.anyStateful, hstateless]
    rfl
  refine ⟨⟨some (value.toJson layout), .statements [code], none,
    Expression.isLiteral [node.analyze], _⟩, ?compiled, hflag, fun host world => ?evaluated⟩
  case compiled =>
    rw [Expression.ofSource, htree]
    show Expression.ofTree registry _ (.program _ [node.analyze]) = _
    rw [Expression.ofTree, hcodes, hdenotes.no_place registry]
    rfl
  case evaluated =>
    rw [Expression.eval]
    show Run.start (Code.evalStatements host .undefined [code]) world = _
    rw [Code.evalStatements, Code.eval_of_literalValue? host code hvalue, pure_bind]
    rfl

def sampleData : Value :=
  .record [("b\"", .array [.null, .boolean true, .integer Int64.minValue, .float (-0.5)]),
    ("a", .text "\x01\n\\")]

theorem sampleData_isData : sampleData.IsData := by
  refine .record (by decide) (by decide) ?_
  intro entry hentry
  rcases List.mem_pair.mp hentry with rfl | rfl
  · refine .array fun item hitem => ?_
    simp only [List.mem_cons, List.not_mem_nil, or_false] at hitem
    rcases hitem with rfl | rfl | rfl | rfl
    · exact .null
    · exact .boolean true
    · exact .integer _
    · exact .float (by decide)
  · exact .text _

/-- The data is read back from its text. -/
theorem Value.toJson_sampleData :
    sampleData.IsData ∧ ∃ result : Value, result.strictEquals sampleData = true ∧
      ∀ layout registry, ∃ expression,
        Expression.ofSource registry (sampleData.toJson layout) = .ok expression ∧
          expression.constant = true ∧
          ∀ {σ : Type} (host : Host σ) (world : World σ),
            (expression.eval host).start world = (.ok result, world) :=
  ⟨sampleData_isData, Value.toJson_literal sampleData_isData⟩

end TemplateExpr

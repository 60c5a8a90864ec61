import Mathlib
import TemplateExpr.Proofs.Json.Phrase
import TemplateExpr.Proofs.Token.Numerals
import TemplateExpr.Proofs.Tree.Completeness

/-!
# Trees as texts

Every tree of the language is the tree of some text, and `Node.print` finds one. All that stands
next to an operator, in front of a member, a call or a filter, or in a list goes in brackets, so
that nothing is left to what binds how tightly. Reading the text gives the tree back
(`Node.ofTokens_print`).

How numbers are written is left open (`Numerals`). What the trees have to keep to is said by
`Node.Writable`: names are names, numbers are finite and have no sign, a name in the place of an
operand is not one of the words that mean something else there, and a filter has an input.
-/

namespace TemplateExpr

open Number Token

/-! ## Operators and their symbols -/

def UnaryOp.symbol : UnaryOp → String
  | .plus => "+"
  | .minus => "-"
  | .not => "!"

def InfixOp.symbol : InfixOp → String
  | .logical .or => "||"
  | .logical .and => "&&"
  | .binary .equal => "=="
  | .binary .notEqual => "!="
  | .binary .strictEqual => "==="
  | .binary .strictNotEqual => "!=="
  | .binary .lessThan => "<"
  | .binary .greaterThan => ">"
  | .binary .lessEqual => "<="
  | .binary .greaterEqual => ">="
  | .binary .add => "+"
  | .binary .subtract => "-"
  | .binary .multiply => "*"
  | .binary .divide => "/"
  | .binary .modulo => "%"

theorem UnaryOp.symbol_mem (op : UnaryOp) : op.symbol ∈ operators := by
  cases op <;> decide

theorem UnaryOp.ofSymbol?_symbol (op : UnaryOp) : UnaryOp.ofSymbol? op.symbol = some op := by
  cases op <;> rfl

theorem InfixOp.symbol_mem (op : InfixOp) : op.symbol ∈ operators := by
  rcases op with (_ | _) | _ | _ | _ | _ | _ | _ | _ | _ | _ | _ | _ | _ | _
  all_goals decide

theorem InfixOp.exists_level (op : InfixOp) :
    ∃ level : Level, level.operator? op.symbol = some op := by
  rcases op with op | op
  · cases op with
    | and => exact ⟨.and, rfl⟩
    | or => exact ⟨.or, rfl⟩
  · cases op with
    | equal | notEqual | strictEqual | strictNotEqual => exact ⟨.equality, rfl⟩
    | lessThan | greaterThan | lessEqual | greaterEqual => exact ⟨.relational, rfl⟩
    | add | subtract => exact ⟨.additive, rfl⟩
    | multiply | divide | modulo => exact ⟨.multiplicative, rfl⟩

/-! ## What can be written -/

/-- The literals that are one constant: texts, and numbers without a sign. -/
inductive Literal.IsConstant : Literal → Prop
  | integer {n : Int64} (h : 0 ≤ n.toInt) : IsConstant (.integer n)
  | float {x : Float} (h : IsMagnitude x) : IsConstant (.float x)
  | text (s : String) : IsConstant (.text s)

/-- The literals that can be operands. -/
inductive Literal.Writable : Literal → Prop
  | null : Writable .null
  | boolean (b : Bool) : Writable (.boolean b)
  | constant {value : Literal} (h : value.IsConstant) : Writable value

inductive PropertyKey.Writable : PropertyKey → Prop
  | identifier {name : String} (h : IsName name.toList) : Writable (.identifier name)
  | literal {value : Literal} (h : value.IsConstant) : Writable (.literal value)

inductive Node.Writable : Node → Prop
  | literal {value : Literal} (h : value.Writable) : Writable (.literal false value)
  | array {items : List Node} (h : ∀ item ∈ items, Writable item) : Writable (.array false items)
  | object {fields : List (PropertyKey × Node)} (hkeys : ∀ field ∈ fields, field.1.Writable)
      (hvalues : ∀ field ∈ fields, Writable field.2) : Writable (.object false fields)
  | identifier {name : String} (h : IsName name.toList)
      (hword : name ∉ ["null", "true", "false", "this"]) : Writable (.identifier false name)
  | this : Writable (.this false)
  | member {target : Node} {name : String} (htarget : Writable target)
      (hname : IsName name.toList) :
      Writable (.member false target (.identifier false name) false)
  | index {target key : Node} (htarget : Writable target) (hkey : Writable key) :
      Writable (.member false target key true)
  | call {callee : Node} {given : List Node} (hcallee : Writable callee)
      (hgiven : ∀ argument ∈ given, Writable argument) : Writable (.call false callee given false)
  | filter {name : String} {input : Node} {given : List Node} (hname : IsName name.toList)
      (hinput : Writable input) (hgiven : ∀ argument ∈ given, Writable argument) :
      Writable (.call false (.identifier false name) (input :: given) true)
  | assignment {left right : Node} (hleft : Writable left) (hright : Writable right) :
      Writable (.assignment false left right)
  | unary {op : UnaryOp} {argument : Node} (h : Writable argument) :
      Writable (.unary false op argument)
  | binary {op : BinaryOp} {left right : Node} (hleft : Writable left) (hright : Writable right) :
      Writable (.binary false op left right)
  | logical {op : LogicalOp} {left right : Node} (hleft : Writable left)
      (hright : Writable right) : Writable (.logical false op left right)
  | conditional {test consequent alternate : Node} (htest : Writable test)
      (hconsequent : Writable consequent) (halternate : Writable alternate) :
      Writable (.conditional false test consequent alternate)

/-! ## The printer -/

def inBrackets (text : List Char) : List Char := '(' :: text ++ [')']

def listed (texts : List (List Char)) : List Char := [','].intercalate (texts.map inBrackets)

def infixText (op : String) (left right : List Char) : List Char :=
  inBrackets left ++ (op.toList ++ inBrackets right)

def stageText (given : List (List Char)) : List Char :=
  given.flatMap fun text => ':' :: inBrackets text

def filterText (name : List Char) : List (List Char) → List Char
  | [] => name
  | input :: given => inBrackets input ++ ("|".toList ++ (name ++ stageText given))

section

variable (numerals : Numerals)

def Literal.print : Literal → List Char
  | .null => "null".toList
  | .boolean true => "true".toList
  | .boolean false => "false".toList
  | .integer n => numerals.integer n
  | .float x => numerals.float x
  | .text s => Json.quoted s

def PropertyKey.print : PropertyKey → List Char
  | .identifier name => name.toList
  | .literal value => value.print numerals

mutual
def Node.print : Node → List Char
  | .program _ body => [';'].intercalate (Node.printAll body)
  | .literal _ value => value.print numerals
  | .array _ elements => '[' :: listed (Node.printAll elements) ++ [']']
  | .object _ properties =>
    '\x7b' :: [','].intercalate (Node.printEntries properties) ++ ['\x7d']
  | .identifier _ name => name.toList
  | .this _ => "this".toList
  | .member _ target key false => inBrackets target.print ++ '.' :: key.print
  | .member _ target key true => inBrackets target.print ++ ('[' :: key.print ++ [']'])
  | .call _ callee arguments false =>
    inBrackets callee.print ++ ('(' :: listed (Node.printAll arguments) ++ [')'])
  | .call _ callee arguments true => filterText callee.print (Node.printAll arguments)
  | .assignment _ left right => infixText "=" left.print right.print
  | .unary _ op argument => op.symbol.toList ++ inBrackets argument.print
  | .binary _ op left right => infixText (InfixOp.binary op).symbol left.print right.print
  | .logical _ op left right => infixText (InfixOp.logical op).symbol left.print right.print
  | .conditional _ test consequent alternate =>
    inBrackets test.print ++
      '?' :: (inBrackets consequent.print ++ ':' :: inBrackets alternate.print)

def Node.printAll : List Node → List (List Char)
  | [] => []
  | node :: nodes => node.print :: Node.printAll nodes

def Node.printEntries : List (PropertyKey × Node) → List (List Char)
  | [] => []
  | (key, node) :: entries =>
    (key.print numerals ++ ':' :: inBrackets node.print) :: Node.printEntries entries
end

theorem Node.printAll_eq (nodes : List Node) :
    Node.printAll numerals nodes = nodes.map (Node.print numerals) := by
  induction nodes with
  | nil => rfl
  | cons node nodes ih => rw [Node.printAll, ih, List.map_cons]

theorem Node.printEntries_eq (fields : List (PropertyKey × Node)) :
    Node.printEntries numerals fields = fields.map fun field =>
      field.1.print numerals ++ ':' :: inBrackets (field.2.print numerals) := by
  induction fields with
  | nil => rfl
  | cons field fields ih => rw [Node.printEntries, ih, List.map_cons]

end

example : (Node.member false (.unary false .minus (.identifier false "a"))
    (.literal false (.integer 10)) true).print .plain = "(-(a))[10]".toList := by decide +kernel

/-! ## The texts as phrases -/

namespace Phrase

variable {text : List Char}

/-- Brackets make an operand of any text, whatever stands behind them. -/
theorem SpeltAs.inBrackets {tree : Node} (h : (Phrase.pipeline tree).SpeltAs text) :
    Spelling (inBrackets text) (fun _ => True) (Derives .innermost (.operand tree)) := by
  have hbrackets := Spelling.wrapped '(' ')' (by decide) (by decide) (by decide) h
  refine hbrackets.mono (fun _ h => h) ?_
  rintro _ ⟨us, p, q, rfl, hus⟩
  exact .bracketed hus

theorem SpeltAs.pipeline {tree : Node} (h : (Phrase.prefixed tree).SpeltAs text) :
    (Phrase.pipeline tree).SpeltAs text :=
  h.mono fun _ => Derives.pipeline_of_prefixed

theorem noOperator_inBrackets (text rest : List Char) :
    NoOperator (inBrackets text ++ rest) := by
  rintro _ ⟨⟩
  decide

/-! ### Operators -/

variable {left right test consequent alternate : Node}
  {leftText rightText testText consequentText alternateText : List Char}

theorem spelling_infixText {op : String} (hop : op ∈ operators)
    (hleft : (Phrase.pipeline left).SpeltAs leftText)
    (hright : (Phrase.pipeline right).SpeltAs rightText) :
    Spelling (infixText op leftText rightText) (fun _ => True) fun ts => ∃ us p vs,
      ts = us ++ symbol op p :: vs ∧ Derives .innermost (.operand left) us ∧
        Derives .innermost (.operand right) vs := by
  have hoperator := (Spelling.operator hop).append hright.inBrackets
    fun rest _ => noOperator_inBrackets rightText rest
  refine (hleft.inBrackets.append hoperator fun _ _ => trivial).mono (fun _ h => h) ?_
  rintro _ ⟨us, _, rfl, hus, _, vs, rfl, ⟨p, rfl⟩, hvs⟩
  exact ⟨us, p, vs, rfl, hus, hvs⟩

theorem speltAs_infix (op : InfixOp) (hleft : (Phrase.pipeline left).SpeltAs leftText)
    (hright : (Phrase.pipeline right).SpeltAs rightText) :
    (Phrase.pipeline (op.apply left right)).SpeltAs (infixText op.symbol leftText rightText) := by
  obtain ⟨level, hlevel⟩ := op.exists_level
  refine (spelling_infixText op.symbol_mem hleft hright).mono (fun _ _ => trivial) ?_
  rintro _ ⟨us, p, vs, rfl, hus, hvs⟩
  have htighter := hus.tighter_of_operand level
  have htighter' := hvs.tighter_of_operand level
  exact (Derives.chained (.unchained htighter) hlevel htighter').pipeline_of_chain

/-- The brackets on the left close it, so the `=` behind them is nobody else's. -/
theorem speltAs_assignment (hleft : (Phrase.pipeline left).SpeltAs leftText)
    (hright : (Phrase.pipeline right).SpeltAs rightText) :
    (Phrase.pipeline (.assignment false left right)).SpeltAs
      (infixText "=" leftText rightText) := by
  refine (spelling_infixText (by decide) hleft hright).mono (fun _ _ => trivial) ?_
  rintro _ ⟨us, p, vs, rfl, hus, hvs⟩
  exact .unpiped (.assigned hus.ternary_of_operand hvs.ternary_of_operand fun _ => rfl)

theorem speltAs_unary (op : UnaryOp) {argument : Node}
    (h : (Phrase.pipeline argument).SpeltAs text) :
    (Phrase.pipeline (.unary false op argument)).SpeltAs
      (op.symbol.toList ++ inBrackets text) := by
  have hwhole := (Spelling.operator op.symbol_mem).append h.inBrackets
    fun rest _ => noOperator_inBrackets text rest
  refine hwhole.mono (fun _ _ => trivial) ?_
  rintro _ ⟨_, us, rfl, ⟨p, rfl⟩, hus⟩
  exact (Derives.signed op.ofSymbol?_symbol hus.prefixed_of_operand).pipeline_of_prefixed

theorem speltAs_conditional (htest : (Phrase.pipeline test).SpeltAs testText)
    (hconsequent : (Phrase.pipeline consequent).SpeltAs consequentText)
    (halternate : (Phrase.pipeline alternate).SpeltAs alternateText) :
    (Phrase.pipeline (.conditional false test consequent alternate)).SpeltAs
      (inBrackets testText ++ '?' :: (inBrackets consequentText ++
        ':' :: inBrackets alternateText)) := by
  have hchoice := hconsequent.inBrackets.append (halternate.inBrackets.behind ':' (by decide))
    fun _ _ => trivial
  have hwhole := htest.inBrackets.append (hchoice.behind '?' (by decide)) fun _ _ => trivial
  refine hwhole.mono (fun _ _ => trivial) ?_
  rintro _ ⟨us, _, rfl, hus, p, _, rfl, vs, _, rfl, hvs, q, ws, rfl, hws⟩
  have hderives := Derives.conditional (p := p) (q := q)
    (.unchained (hus.tighter_of_operand .or)) hvs.assignment_of_operand hws.assignment_of_operand
  rw [List.append_assoc] at hderives
  exact .unpiped (.unassigned hderives)

/-! ### Members, calls and filters -/

theorem speltAs_member {target : Node} {name : String}
    (htarget : (Phrase.pipeline target).SpeltAs text) (hname : IsName name.toList) :
    (Phrase.pipeline (.member false target (.identifier false name) false)).SpeltAs
      (inBrackets text ++ '.' :: name.toList) := by
  have hpoint := Spelling.point.append (Spelling.name hname) fun rest _ => hname.startsName rest
  refine (htarget.inBrackets.append hpoint fun _ _ => trivial).mono (fun _ h => h) ?_
  rintro _ ⟨us, _, rfl, hus, _, _, rfl, ⟨p, rfl⟩, q, rfl⟩
  exact (Derives.unprefixed (.member (.bare hus))).pipeline_of_prefixed

theorem speltAs_index {target key : Node} {keyText : List Char}
    (htarget : (Phrase.pipeline target).SpeltAs text)
    (hkey : (Phrase.pipeline key).SpeltAs keyText) :
    (Phrase.pipeline (.member false target key true)).SpeltAs
      (inBrackets text ++ ('[' :: keyText ++ [']'])) := by
  have hbrackets := Spelling.wrapped '[' ']' (by decide) (by decide) (by decide) hkey
  refine (htarget.inBrackets.append hbrackets fun _ _ => trivial).mono (fun _ _ => trivial) ?_
  rintro _ ⟨us, _, rfl, hus, vs, p, q, rfl, hvs⟩
  have hindex := Derives.index (p := p) (q := q) (.bare hus) hvs
  rw [List.append_assoc] at hindex
  exact (Derives.unprefixed hindex).pipeline_of_prefixed

theorem Lists.speltAs_listed {one : Node → Phrase} {all : List Node → Phrase}
    (hlists : Lists ',' one all)
    (hone : ∀ tree ts, Derives .innermost (.operand tree) ts → Derives .innermost (one tree) ts)
    {texts : List (List Char)} {items : List Node}
    (h : List.Forall₂ (fun text item => (Phrase.pipeline item).SpeltAs text) texts items) :
    (all items).SpeltAs (listed texts) := by
  refine hlists.speltAs (by decide) (by decide) ?_
  rw [List.forall₂_map_left_iff]
  exact h.imp fun _ item hitem => hitem.inBrackets.mono (fun _ _ => trivial) (hone item)

theorem speltAs_call {callee : Node} {given : List Node} {texts : List (List Char)}
    (hcallee : (Phrase.pipeline callee).SpeltAs text)
    (hgiven : List.Forall₂ (fun text item => (Phrase.pipeline item).SpeltAs text) texts given) :
    (Phrase.pipeline (.call false callee given false)).SpeltAs
      (inBrackets text ++ ('(' :: listed texts ++ [')'])) := by
  have harguments := lists_arguments.speltAs_listed
    (fun _ _ h => h.pipeline_of_operand) hgiven
  have hbrackets := Spelling.wrapped '(' ')' (by decide) (by decide) (by decide) harguments
  refine (hcallee.inBrackets.append hbrackets fun _ _ => trivial).mono (fun _ _ => trivial) ?_
  rintro _ ⟨us, _, rfl, hus, vs, p, q, rfl, hvs⟩
  have hcall := Derives.call (p := p) (q := q) (.bare hus) hvs
  rw [List.append_assoc] at hcall
  exact (Derives.unprefixed hcall).pipeline_of_prefixed

theorem joint_stageText {texts : List (List Char)} {rest : List Char} (h : Joint rest) :
    Joint (stageText texts ++ rest) := by
  cases texts with
  | nil => exact h
  | cons text texts => exact .cons (by decide) (by decide) _

theorem speltAs_stageText {given : List Node} {texts : List (List Char)}
    (h : List.Forall₂ (fun text item => (Phrase.pipeline item).SpeltAs text) texts given) :
    (Phrase.stageArguments given).SpeltAs (stageText texts) := by
  induction h with
  | nil => exact fun rest offset _ => ⟨[], offset, .noStageArgument, .refl _⟩
  | @cons text argument texts given hargument _ ih =>
    have hfirst := hargument.inBrackets.behind ':' (by decide)
    refine (hfirst.append ih fun _ _ => trivial).mono (fun _ h => h) ?_
    rintro _ ⟨_, vs, rfl, ⟨p, us, rfl, hus⟩, hvs⟩
    exact .stageArgument hus.assignment_of_operand hvs

theorem speltAs_filterText {name : String} {input : Node} {given : List Node}
    {texts : List (List Char)} (hname : IsName name.toList)
    (hinput : (Phrase.pipeline input).SpeltAs text)
    (hgiven : List.Forall₂ (fun text item => (Phrase.pipeline item).SpeltAs text) texts given) :
    (Phrase.pipeline (.call false (.identifier false name) (input :: given) true)).SpeltAs
      (filterText name.toList (text :: texts)) := by
  have hstage := (Spelling.name hname).append (speltAs_stageText hgiven)
    fun _ hrest => joint_stageText hrest
  have hpipe := (Spelling.operator (by decide : "|" ∈ operators)).append hstage fun rest _ => by
    rw [List.append_assoc]
    exact (hname.startsName _).noOperator
  refine (hinput.inBrackets.append hpipe fun _ _ => trivial).mono (fun _ h => h) ?_
  rintro _ ⟨us, _, rfl, hus, _, _, rfl, ⟨p, rfl⟩, _, vs, rfl, ⟨q, rfl⟩, hvs⟩
  exact .piped hus.pipeline_of_operand hvs

/-! ### Lists -/

theorem speltAs_array_listed {items : List Node} {texts : List (List Char)}
    (h : List.Forall₂ (fun text item => (Phrase.pipeline item).SpeltAs text) texts items) :
    (Phrase.operand (.array false items)).SpeltAs ('[' :: listed texts ++ [']']) := by
  have helements := lists_elements.speltAs_listed
    (fun _ _ h => h.assignment_of_operand) h
  have hbrackets := Spelling.wrapped '[' ']' (by decide) (by decide) (by decide) helements
  refine hbrackets.mono (fun _ _ => trivial) ?_
  rintro _ ⟨us, p, q, rfl, hus⟩
  exact .array hus

end Phrase

/-! ## What is printed -/

section

variable {numerals : Numerals}

theorem Literal.IsConstant.spelling {value : Literal} (h : value.IsConstant) :
    Spelling (value.print numerals) Joint fun ts =>
      ∃ spelling p, ts = [literal spelling value p] := by
  cases h with
  | integer h => exact Spelling.numeral (numerals.isNumeral_integer h) (numerals.read_integer h)
  | float h => exact Spelling.numeral (numerals.isNumeral_float h) (numerals.read_float h)
  | text s => exact (Spelling.quotedText s).mono (fun _ _ => trivial) fun _ h => h

theorem Literal.Writable.speltAs {value : Literal} (h : value.Writable) :
    (Phrase.operand (.literal false value)).SpeltAs (value.print numerals) := by
  cases h with
  | null => exact Phrase.speltAs_word .null (Phrase.isName_word (by decide))
  | boolean b =>
    cases b with
    | false => exact Phrase.speltAs_word .false (Phrase.isName_word (by decide))
    | true => exact Phrase.speltAs_word .true (Phrase.isName_word (by decide))
  | constant h =>
    refine h.spelling.mono (fun _ h => h) ?_
    rintro _ ⟨spelling, p, rfl⟩
    exact .constant

theorem PropertyKey.Writable.speltAs {key : PropertyKey} {value : Node} {text : List Char}
    (hkey : key.Writable) (hvalue : (Phrase.pipeline value).SpeltAs text) :
    (Phrase.entry key value).SpeltAs (key.print numerals ++ ':' :: inBrackets text) := by
  have hbehind := hvalue.inBrackets.behind ':' (by decide)
  have hcolon : ∀ rest, True → Joint (':' :: inBrackets text ++ rest) :=
    fun rest _ => .cons (by decide) (by decide) _
  cases hkey with
  | identifier hname =>
    refine ((Spelling.name hname).append hbehind hcolon).mono (fun _ _ => trivial) ?_
    rintro _ ⟨_, _, rfl, ⟨p, rfl⟩, q, us, rfl, hus⟩
    exact .namedEntry hus.assignment_of_operand
  | literal h =>
    refine (h.spelling.append hbehind hcolon).mono (fun _ _ => trivial) ?_
    rintro _ ⟨_, _, rfl, ⟨spelling, p, rfl⟩, q, us, rfl, hus⟩
    exact .constantEntry hus.assignment_of_operand

theorem Node.speltAs_printAll {nodes : List Node}
    (h : ∀ node ∈ nodes, (Phrase.pipeline node).SpeltAs (node.print numerals)) :
    List.Forall₂ (fun text node => (Phrase.pipeline node).SpeltAs text)
      (Node.printAll numerals nodes) nodes := by
  rw [printAll_eq, List.forall₂_map_left_iff]
  exact List.forall₂_same.mpr h

theorem Node.speltAs_printEntries {fields : List (PropertyKey × Node)}
    (hkeys : ∀ field ∈ fields, field.1.Writable)
    (hvalues : ∀ field ∈ fields, (Phrase.pipeline field.2).SpeltAs (field.2.print numerals)) :
    (Phrase.operand (.object false fields)).SpeltAs
      ('\x7b' :: [','].intercalate (Node.printEntries numerals fields) ++ ['\x7d']) := by
  have hfields : List.Forall₂ (fun text field => (Phrase.entry field.1 field.2).SpeltAs text)
      (Node.printEntries numerals fields) fields := by
    rw [printEntries_eq, List.forall₂_map_left_iff, List.forall₂_same]
    exact fun field hfield => (hkeys field hfield).speltAs (hvalues field hfield)
  have hentries := Phrase.lists_entries.speltAs (by decide) (by decide) hfields
  have hbrackets := Spelling.wrapped '\x7b' '\x7d' (by decide) (by decide) (by decide)
    hentries
  refine hbrackets.mono (fun _ _ => trivial) ?_
  rintro _ ⟨us, p, q, rfl, hus⟩
  exact .object hus

/-- **Every tree is spelt as it is printed**, wherever it stands. -/
theorem Node.Writable.speltAs {node : Node} (h : node.Writable) :
    (Phrase.pipeline node).SpeltAs (node.print numerals) := by
  induction h with
  | literal h => exact h.speltAs.prefixed.pipeline
  | array _ ih => exact (Phrase.speltAs_array_listed (speltAs_printAll ih)).prefixed.pipeline
  | object hkeys _ ih => exact (speltAs_printEntries hkeys ih).prefixed.pipeline
  | identifier h hword => exact (Phrase.speltAs_word (.name hword) h).prefixed.pipeline
  | this => exact (Phrase.speltAs_word .this (Phrase.isName_word (by decide))).prefixed.pipeline
  | member _ hname ih => exact Phrase.speltAs_member ih hname
  | index _ _ ihtarget ihkey => exact Phrase.speltAs_index ihtarget ihkey
  | call _ _ ihcallee ihgiven => exact Phrase.speltAs_call ihcallee (speltAs_printAll ihgiven)
  | filter hname _ _ ihinput ihgiven =>
    exact Phrase.speltAs_filterText hname ihinput (speltAs_printAll ihgiven)
  | assignment _ _ ihleft ihright => exact Phrase.speltAs_assignment ihleft ihright
  | unary _ ih => exact Phrase.speltAs_unary _ ih
  | binary _ _ ihleft ihright => exact Phrase.speltAs_infix (.binary _) ihleft ihright
  | logical _ _ ihleft ihright => exact Phrase.speltAs_infix (.logical _) ihleft ihright
  | conditional _ _ _ ihtest ihconsequent ihalternate =>
    exact Phrase.speltAs_conditional ihtest ihconsequent ihalternate

end

/-- **Every tree is read back from its text.** The printed text has tokens, and they are read as the
tree that was printed. -/
theorem Node.ofTokens_print (numerals : Numerals) {body : List Node}
    (h : ∀ statement ∈ body, statement.Writable) :
    ∃ ts, tokenize (String.ofList ((Node.program false body).print numerals)) = .ok ts ∧
      Node.ofTokens ts = .ok (.program false body) := by
  have hbody : List.Forall₂ _ (Node.printAll numerals body) body :=
    speltAs_printAll fun statement hstatement => (h statement hstatement).speltAs
  have hstatements := Phrase.lists_statements.speltAs (by decide) (by decide +kernel) hbody
  obtain ⟨ts, htokens, hderives⟩ := tokenize_speltAs hstatements
  exact ⟨ts, htokens, ofTokens_complete (tokenize_distinct htokens) (.program hderives)⟩

def sampleStatements : List Node :=
  let a : Node := .identifier false "a"
  let number (n : Int64) : Node := .literal false (.integer n)
  [.object false [(.identifier "this", .unary false .minus (.unary false .not a)),
      (.literal (.text "b\"\n"), .this false), (.literal (.float 0.5), .array false [number 7])],
    .call false (.identifier false "null")
      [.call false (.identifier false "upper") [a] true, .assignment false a (number 1)] true,
    .call false (.member false
      (.conditional false a (.member false a (.identifier false "true") false) (number 2))
      (.binary false .subtract a (.literal false .null)) true) [] false]

theorem sampleStatements_writable : ∀ statement ∈ sampleStatements, statement.Writable := by
  have a : (Node.identifier false "a").Writable := .identifier (by decide) (by decide)
  have number {n : Int64} (h : 0 ≤ n.toInt) : (Node.literal false (.integer n)).Writable :=
    .literal (.constant (.integer h))
  have half : IsMagnitude 0.5 := ⟨twoTo 52, -53, by decide⟩
  have none : ∀ node ∈ ([] : List Node), node.Writable := List.forall_mem_nil _
  simp only [sampleStatements, List.forall_mem_cons, List.not_mem_nil, false_implies, implies_true,
    and_true]
  refine ⟨.object ?keys ?values, .filter (by decide) ?input ?given, .call ?callee none⟩
  case keys =>
    simp only [List.forall_mem_cons, List.not_mem_nil, false_implies, implies_true, and_true]
    exact ⟨.identifier (by decide), .literal (.text _), .literal (.float half)⟩
  case values =>
    simp only [List.forall_mem_cons, List.not_mem_nil, false_implies, implies_true, and_true]
    exact ⟨.unary (.unary a), .this, .array (List.forall_mem_singleton.mpr (number (by decide)))⟩
  case input => exact .filter (by decide) a none
  case given => exact List.forall_mem_singleton.mpr (.assignment a (number (by decide)))
  case callee =>
    refine .index (.conditional a ?_ (number (by decide))) (.binary a (.literal .null))
    exact .member a (by decide)

/-- The statements are read back from the text that is printed for them. -/
theorem Node.ofTokens_print_sample :
    (∀ statement ∈ sampleStatements, statement.Writable) ∧
      ∃ ts, tokenize (String.ofList ((Node.program false sampleStatements).print .plain)) = .ok ts ∧
        Node.ofTokens ts = .ok (.program false sampleStatements) :=
  ⟨sampleStatements_writable, Node.ofTokens_print .plain sampleStatements_writable⟩

end TemplateExpr

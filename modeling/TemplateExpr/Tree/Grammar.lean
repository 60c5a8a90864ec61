import TemplateExpr.Tree.Precedence

/-!
# From tokens to a tree

One function per rule of the grammar, loosest first:

    program    := pipeline? (';' pipeline?)*
    pipeline   := assignment ('|' NAME (':' assignment)*)*
    assignment := ternary ('=' ternary)?
    ternary    := level ('?' assignment ':' assignment)?
    level      := tighter (OPERATOR tighter)*
    prefixed   := ('+' | '-' | '!') prefixed | postfixed
    postfixed  := operand ('.' NAME | '[' pipeline ']' | '(' arguments ')')*
    operand    := '(' pipeline ')' | '[' elements ']' | '{' entries '}' | atom

A rule takes the tokens that are left and gives back a tree and the tokens behind it. The result
carries the proof that these are fewer (`Parsed.fits`), which is what every loop and every cycle of
rules ends by: the tokens left first, then the place of the rule in the list.

Symbols are recognised by their text alone; only names and constants are told by their kind.
-/

namespace TemplateExpr

/-! ## Errors -/

inductive Expectation where
  | symbol (text : String)
  | expression
  | identifier
  | objectKey
  | endOfExpression
deriving DecidableEq

def Expectation.text : Expectation → String
  | .symbol text => "'" ++ text ++ "'"
  | .expression => "an expression"
  | .identifier => "an identifier"
  | .objectKey => "an object key"
  | .endOfExpression => "end of expression"

/-- Why tokens form no program. The last error is found on the tree, when it is compiled. -/
inductive ParseError where
  | unexpectedToken (found : String) (expected : Expectation) (position : Nat)
  | unexpectedEnd (expected : Expectation)
  | invalidIdentifier (text : String) (position : Nat)
  | invalidAssignmentTarget
deriving DecidableEq

def ParseError.message : ParseError → String
  | .unexpectedToken found expected p =>
    "Unexpected token '" ++ found ++ "' at position " ++ toString p ++ ", expected " ++
      expected.text
  | .unexpectedEnd expected => "Unexpected end of expression, expected " ++ expected.text
  | .invalidIdentifier text p =>
    "'" ++ text ++ "' at position " ++ toString p ++ " is not a valid identifier"
  | .invalidAssignmentTarget => "Trying to assign a value to a non l-value"

namespace Grammar

def unexpected (expected : Expectation) : List Token → ParseError
  | token :: _ => .unexpectedToken token.text expected token.position
  | [] => .unexpectedEnd expected

/-! ## Results -/

/-- What a rule read, and the tokens behind it, which are fewer than `bound`. -/
structure Parsed (α : Type) (bound : Nat) where
  value : α
  rest : List Token
  fits : rest.length < bound

abbrev Parse (α : Type) (bound : Nat) := Except ParseError (Parsed α bound)

/-- The first token, if it has the given text. -/
def accept? (text : String) (ts : List Token) : Option (Parsed Token ts.length) :=
  match ts with
  | token :: rest => if token.text = text then some ⟨token, rest, by simp⟩ else none
  | [] => none

def require (text : String) (ts : List Token) : Parse Token ts.length :=
  match accept? text ts with
  | some parsed => .ok parsed
  | none => .error (unexpected (.symbol text) ts)

def startsWith (text : String) (ts : List Token) : Bool := (accept? text ts).isSome

/-! ## Rules without recursion -/

/-- A name, whatever it spells. -/
def name (ts : List Token) : Parse String ts.length :=
  match ts with
  | [] => .error (unexpected .identifier [])
  | token :: rest =>
    if token.kind = .identifier then .ok ⟨token.text, rest, by simp⟩
    else .error (.invalidIdentifier token.text token.position)

/-- What a word stands for as an operand. -/
def wordTree : String → Node
  | "null" => .literal false .null
  | "true" => .literal false (.boolean true)
  | "false" => .literal false (.boolean false)
  | "this" => .this false
  | word => .identifier false word

def atom (ts : List Token) : Parse Node ts.length :=
  match ts with
  | [] => .error (unexpected .expression [])
  | token :: rest =>
    match token.kind with
    | .identifier => .ok ⟨wordTree token.text, rest, by simp⟩
    | .constant value => .ok ⟨.literal false value, rest, by simp⟩
    | .symbol => .error (unexpected .expression (token :: rest))

def propertyKey (ts : List Token) : Parse PropertyKey ts.length :=
  match ts with
  | [] => .error (unexpected .objectKey [])
  | token :: rest =>
    match token.kind with
    | .identifier => .ok ⟨.identifier token.text, rest, by simp⟩
    | .constant value => .ok ⟨.literal value, rest, by simp⟩
    | .symbol => .error (unexpected .objectKey (token :: rest))

def prefixOp? (ts : List Token) : Option (Parsed UnaryOp ts.length) :=
  match ts with
  | [] => none
  | token :: rest => (UnaryOp.ofSymbol? token.text).map fun op => ⟨op, rest, by simp⟩

def infixOp? (level : Level) (ts : List Token) : Option (Parsed InfixOp ts.length) :=
  match ts with
  | [] => none
  | token :: rest => (level.operator? token.text).map fun op => ⟨op, rest, by simp⟩

/-! ## The rules of expressions -/

mutual
def pipeline (ts : List Token) : Parse Node ts.length :=
  match assignment ts with
  | .error fault => .error fault
  | .ok ⟨input, rest, h⟩ =>
    match stages input rest with
    | .error fault => .error fault
    | .ok ⟨tree, rest', h'⟩ => .ok ⟨tree, rest', by omega⟩
termination_by (ts.length, 17)

/-- The filters that follow `input`, which is the first argument of the first of them. -/
def stages (input : Node) (ts : List Token) : Parse Node (ts.length + 1) :=
  match accept? "|" ts with
  | none => .ok ⟨input, ts, by omega⟩
  | some ⟨_, afterBar, h⟩ =>
    match name afterBar with
    | .error fault => .error fault
    | .ok ⟨filter, afterName, h'⟩ =>
      match stageArguments afterName with
      | .error fault => .error fault
      | .ok ⟨arguments, rest, h''⟩ =>
        let applied := Node.call false (.identifier false filter) (input :: arguments) true
        match stages applied rest with
        | .error fault => .error fault
        | .ok ⟨tree, rest', h'''⟩ => .ok ⟨tree, rest', by omega⟩
termination_by (ts.length, 0)

def stageArguments (ts : List Token) : Parse (List Node) (ts.length + 1) :=
  match accept? ":" ts with
  | none => .ok ⟨[], ts, by omega⟩
  | some ⟨_, afterColon, h⟩ =>
    match assignment afterColon with
    | .error fault => .error fault
    | .ok ⟨argument, rest, h'⟩ =>
      match stageArguments rest with
      | .error fault => .error fault
      | .ok ⟨arguments, rest', h''⟩ => .ok ⟨argument :: arguments, rest', by omega⟩
termination_by (ts.length, 0)

def assignment (ts : List Token) : Parse Node ts.length :=
  match ternary ts with
  | .error fault => .error fault
  | .ok ⟨left, rest, h⟩ =>
    match accept? "=" rest with
    | none => .ok ⟨left, rest, h⟩
    | some ⟨_, afterSign, h'⟩ =>
      match ternary afterSign with
      | .error fault => .error fault
      | .ok ⟨right, rest', h''⟩ => .ok ⟨.assignment false left right, rest', by omega⟩
termination_by (ts.length, 16)

def ternary (ts : List Token) : Parse Node ts.length :=
  match chain .or ts with
  | .error fault => .error fault
  | .ok ⟨test, rest, h⟩ =>
    match accept? "?" rest with
    | none => .ok ⟨test, rest, h⟩
    | some ⟨_, afterMark, h'⟩ =>
      match assignment afterMark with
      | .error fault => .error fault
      | .ok ⟨consequent, beforeColon, h''⟩ =>
        match require ":" beforeColon with
        | .error fault => .error fault
        | .ok ⟨_, afterColon, hc⟩ =>
          match assignment afterColon with
          | .error fault => .error fault
          | .ok ⟨alternate, rest', ha⟩ =>
            .ok ⟨.conditional false test consequent alternate, rest', by omega⟩
termination_by (ts.length, 15)
decreasing_by
  · exact Prod.Lex.right _ (by decide)
  · exact Prod.Lex.left _ _ (by omega)
  · exact Prod.Lex.left _ _ (by omega)

/-- Operands of the next tighter level, with operators of this level between them. -/
def chain (level : Level) (ts : List Token) : Parse Node ts.length :=
  match tighter level ts with
  | .error fault => .error fault
  | .ok ⟨left, rest, h⟩ =>
    match chainRest level left rest with
    | .error fault => .error fault
    | .ok ⟨tree, rest', h'⟩ => .ok ⟨tree, rest', by omega⟩
termination_by (ts.length, 2 * level.rank + 4)
decreasing_by
  · exact Prod.Lex.right _ (by omega)
  · exact Prod.Lex.left _ _ h

/-- An operand of a level: a chain of the next tighter level, or a prefixed operand. -/
def tighter (level : Level) (ts : List Token) : Parse Node ts.length :=
  match _next : level.tighter? with
  | some level' => chain level' ts
  | none => prefixed ts
termination_by (ts.length, 2 * level.rank + 3)
decreasing_by
  · exact Prod.Lex.right _ (by have := Level.rank_tighter _next; omega)
  · exact Prod.Lex.right _ (by omega)

/-- The rest of a chain: every operator takes what stands to its left as its left operand. -/
def chainRest (level : Level) (left : Node) (ts : List Token) : Parse Node (ts.length + 1) :=
  match infixOp? level ts with
  | none => .ok ⟨left, ts, by omega⟩
  | some ⟨op, afterOp, h⟩ =>
    match tighter level afterOp with
    | .error fault => .error fault
    | .ok ⟨right, rest, h'⟩ =>
      match chainRest level (op.apply left right) rest with
      | .error fault => .error fault
      | .ok ⟨tree, rest', h''⟩ => .ok ⟨tree, rest', by omega⟩
termination_by (ts.length, 0)

def prefixed (ts : List Token) : Parse Node ts.length :=
  match prefixOp? ts with
  | some ⟨op, afterOp, h⟩ =>
    match prefixed afterOp with
    | .error fault => .error fault
    | .ok ⟨argument, rest, h'⟩ => .ok ⟨.unary false op argument, rest, by omega⟩
  | none => postfixed ts
termination_by (ts.length, 2)

def postfixed (ts : List Token) : Parse Node ts.length :=
  match operand ts with
  | .error fault => .error fault
  | .ok ⟨head, rest, h⟩ =>
    match postfixes head rest with
    | .error fault => .error fault
    | .ok ⟨tree, rest', h'⟩ => .ok ⟨tree, rest', by omega⟩
termination_by (ts.length, 1)

def postfixes (head : Node) (ts : List Token) : Parse Node (ts.length + 1) :=
  match accept? "(" ts with
  | some ⟨_, afterParen, h⟩ =>
    match arguments afterParen with
    | .error fault => .error fault
    | .ok ⟨given, beforeClose, h'⟩ =>
      match require ")" beforeClose with
      | .error fault => .error fault
      | .ok ⟨_, rest, h''⟩ =>
        match postfixes (.call false head given false) rest with
        | .error fault => .error fault
        | .ok ⟨tree, rest', ht⟩ => .ok ⟨tree, rest', by omega⟩
  | none =>
    match accept? "[" ts with
    | some ⟨_, afterBracket, h⟩ =>
      match pipeline afterBracket with
      | .error fault => .error fault
      | .ok ⟨key, beforeClose, h'⟩ =>
        match require "]" beforeClose with
        | .error fault => .error fault
        | .ok ⟨_, rest, h''⟩ =>
          match postfixes (.member false head key true) rest with
          | .error fault => .error fault
          | .ok ⟨tree, rest', ht⟩ => .ok ⟨tree, rest', by omega⟩
    | none =>
      match accept? "." ts with
      | some ⟨_, afterPoint, h⟩ =>
        match name afterPoint with
        | .error fault => .error fault
        | .ok ⟨key, rest, h'⟩ =>
          match postfixes (.member false head (.identifier false key) false) rest with
          | .error fault => .error fault
          | .ok ⟨tree, rest', ht⟩ => .ok ⟨tree, rest', by omega⟩
      | none => .ok ⟨head, ts, by omega⟩
termination_by (ts.length, 0)

def operand (ts : List Token) : Parse Node ts.length :=
  match accept? "(" ts with
  | some ⟨_, afterParen, h⟩ =>
    match pipeline afterParen with
    | .error fault => .error fault
    | .ok ⟨inner, beforeClose, h'⟩ =>
      match require ")" beforeClose with
      | .error fault => .error fault
      | .ok ⟨_, rest, h''⟩ => .ok ⟨inner, rest, by omega⟩
  | none =>
    match accept? "[" ts with
    | some ⟨_, afterBracket, h⟩ =>
      match elements afterBracket with
      | .error fault => .error fault
      | .ok ⟨items, beforeClose, h'⟩ =>
        match require "]" beforeClose with
        | .error fault => .error fault
        | .ok ⟨_, rest, h''⟩ => .ok ⟨.array false items, rest, by omega⟩
    | none =>
      match accept? "\x7b" ts with
      | some ⟨_, afterBrace, h⟩ =>
        match entries afterBrace with
        | .error fault => .error fault
        | .ok ⟨fields, beforeClose, h'⟩ =>
          match require "\x7d" beforeClose with
          | .error fault => .error fault
          | .ok ⟨_, rest, h''⟩ => .ok ⟨.object false fields, rest, by omega⟩
      | none => atom ts
termination_by (ts.length, 0)

def arguments (ts : List Token) : Parse (List Node) (ts.length + 1) :=
  if startsWith ")" ts then .ok ⟨[], ts, by omega⟩
  else
    match argumentList ts with
    | .error fault => .error fault
    | .ok ⟨given, rest, h⟩ => .ok ⟨given, rest, by omega⟩
termination_by (ts.length, 19)

def argumentList (ts : List Token) : Parse (List Node) ts.length :=
  match pipeline ts with
  | .error fault => .error fault
  | .ok ⟨argument, rest, h⟩ =>
    match accept? "," rest with
    | none => .ok ⟨[argument], rest, h⟩
    | some ⟨_, afterComma, h'⟩ =>
      match argumentList afterComma with
      | .error fault => .error fault
      | .ok ⟨more, rest', h''⟩ => .ok ⟨argument :: more, rest', by omega⟩
termination_by (ts.length, 18)

/-- The elements of an array literal, up to its closing bracket. A comma may follow the last. -/
def elements (ts : List Token) : Parse (List Node) (ts.length + 1) :=
  if startsWith "]" ts then .ok ⟨[], ts, by omega⟩
  else
    match assignment ts with
    | .error fault => .error fault
    | .ok ⟨item, rest, h⟩ =>
      match accept? "," rest with
      | none => .ok ⟨[item], rest, by omega⟩
      | some ⟨_, afterComma, h'⟩ =>
        match elements afterComma with
        | .error fault => .error fault
        | .ok ⟨more, rest', h''⟩ => .ok ⟨item :: more, rest', by omega⟩
termination_by (ts.length, 18)

def entries (ts : List Token) : Parse (List (PropertyKey × Node)) (ts.length + 1) :=
  if startsWith "\x7d" ts then .ok ⟨[], ts, by omega⟩
  else
    match propertyKey ts with
    | .error fault => .error fault
    | .ok ⟨key, beforeColon, h⟩ =>
      match require ":" beforeColon with
      | .error fault => .error fault
      | .ok ⟨_, afterColon, h'⟩ =>
        match assignment afterColon with
        | .error fault => .error fault
        | .ok ⟨value, rest, h''⟩ =>
          match accept? "," rest with
          | none => .ok ⟨[(key, value)], rest, by omega⟩
          | some ⟨_, afterComma, hc⟩ =>
            match entries afterComma with
            | .error fault => .error fault
            | .ok ⟨more, rest', hm⟩ => .ok ⟨(key, value) :: more, rest', by omega⟩
termination_by (ts.length, 18)
end

/-! ## Programs -/

/-- Whether no statement starts here: at the end, before a semicolon, and before a closing bracket,
which then is left over. -/
def startsNoStatement (ts : List Token) : Bool :=
  ts.isEmpty || ["\x7d", ")", ";", "]"].any (startsWith · ts)

def statement? (ts : List Token) : Parse (List Node) (ts.length + 1) :=
  if startsNoStatement ts then .ok ⟨[], ts, by omega⟩
  else
    match pipeline ts with
    | .error fault => .error fault
    | .ok ⟨tree, rest, h⟩ => .ok ⟨[tree], rest, by omega⟩

def statements (ts : List Token) : Parse (List Node) (ts.length + 1) :=
  match statement? ts with
  | .error fault => .error fault
  | .ok ⟨first, rest, h⟩ =>
    match accept? ";" rest with
    | none => .ok ⟨first, rest, h⟩
    | some ⟨_, afterSemicolon, h'⟩ =>
      match statements afterSemicolon with
      | .error fault => .error fault
      | .ok ⟨more, rest', h''⟩ => .ok ⟨first ++ more, rest', by omega⟩
termination_by ts.length

end Grammar

/-- The tree of a whole list of tokens. Tokens that no rule takes are an error. -/
def Node.ofTokens (ts : List Token) : Except ParseError Node :=
  match Grammar.statements ts with
  | .error fault => .error fault
  | .ok ⟨body, [], _⟩ => .ok (.program false body)
  | .ok ⟨_, token :: _, _⟩ => .error (.unexpectedToken token.text .endOfExpression token.position)

end TemplateExpr

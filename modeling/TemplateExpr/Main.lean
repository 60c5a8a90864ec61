import TemplateExpr.Command

/-!
# The command line

Reads the arguments of a command, runs it and prints what it leaves behind. The standard input is
read only when it can serve as the context.
-/

namespace TemplateExpr.Command

structure Arguments where
  expression : Option String := none
  context : Option String := none
  locals : Option String := none
  pretty : Bool := false
  showContext : Bool := false

/-- Reads the arguments behind the name of a command. Behind `--` everything is an expression. -/
def readArguments (read : Arguments) : List String → Option Arguments
  | [] => some read
  | "--" :: rest =>
    match rest, read.expression with
    | [], _ => some read
    | [expression], none => some { read with expression }
    | _, _ => none
  | "-c" :: text :: rest | "--context" :: text :: rest =>
    readArguments { read with context := text } rest
  | "-l" :: text :: rest | "--locals" :: text :: rest =>
    readArguments { read with locals := text } rest
  | "-p" :: rest | "--pretty" :: rest => readArguments { read with pretty := true } rest
  | "--show-context" :: rest => readArguments { read with showContext := true } rest
  | "-v" :: rest | "--verbose" :: rest => readArguments read rest
  | word :: rest =>
    if read.expression.isSome || word.startsWith "-" then none
    else readArguments { read with expression := word } rest

def readRequest : List String → Option Request
  | "-v" :: rest | "--verbose" :: rest => readRequest rest
  | "eval" :: rest => do
    let read ← readArguments {} rest
    return .eval ⟨← read.expression, read.context, read.locals⟩ read.pretty read.showContext
  | "check" :: rest => do return .check (← (← readArguments {} rest).expression)
  | "tokens" :: rest => do return .tokens (← (← readArguments {} rest).expression)
  | _ => none

def Request.readsInput : Request → Bool
  | .eval options _ _ => options.context.isNone
  | _ => false

end TemplateExpr.Command

open TemplateExpr.Command in
def main (arguments : List String) : IO UInt32 := do
  match readRequest arguments with
  | none =>
    IO.eprintln "usage: eval EXPRESSION [-c JSON] [-l JSON] [-p] [--show-context]"
    IO.eprintln "       check EXPRESSION"
    IO.eprintln "       tokens EXPRESSION"
    return 2
  | some request =>
    let stdin ← IO.getStdin
    let text ← do
      if request.readsInput && !(← stdin.isTty) then stdin.readToEnd else pure ""
    let outcome := run request text
    IO.print outcome.stdout
    IO.eprint outcome.stderr
    return outcome.code.toUInt32

import TemplateExpr.Json.Document
import TemplateExpr.Number.Layout
import TemplateExpr.Text.Blank
import TemplateExpr.Text.Escape

/-!
# Values as JSON text

The text of a value in one of two layouts: compact, without any blanks, or pretty, with an entry a
line and two blanks for each level. Either way the members of an object are sorted by name, so that
equal records have equal texts. The absent and functions are left out of objects and are `null`
elsewhere; names that start with two dollar signs are for bookkeeping and are left out as well.
-/

namespace TemplateExpr

open Number Text

namespace Json

inductive Layout where
  | compact | pretty
deriving DecidableEq, Repr

/-- A character inside quotes. Quotes, backslashes and control characters are escaped. -/
def escapeChar (c : Char) : List Char :=
  if c = '"' then ['\\', '"']
  else if c = '\\' then ['\\', '\\']
  else if c = '\n' then ['\\', 'n']
  else if c = '\r' then ['\\', 'r']
  else if c = '\t' then ['\\', 't']
  else if isControl c then '\\' :: 'u' :: hexCode c
  else [c]

def quoted (text : String) : List Char := '"' :: text.toList.flatMap escapeChar ++ ['"']

def indentation (level : Nat) : List Char := List.replicate (2 * level) ' '

def bracketed (layout : Layout) (level : Nat) (opening closing : Char) (parts : List (List Char)) :
    List Char :=
  if parts.isEmpty then [opening, closing]
  else
    match layout with
    | .compact => opening :: [','].intercalate parts ++ [closing]
    | .pretty =>
      let lines := parts.map (indentation (level + 1) ++ ·)
      opening :: '\n' :: [',', '\n'].intercalate lines ++ '\n' :: indentation level ++ [closing]

/-- Whether a name is for bookkeeping. -/
def isInternal (key : String) : Bool := ['$', '$'].isPrefixOf key.toList

def sortByName {α : Type} (entries : List (String × α)) : List (String × α) :=
  entries.mergeSort fun a b => decide (a.1 ≤ b.1)

def member (layout : Layout) (entry : String × List Char) : List Char :=
  quoted entry.1 ++ (match layout with | .compact => [':'] | .pretty => [':', ' ']) ++ entry.2

mutual
def render (layout : Layout) (level : Nat) : Value → List Char
  | .undefined | .null | .function _ => "null".toList
  | .boolean b => if b then "true".toList else "false".toList
  | .integer n => integerText n.toInt
  | .float x => if isFinite x then plainLayout.render x else "null".toList
  | .text s => quoted s
  | .array items => bracketed layout level '[' ']' (renderItems layout (level + 1) items)
  | .record entries =>
    let members := sortByName (renderEntries layout (level + 1) entries)
    bracketed layout level '{' '}' (members.map (member layout))

def renderItems (layout : Layout) (level : Nat) : List Value → List (List Char)
  | [] => []
  | item :: items => render layout level item :: renderItems layout level items

def renderEntries (layout : Layout) (level : Nat) :
    List (String × Value) → List (String × List Char)
  | [] => []
  | (key, item) :: entries =>
    if isInternal key || item.isUnwritable then renderEntries layout level entries
    else (key, render layout level item) :: renderEntries layout level entries
end

end Json

def Value.toJson (layout : Json.Layout) (value : Value) : String :=
  String.ofList (Json.render layout 0 value)

end TemplateExpr

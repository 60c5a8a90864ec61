import TemplateExpr.Main
import TemplateExpr.Proofs.Number.Digits
import TemplateExpr.Proofs.Value.Member
import TemplateExpr.Proofs.Token.Spelling
import TemplateExpr.Proofs.Tree.Attachment
import TemplateExpr.Proofs.Tree.Reading
import TemplateExpr.Proofs.Tree.Soundness
import TemplateExpr.Proofs.Tree.Completeness
import TemplateExpr.Proofs.Filter.Agreement
import TemplateExpr.Proofs.Program.Access
import TemplateExpr.Proofs.Program.Allowed
import TemplateExpr.Proofs.Program.Sandbox
import TemplateExpr.Proofs.Program.Calls
import TemplateExpr.Proofs.Program.Contact
import TemplateExpr.Proofs.Filter.Determinism
import TemplateExpr.Proofs.Program.Inversion
import TemplateExpr.Proofs.Program.Constancy
import TemplateExpr.Proofs.Engine.Session
import TemplateExpr.Proofs.Engine.Transparency
import TemplateExpr.Proofs.Program.Interpreter
import TemplateExpr.Proofs.Program.Order
import TemplateExpr.Proofs.Program.Rollback
import TemplateExpr.Proofs.Number.Bits
import TemplateExpr.Proofs.Number.Rounding
import TemplateExpr.Proofs.Number.Shortest
import TemplateExpr.Proofs.Number.Plain
import TemplateExpr.Proofs.Text.Escape
import TemplateExpr.Proofs.Value.Equality
import TemplateExpr.Proofs.Value.Parts
import TemplateExpr.Proofs.Token.Scan
import TemplateExpr.Proofs.Program.Frame
import TemplateExpr.Proofs.Program.Literal
import TemplateExpr.Proofs.Program.Lens
import TemplateExpr.Proofs.Json.Shape
import TemplateExpr.Proofs.Json.Number
import TemplateExpr.Proofs.Json.Phrase
import TemplateExpr.Proofs.Json.Literal
import TemplateExpr.Proofs.Json.Grammar
import TemplateExpr.Proofs.Json.Unambiguity
import TemplateExpr.Proofs.Json.Denotation
import TemplateExpr.Proofs.Program.Parts
import TemplateExpr.Proofs.Program.Shape
import TemplateExpr.Proofs.Program.Visibility
import TemplateExpr.Proofs.Token.Seam
import TemplateExpr.Proofs.Tree.Sequence
import TemplateExpr.Proofs.Program.Sequence
import TemplateExpr.Proofs.Tree.Shape
import TemplateExpr.Proofs.Program.Fault
import TemplateExpr.Proofs.Engine.Refusal
import TemplateExpr.Proofs.Token.Longest
import TemplateExpr.Proofs.Token.Tiling
import TemplateExpr.Proofs.Token.Quoted
import TemplateExpr.Proofs.Tree.Lookahead
import TemplateExpr.Proofs.Tree.Failing
import TemplateExpr.Proofs.Tree.Prefix
import TemplateExpr.Proofs.Program.Path
import TemplateExpr.Proofs.Token.Front
import TemplateExpr.Proofs.Tree.Spelling
import TemplateExpr.Proofs.Tree.Printer
import TemplateExpr.Proofs.Token.Word
import TemplateExpr.Proofs.Token.Spacing
import TemplateExpr.Proofs.Token.NumberLiteral
import TemplateExpr.Proofs.Program.ConstantFlag
import TemplateExpr.Proofs.Number.Order
import TemplateExpr.Proofs.Number.Notation
import TemplateExpr.Proofs.Program.LiteralKey
import TemplateExpr.Proofs.Number.Line
import TemplateExpr.Proofs.Number.DecimalTrip
import TemplateExpr.Proofs.Number.Operation
import TemplateExpr.Proofs.Number.DecimalBack
import TemplateExpr.Proofs.Number.FewDigits
import TemplateExpr.Proofs.Value.Comparison
import TemplateExpr.Proofs.Value.Arithmetic
import TemplateExpr.Proofs.Value.Symmetry
import TemplateExpr.Proofs.Value.Absent
import TemplateExpr.Proofs.Value.MemberLaws
import TemplateExpr.Proofs.Filter.Search
import TemplateExpr.Proofs.Filter.Leaves
import TemplateExpr.Proofs.Filter.Criteria
import TemplateExpr.Proofs.Text.Lowercase
import TemplateExpr.Proofs.Filter.Substring
import TemplateExpr.Proofs.Filter.Stretch
import TemplateExpr.Proofs.Filter.Reordering
import TemplateExpr.Proofs.Program.Data
import TemplateExpr.Proofs.Filter.Handed
import TemplateExpr.Proofs.Program.Assignment
import TemplateExpr.Proofs.Token.Advance
import TemplateExpr.Proofs.Tree.Termination

import DataFilter.Binding
import DataFilter.Check
import DataFilter.CommandLine
import DataFilter.CommandLine.Arguments
import DataFilter.CommandLine.Folder
import DataFilter.Entries
import DataFilter.Evaluation.Context
import DataFilter.Evaluation.Session
import DataFilter.Json
import DataFilter.Json.Numeral
import DataFilter.Json.Read
import DataFilter.Json.Render
import DataFilter.Json.Value
import DataFilter.Json.Written
import DataFilter.Main
import DataFilter.Node
import DataFilter.Node.Render
import DataFilter.Node.Scope
import DataFilter.Number.Binary64
import DataFilter.Number.Binary64.PlainText
import DataFilter.Number.Binary64.Shortest
import DataFilter.Number.Binary64.Whole
import DataFilter.Number.Decimal
import DataFilter.Number.Decimal.Arithmetic
import DataFilter.Number.Decimal.Binary
import DataFilter.Number.Integer
import DataFilter.Number.LongRemainder
import DataFilter.Number.Rounding
import DataFilter.Operation.Arithmetic
import DataFilter.Operation.Comparison
import DataFilter.Operation.Logic
import DataFilter.Operation.Table
import DataFilter.Operator
import DataFilter.Proofs.Entries
import DataFilter.Proofs.Evaluation.Collections
import DataFilter.Proofs.Evaluation.Completion
import DataFilter.Proofs.Evaluation.Documents
import DataFilter.Proofs.Evaluation.Failing
import DataFilter.Proofs.Evaluation.Following
import DataFilter.Proofs.Evaluation.Laws
import DataFilter.Proofs.Evaluation.Meaning
import DataFilter.Proofs.Evaluation.Quantifiers
import DataFilter.Proofs.Evaluation.Reuse
import DataFilter.Proofs.Evaluation.Unknown
import DataFilter.Proofs.Evaluation.Visiting
import DataFilter.Proofs.Json.Conversion
import DataFilter.Proofs.Json.Numerals
import DataFilter.Proofs.Json.Printed
import DataFilter.Proofs.Json.Rounded
import DataFilter.Proofs.Json.Strings
import DataFilter.Proofs.Node.Binding
import DataFilter.Proofs.Node.Filling
import DataFilter.Proofs.Node.Narrowing
import DataFilter.Proofs.Node.Scoped
import DataFilter.Proofs.Number.BinaryToDecimal
import DataFilter.Proofs.Number.Digits
import DataFilter.Proofs.Number.Monotone
import DataFilter.Proofs.Number.Nearest
import DataFilter.Proofs.Number.Nonzero
import DataFilter.Proofs.Number.Overflow
import DataFilter.Proofs.Number.RoundTrip
import DataFilter.Proofs.Number.TowardZero
import DataFilter.Proofs.Operation.Dispatch
import DataFilter.Proofs.Operation.DivisionByZero
import DataFilter.Proofs.Operation.Ordering
import DataFilter.Proofs.Operation.Ranks
import DataFilter.Proofs.Operation.Spans
import DataFilter.Proofs.Operation.Table
import DataFilter.Proofs.Operation.Transitivity
import DataFilter.Proofs.Operation.WholeNumbers
import DataFilter.Proofs.Outcome
import DataFilter.Proofs.Schema.Files
import DataFilter.Proofs.Specification
import DataFilter.Proofs.Specification.Arguments
import DataFilter.Proofs.Specification.Cache
import DataFilter.Proofs.Specification.NullTests
import DataFilter.Proofs.Specification.Reprinting
import DataFilter.Proofs.Sql.Agreement
import DataFilter.Proofs.Sql.Alias
import DataFilter.Proofs.Sql.Capture
import DataFilter.Proofs.Sql.Comments
import DataFilter.Proofs.Sql.Compiling
import DataFilter.Proofs.Sql.Deciding
import DataFilter.Proofs.Sql.Embedded
import DataFilter.Proofs.Sql.Failing
import DataFilter.Proofs.Sql.Independence
import DataFilter.Proofs.Sql.Lexing
import DataFilter.Proofs.Sql.Parameters
import DataFilter.Proofs.Sql.Parentheses
import DataFilter.Proofs.Sql.Paths
import DataFilter.Proofs.Sql.Reader
import DataFilter.Proofs.Sql.Reading
import DataFilter.Proofs.Sql.Referring
import DataFilter.Proofs.Sql.Semantics
import DataFilter.Proofs.Sql.Subqueries
import DataFilter.Proofs.Sql.Text
import DataFilter.Proofs.Template.Acceptance
import DataFilter.Proofs.Template.Ambiguity
import DataFilter.Proofs.Template.Completeness
import DataFilter.Proofs.Template.Completing
import DataFilter.Proofs.Template.Covering
import DataFilter.Proofs.Template.Dissection
import DataFilter.Proofs.Template.Embedding
import DataFilter.Proofs.Template.Expressible
import DataFilter.Proofs.Template.Extent
import DataFilter.Proofs.Template.Grammar
import DataFilter.Proofs.Template.Grounded
import DataFilter.Proofs.Template.Inversion
import DataFilter.Proofs.Template.Layout
import DataFilter.Proofs.Template.LexicalFaults
import DataFilter.Proofs.Template.Lexing
import DataFilter.Proofs.Template.Misreading
import DataFilter.Proofs.Template.Name
import DataFilter.Proofs.Template.Opening
import DataFilter.Proofs.Template.Position
import DataFilter.Proofs.Template.Printing
import DataFilter.Proofs.Template.Rules
import DataFilter.Proofs.Template.Soundness
import DataFilter.Proofs.Template.Spacing
import DataFilter.Proofs.Template.Spelling
import DataFilter.Proofs.Template.Stray
import DataFilter.Schema
import DataFilter.Schema.Json
import DataFilter.Specification
import DataFilter.Specification.Cache
import DataFilter.Sql.Compile
import DataFilter.Sql.Condition
import DataFilter.Sql.Identifier
import DataFilter.Template.Fault
import DataFilter.Template.Lexer
import DataFilter.Template.Parser
import DataFilter.Template.Shape
import DataFilter.Template.Token
import DataFilter.Text.Basic
import DataFilter.Text.Quoted
import DataFilter.Time.Duration
import DataFilter.Time.Instant
import DataFilter.Value

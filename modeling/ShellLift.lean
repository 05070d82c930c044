import ShellLift.Code.Emission
import ShellLift.Code.Literal
import ShellLift.Code.Settings
import ShellLift.Code.Settings.Document
import ShellLift.CommandLine
import ShellLift.Main
import ShellLift.Proofs.Addressed.Cursor
import ShellLift.Proofs.Addressed.Delimited
import ShellLift.Proofs.Addressed.Parser
import ShellLift.Proofs.Addressed.Reader
import ShellLift.Proofs.AliasDefinition
import ShellLift.Proofs.Allowance
import ShellLift.Proofs.Annotation
import ShellLift.Proofs.ArgumentList
import ShellLift.Proofs.AssignmentMarks
import ShellLift.Proofs.BlockStructure
import ShellLift.Proofs.BoundNames
import ShellLift.Proofs.CallWords
import ShellLift.Proofs.CommandEnvironment
import ShellLift.Proofs.ConcreteSyntax
import ShellLift.Proofs.Continuation
import ShellLift.Proofs.Declarations
import ShellLift.Proofs.Delimited
import ShellLift.Proofs.Derivation
import ShellLift.Proofs.DiagnosticPlaces
import ShellLift.Proofs.Environment
import ShellLift.Proofs.Exported
import ShellLift.Proofs.Expressible
import ShellLift.Proofs.ForwardQuotation
import ShellLift.Proofs.Framing
import ShellLift.Proofs.Heads
import ShellLift.Proofs.InPlace
import ShellLift.Proofs.IntegerReaders
import ShellLift.Proofs.JoinedLines
import ShellLift.Proofs.Keywords
import ShellLift.Proofs.Lexeme
import ShellLift.Proofs.LiteralSpans
import ShellLift.Proofs.LogicalLine
import ShellLift.Proofs.Offsets
import ShellLift.Proofs.Outline
import ShellLift.Proofs.Passage
import ShellLift.Proofs.PathAssignment
import ShellLift.Proofs.PathSplice
import ShellLift.Proofs.Pieces
import ShellLift.Proofs.Placement
import ShellLift.Proofs.Progress
import ShellLift.Proofs.QuotedCommand
import ShellLift.Proofs.Rendering
import ShellLift.Proofs.Resolution
import ShellLift.Proofs.Scope
import ShellLift.Proofs.SessionFrame
import ShellLift.Proofs.ShellCalls
import ShellLift.Proofs.ShellWords
import ShellLift.Proofs.Spans
import ShellLift.Proofs.Steps
import ShellLift.Proofs.Termination
import ShellLift.Proofs.TildeExpansion
import ShellLift.Proofs.TrailingComment
import ShellLift.Proofs.TypedAssignment
import ShellLift.Proofs.UnusedBuiltins
import ShellLift.Proofs.WellFormed
import ShellLift.Script.Cursor
import ShellLift.Script.Delimited
import ShellLift.Script.Diagnostic
import ShellLift.Script.Expression
import ShellLift.Script.Expression.Reader
import ShellLift.Script.Location
import ShellLift.Script.Rule
import ShellLift.Script.Statement
import ShellLift.Script.Statement.Reader
import ShellLift.Session.Basic
import ShellLift.Session.Failure
import ShellLift.Session.PathList
import ShellLift.Session.Run
import ShellLift.Session.Shell
import ShellLift.Session.Store
import ShellLift.Session.Value
import ShellLift.Table
import ShellLift.Text.Basic
import ShellLift.Text.Numeral
import ShellLift.Text.Printable
import ShellLift.Toml.Document
import ShellLift.Toml.Node
import ShellLift.Toml.Scalar
import ShellLift.Toml.Scan

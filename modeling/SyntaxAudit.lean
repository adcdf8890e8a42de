import SyntaxAudit.Checker
import SyntaxAudit.Checker.Production
import SyntaxAudit.Checker.Returning
import SyntaxAudit.Checker.State
import SyntaxAudit.CommandLine.Arguments
import SyntaxAudit.CommandLine.Input
import SyntaxAudit.CommandLine.Resemblance
import SyntaxAudit.CommandLine.Session
import SyntaxAudit.Grammar.Derivation
import SyntaxAudit.Grammar.Goal
import SyntaxAudit.Grammar.Terminal
import SyntaxAudit.LexError
import SyntaxAudit.Lexeme
import SyntaxAudit.Main
import SyntaxAudit.Options
import SyntaxAudit.Outcome
import SyntaxAudit.Position
import SyntaxAudit.Report.Document
import SyntaxAudit.Report.Excerpt
import SyntaxAudit.Report.Framed
import SyntaxAudit.Report.Plain
import SyntaxAudit.Report.Rendering
import SyntaxAudit.Report.Structured
import SyntaxAudit.Scan
import SyntaxAudit.Span
import SyntaxAudit.Text.Blank
import SyntaxAudit.Text.CodeRange
import SyntaxAudit.Text.GraphemeExtender
import SyntaxAudit.Text.Quoted
import SyntaxAudit.Text.Unprintable
import SyntaxAudit.Text.Width
import SyntaxAudit.Text.ZeroWidth
import SyntaxAudit.Token
import SyntaxAudit.Violation
import SyntaxAudit.Vocabulary.Keyword
import SyntaxAudit.Vocabulary.Literal
import SyntaxAudit.Vocabulary.Operator
import SyntaxAudit.Vocabulary.Punctuation
import SyntaxAudit.Vocabulary.Reference
import SyntaxAudit.Proofs.Progress
import SyntaxAudit.Proofs.GoalCode
import SyntaxAudit.Proofs.Simulation
import SyntaxAudit.Proofs.Damage
import SyntaxAudit.Proofs.Recovery
import SyntaxAudit.Proofs.Recognition
import SyntaxAudit.Proofs.ViablePrefix
import SyntaxAudit.Proofs.Partition
import SyntaxAudit.Proofs.ScannedTokens
import SyntaxAudit.Proofs.Termination
import SyntaxAudit.Proofs.Detection
import SyntaxAudit.Proofs.Rejection
import SyntaxAudit.Proofs.EndMark
import SyntaxAudit.Proofs.Strictness
import SyntaxAudit.Proofs.SourceOrder
import SyntaxAudit.Proofs.Stability
import SyntaxAudit.Proofs.Printing
import SyntaxAudit.Proofs.Composition
import SyntaxAudit.Proofs.Location
import SyntaxAudit.Proofs.TokenClasses
import SyntaxAudit.Proofs.Rescan
import SyntaxAudit.Proofs.LineBreak
import SyntaxAudit.Proofs.Closing
import SyntaxAudit.Proofs.Classification
import SyntaxAudit.Proofs.Endings
import SyntaxAudit.Proofs.Pulling
import SyntaxAudit.Proofs.Filtering
import SyntaxAudit.Proofs.Blanking
import SyntaxAudit.Proofs.Truncation
import SyntaxAudit.Proofs.ReportCount
import SyntaxAudit.Proofs.Driving
import SyntaxAudit.Proofs.Resumption
import SyntaxAudit.Proofs.Brackets
import SyntaxAudit.Proofs.Offsets
import SyntaxAudit.Proofs.SelfDelimiting
import SyntaxAudit.Proofs.PlainReports
import SyntaxAudit.Proofs.Listing
import SyntaxAudit.Proofs.JsonReading
import SyntaxAudit.Proofs.JsonReports

import SyntaxAudit.LexError
import SyntaxAudit.Outcome
import SyntaxAudit.Report.Document

/-! Reports as JSON documents. The fields of a record stand in alphabetical order. -/
namespace SyntaxAudit

def Document.finding (position : Position) (message code : String) : Document :=
  .record
    [("code", .text code), ("column", .number position.column), ("line", .number position.line),
      ("message", .text message)]

def Outcome.document (file : String) (o : Outcome) : Document :=
  .record
    [("error_count", .number o.errorCount),
      ("errors", .list (o.violations.map fun v =>
        .finding v.position v.kind.message v.kind.code)),
      ("file", .text file)]

def LexError.document (file : String) (errors : List LexError) : Document :=
  .record
    [("file", .text file),
      ("lex_errors", .list (errors.map fun e => .finding e.position e.message e.cause.code))]

end SyntaxAudit

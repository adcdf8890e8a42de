import SyntaxAudit.Options
import SyntaxAudit.Report.Framed
import SyntaxAudit.Report.Plain
import SyntaxAudit.Report.Structured

/-! The text of a report in each of the formats. -/
namespace SyntaxAudit.ReportFormat

def outcomeText (format : ReportFormat) (p : Painter) (file source : String) (o : Outcome) :
    String :=
  match format with
  | plain => o.plainText
  | pretty => o.framedText p file source
  | json => (o.document file).render

def lexErrorText (format : ReportFormat) (p : Painter) (file source : String)
    (errors : List LexError) : String :=
  match format with
  | plain => LexError.plainText file errors
  | pretty => LexError.framedText p file source errors
  | json => (LexError.document file errors).render

end SyntaxAudit.ReportFormat

import SyntaxAudit.LexError
import SyntaxAudit.Outcome

/-! Reports in plain lines of text. -/
namespace SyntaxAudit

def Outcome.summary (o : Outcome) : String :=
  "Parsing completed with " ++ o.errorCount.repr ++ " errors"

def Outcome.plainText (o : Outcome) : String :=
  String.join (o.violations.map fun v => v.message ++ "\n")

def LexError.plainText (file : String) (errors : List LexError) : String :=
  String.intercalate "\n" (errors.map fun e => file ++ ": " ++ e.message)

end SyntaxAudit

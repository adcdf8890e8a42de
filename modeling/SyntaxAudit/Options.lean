import SyntaxAudit.Checker
import SyntaxAudit.Scan

/-! The settings of a check, and the check of a source text under them. -/
namespace SyntaxAudit

inductive ReportFormat
  | plain
  | pretty
  | json
deriving DecidableEq

structure CheckOptions where
  scan : ScanOptions := {}
  terminator : TerminatorPolicy := .anyPunctuation
  format : ReportFormat := .plain
  /-- Violations make the check fail. -/
  denyErrors : Bool := false
deriving DecidableEq

namespace CheckOptions

def withFormat (o : CheckOptions) (format : ReportFormat) : CheckOptions :=
  { o with format }

def withStrictSemicolons (o : CheckOptions) (strict : Bool) : CheckOptions :=
  { o with terminator := if strict then .semicolonOnly else .anyPunctuation }

def withKeepComments (o : CheckOptions) (keep : Bool) : CheckOptions :=
  { o with scan := { o.scan with keepComments := keep } }

def withDenyErrors (o : CheckOptions) (deny : Bool) : CheckOptions :=
  { o with denyErrors := deny }

def exitCode (o : CheckOptions) (outcome : Outcome) : Nat :=
  if o.denyErrors && !outcome.isClean then 1 else 0

end CheckOptions

/-- Checks a source text. A text with lexical errors is not checked any further. -/
def checkSource (options : CheckOptions) (source : String) : Except (List LexError) Outcome :=
  (scan options.scan source).map (checkTokens options.terminator)

end SyntaxAudit

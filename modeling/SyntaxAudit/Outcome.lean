import SyntaxAudit.Violation

/-! The outcome of a check. -/
namespace SyntaxAudit

structure Outcome where
  violations : List Violation
  errorCount : Nat
  consumed : Nat
  tokenCount : Nat
deriving DecidableEq

def Outcome.isClean (o : Outcome) : Bool :=
  o.errorCount == 0

end SyntaxAudit

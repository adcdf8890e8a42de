import SyntaxAudit.Grammar.Terminal

/-! The grammar: which sequences of terminals are programs. -/
namespace SyntaxAudit

inductive Phrase
  | statements
  | statement
  | conditional
  | block
  | parameters
deriving DecidableEq

/-- The sequences of terminals of each construct, where a policy says what ends a statement. -/
inductive Derives (policy : TerminatorPolicy) : Phrase → List Terminal → Prop
  | noStatements : Derives policy .statements []
  | moreStatements {first rest : List Terminal} :
      Derives policy .statement first → Derives policy .statements rest →
      Derives policy .statements (first ++ rest)
  | expression {value last : Terminal} :
      value.isOperand = true → policy.accepts last = true →
      Derives policy .statement [value, last]
  | declaration {opener : Keyword} {last : Terminal} :
      opener.declaresVariable = true → policy.accepts last = true →
      Derives policy .statement [.word opener, .name, last]
  | initialization {opener : Keyword} {value last : Terminal} :
      opener.declaresVariable = true → value.isOperand = true → policy.accepts last = true →
      Derives policy .statement [.word opener, .name, .assign, value, last]
  | function {names body : List Terminal} :
      Derives policy .parameters names → Derives policy .block body →
      Derives policy .statement
        (.word .kwFunction :: .name :: .mark .leftParen ::
          (names ++ .mark .rightParen :: body))
  | loop {value : Terminal} {body : List Terminal} :
      value.isOperand = true → Derives policy .block body →
      Derives policy .statement
        (.word .kwWhile :: .mark .leftParen :: value :: .mark .rightParen :: body)
  | choice {text : List Terminal} :
      Derives policy .conditional text → Derives policy .statement text
  | ifOnly {value : Terminal} {body : List Terminal} :
      value.isOperand = true → Derives policy .block body →
      Derives policy .conditional
        (.word .kwIf :: .mark .leftParen :: value :: .mark .rightParen :: body)
  | ifElse {value : Terminal} {body other : List Terminal} :
      value.isOperand = true → Derives policy .block body → Derives policy .block other →
      Derives policy .conditional
        (.word .kwIf :: .mark .leftParen :: value :: .mark .rightParen ::
          (body ++ .word .kwElse :: other))
  | ifElseIf {value : Terminal} {body other : List Terminal} :
      value.isOperand = true → Derives policy .block body → Derives policy .conditional other →
      Derives policy .conditional
        (.word .kwIf :: .mark .leftParen :: value :: .mark .rightParen ::
          (body ++ .word .kwElse :: other))
  | braces {body : List Terminal} :
      Derives policy .statements body →
      Derives policy .block (.mark .leftBrace :: (body ++ [.mark .rightBrace]))
  | noParameters : Derives policy .parameters []
  | parameter {rest : List Terminal} :
      Derives policy .parameters rest → Derives policy .parameters (.name :: rest)
  | parameterComma {rest : List Terminal} :
      Derives policy .parameters rest →
      Derives policy .parameters (.name :: .mark .comma :: rest)

def IsProgram (policy : TerminatorPolicy) (text : List Terminal) : Prop :=
  Derives policy .statements text

end SyntaxAudit

import SyntaxAudit.Grammar.Terminal
import SyntaxAudit.Violation

/-! Goals: what an unfinished construct still waits for. A machine without recursion keeps a stack
of goals, the innermost first, and hands each terminal to the goals until one of them takes it. -/
namespace SyntaxAudit

inductive Conditional
  | ifHead
  | whileHead
deriving DecidableEq

inductive Goal
  | functionName
  | parametersOpen
  /-- A parameter, or the parenthesis after the last one. -/
  | parameter
  /-- A comma after a parameter, which may be missing. -/
  | parameterComma
  | blockOpen
  /-- The statements of a block and the brace after them. -/
  | blockRest
  | variableName
  /-- An equals sign after the name of a variable, which may be missing. -/
  | initializer
  | initialValue
  | terminator
  | conditionOpen (head : Conditional)
  | condition (head : Conditional)
  | conditionClose (head : Conditional)
  /-- The word `else` after the block of an `if`, which may be missing. -/
  | elseClause
  /-- What follows `else`: another `if` or a block. -/
  | elseBody
deriving DecidableEq

/-- What a goal does with a terminal: it takes it and is replaced by other goals, or it leaves it
to the goal below and is given up. Either way there may be something to report. -/
inductive Move
  | take (report : Option ViolationKind) (next : List Goal)
  | leave (report : Option ViolationKind)
deriving DecidableEq

def Conditional.body : Conditional → List Goal
  | ifHead => [.blockOpen, .elseClause]
  | whileHead => [.blockOpen]

/-- A statement begins with any terminal: with a word that opens a construct, with an operand,
or else with one that is reported and taken all the same. -/
def opening : Terminal → Option ViolationKind × List Goal
  | .word .kwFunction => (none, [.functionName])
  | .word .kwVar => (none, [.variableName])
  | .word .kwLet => (none, [.variableName])
  | .word .kwConst => (none, [.variableName])
  | .word .kwIf => (none, [.conditionOpen .ifHead])
  | .word .kwWhile => (none, [.conditionOpen .whileHead])
  | .keyword _ => (some .unexpectedKeyword, [])
  | .name => (none, [.terminator])
  | .literal => (none, [.terminator])
  | _ => (some .expectedExpression, [.terminator])

inductive Opens : Terminal → Option ViolationKind → List Goal → Prop
  | function : Opens (.word .kwFunction) none [.functionName]
  | declaration {k : Keyword} : k.declaresVariable = true → Opens (.word k) none [.variableName]
  | choice : Opens (.word .kwIf) none [.conditionOpen .ifHead]
  | loop : Opens (.word .kwWhile) none [.conditionOpen .whileHead]
  | unexpected {word : Option Keyword} :
      (∀ k ∈ word, k ∉ [.kwFunction, .kwVar, .kwLet, .kwConst, .kwIf, .kwWhile]) →
      Opens (.keyword word) (some .unexpectedKeyword) []
  | operand {t : Terminal} : t.isOperand = true → Opens t none [.terminator]
  | noOperand {t : Terminal} :
      (∀ word, t ≠ .keyword word) → t.isOperand = false →
      Opens t (some .expectedExpression) [.terminator]

/-- There are no other openings than these. -/
theorem opens_opening (t : Terminal) : Opens t (opening t).1 (opening t).2 := by
  cases t with
  | keyword word =>
    cases word with
    | none => exact .unexpected nofun
    | some k =>
      cases k with
      | kwFunction => exact .function
      | kwVar | kwLet | kwConst => exact .declaration rfl
      | kwIf => exact .choice
      | kwWhile => exact .loop
      | _ => exact .unexpected (by decide)
  | name | literal => exact .operand rfl
  | sign | assign | other => exact .noOperand nofun rfl

theorem opens_of_eq {t : Terminal} {report : Option ViolationKind} {next : List Goal}
    (h : opening t = (report, next)) : Opens t report next := by
  have hopens := opens_opening t
  rwa [h] at hopens

theorem opening_of_ne_keyword {t : Terminal} (h : ∀ word, t ≠ .keyword word) :
    opening t = (if t.isOperand then none else some .expectedExpression, [.terminator]) := by
  cases t with
  | keyword word => exact absurd rfl (h word)
  | _ => rfl

namespace Goal

def takeOperand (t : Terminal) (next : List Goal) : Move :=
  .take (if t.isOperand then none else some .expectedExpression) next

def moveTerminator (policy : TerminatorPolicy) (t : Terminal) : Move :=
  if policy.accepts t then .take none [] else .leave (some .expectedSemicolon)

def moveParameter : Terminal → Move
  | .name => .take none [.parameterComma]
  | .mark .rightParen => .take none [.blockOpen]
  | _ => .leave (some .expectedParameterName)

def move (policy : TerminatorPolicy) : Goal → Terminal → Move
  | functionName, .name => .take none [parametersOpen]
  | functionName, _ => .leave (some .expectedFunctionName)
  | parametersOpen, .mark .leftParen => .take none [parameter]
  | parametersOpen, _ => .leave (some .expectedOpenParen)
  | parameter, t => moveParameter t
  | parameterComma, .mark .comma => .take none [parameter]
  | parameterComma, t => moveParameter t
  | blockOpen, .mark .leftBrace => .take none [blockRest]
  | blockOpen, _ => .leave (some .expectedOpenBrace)
  | blockRest, .mark .rightBrace => .take none []
  | blockRest, t => .take (opening t).1 ((opening t).2 ++ [blockRest])
  | variableName, .name => .take none [initializer]
  | variableName, _ => .leave (some .expectedVariableName)
  | initializer, .assign => .take none [initialValue]
  | initializer, t => moveTerminator policy t
  | initialValue, t => takeOperand t [terminator]
  | terminator, t => moveTerminator policy t
  | conditionOpen head, .mark .leftParen => .take none [condition head]
  | conditionOpen _, _ => .leave (some .expectedOpenParen)
  | condition head, t => takeOperand t [conditionClose head]
  | conditionClose head, .mark .rightParen => .take none head.body
  | conditionClose _, _ => .leave (some .expectedCloseParen)
  | elseClause, .word .kwElse => .take none [elseBody]
  | elseClause, _ => .leave none
  | elseBody, .word .kwIf => .take none [conditionOpen .ifHead]
  | elseBody, .mark .leftBrace => .take none [blockRest]
  | elseBody, _ => .leave (some .expectedOpenBrace)

/-- The goals that ask for one terminal, with what comes behind it and the report on its absence. -/
inductive Awaits : Goal → Terminal → List Goal → ViolationKind → Prop
  | functionName : Awaits functionName .name [parametersOpen] .expectedFunctionName
  | parametersOpen : Awaits parametersOpen (.mark .leftParen) [parameter] .expectedOpenParen
  | blockOpen : Awaits blockOpen (.mark .leftBrace) [blockRest] .expectedOpenBrace
  | variableName : Awaits variableName .name [initializer] .expectedVariableName
  | conditionOpen (head : Conditional) :
      Awaits (conditionOpen head) (.mark .leftParen) [condition head] .expectedOpenParen
  | conditionClose (head : Conditional) :
      Awaits (conditionClose head) (.mark .rightParen) head.body .expectedCloseParen

inductive AwaitsOperand : Goal → List Goal → Prop
  | initialValue : AwaitsOperand initialValue [terminator]
  | condition (head : Conditional) : AwaitsOperand (condition head) [conditionClose head]

inductive AwaitsParameter (t : Terminal) : Goal → Prop
  | parameter : AwaitsParameter t parameter
  | noComma : t ≠ .mark .comma → AwaitsParameter t parameterComma

inductive AwaitsTerminator (t : Terminal) : Goal → Prop
  | noEqualsSign : t ≠ .assign → AwaitsTerminator t initializer
  | terminator : AwaitsTerminator t terminator

inductive Moves (policy : TerminatorPolicy) : Goal → Terminal → Move → Prop
  | awaited {g : Goal} {t : Terminal} {next : List Goal} {kind : ViolationKind} :
      Awaits g t next kind → Moves policy g t (.take none next)
  | missing {g : Goal} {t u : Terminal} {next : List Goal} {kind : ViolationKind} :
      Awaits g u next kind → t ≠ u → Moves policy g t (.leave (some kind))
  | operand {g : Goal} {t : Terminal} {next : List Goal} :
      AwaitsOperand g next → t.isOperand = true → Moves policy g t (.take none next)
  | noOperand {g : Goal} {t : Terminal} {next : List Goal} :
      AwaitsOperand g next → t.isOperand = false →
      Moves policy g t (.take (some .expectedExpression) next)
  | parameterName {g : Goal} :
      AwaitsParameter .name g → Moves policy g .name (.take none [parameterComma])
  | parametersEnd {g : Goal} :
      AwaitsParameter (.mark .rightParen) g →
      Moves policy g (.mark .rightParen) (.take none [blockOpen])
  | noParameter {g : Goal} {t : Terminal} :
      AwaitsParameter t g → t ≠ .name → t ≠ .mark .rightParen →
      Moves policy g t (.leave (some .expectedParameterName))
  | comma : Moves policy parameterComma (.mark .comma) (.take none [parameter])
  | statementEnd {g : Goal} {t : Terminal} :
      AwaitsTerminator t g → policy.accepts t = true → Moves policy g t (.take none [])
  | noStatementEnd {g : Goal} {t : Terminal} :
      AwaitsTerminator t g → policy.accepts t = false →
      Moves policy g t (.leave (some .expectedSemicolon))
  | equalsSign : Moves policy initializer .assign (.take none [initialValue])
  | blockEnd : Moves policy blockRest (.mark .rightBrace) (.take none [])
  | blockStatement {t : Terminal} {report : Option ViolationKind} {next : List Goal} :
      t ≠ .mark .rightBrace → opening t = (report, next) →
      Moves policy blockRest t (.take report (next ++ [blockRest]))
  | otherwise : Moves policy elseClause (.word .kwElse) (.take none [elseBody])
  | noElse {t : Terminal} : t ≠ .word .kwElse → Moves policy elseClause t (.leave none)
  | elseIf : Moves policy elseBody (.word .kwIf) (.take none [conditionOpen .ifHead])
  | elseBlock : Moves policy elseBody (.mark .leftBrace) (.take none [blockRest])
  | noElseBody {t : Terminal} :
      t ≠ .word .kwIf → t ≠ .mark .leftBrace →
      Moves policy elseBody t (.leave (some .expectedOpenBrace))

section Moves
variable {policy : TerminatorPolicy} {g : Goal} {next : List Goal}

theorem moves_takeOperand (h : AwaitsOperand g next) (t : Terminal) :
    Moves policy g t (takeOperand t next) := by
  cases ht : t.isOperand <;> simp only [takeOperand, ht]
  · exact .noOperand h ht
  · exact .operand h ht

theorem moves_moveTerminator {t : Terminal} (h : AwaitsTerminator t g) :
    Moves policy g t (moveTerminator policy t) := by
  cases ht : policy.accepts t <;> simp only [moveTerminator, ht]
  · exact .noStatementEnd h ht
  · exact .statementEnd h ht

theorem moves_moveParameter {t : Terminal} (h : AwaitsParameter t g) :
    Moves policy g t (moveParameter t) := by
  unfold moveParameter
  split
  · exact .parameterName h
  · exact .parametersEnd h
  · exact .noParameter h ‹_› ‹_›

/-- There is no other move than these. -/
theorem moves_move (policy : TerminatorPolicy) (g : Goal) (t : Terminal) :
    Moves policy g t (g.move policy t) := by
  unfold move
  split
  · exact .awaited .functionName
  · exact .missing .functionName ‹_›
  · exact .awaited .parametersOpen
  · exact .missing .parametersOpen ‹_›
  · exact moves_moveParameter .parameter
  · exact .comma
  · exact moves_moveParameter (.noComma ‹_›)
  · exact .awaited .blockOpen
  · exact .missing .blockOpen ‹_›
  · exact .blockEnd
  · exact .blockStatement ‹_› rfl
  · exact .awaited .variableName
  · exact .missing .variableName ‹_›
  · exact .equalsSign
  · exact moves_moveTerminator (.noEqualsSign ‹_›)
  · exact moves_takeOperand .initialValue _
  · exact moves_moveTerminator .terminator
  · exact .awaited (.conditionOpen _)
  · exact .missing (.conditionOpen _) ‹_›
  · exact moves_takeOperand (.condition _) _
  · exact .awaited (.conditionClose _)
  · exact .missing (.conditionClose _) ‹_›
  · exact .otherwise
  · exact .noElse ‹_›
  · exact .elseIf
  · exact .elseBlock
  · exact .noElseBody ‹_› ‹_›

theorem moves_of_eq {t : Terminal} {m : Move} (h : g.move policy t = m) : Moves policy g t m :=
  h ▸ moves_move policy g t

end Moves

def atEnd : Goal → List ViolationKind
  | functionName => [.expectedFunctionName]
  | parametersOpen => [.expectedOpenParen]
  | parameter => [.expectedCloseParen]
  | parameterComma => [.expectedCloseParen]
  | blockOpen => [.expectedOpenBrace]
  | blockRest => [.expectedCloseBrace]
  | variableName => [.expectedVariableName]
  | initializer => [.expectedSemicolon]
  | initialValue => [.expectedExpression, .expectedSemicolon]
  | terminator => [.expectedSemicolon]
  | conditionOpen _ => [.expectedOpenParen]
  | condition _ => [.expectedExpression, .expectedCloseParen]
  | conditionClose _ => [.expectedCloseParen]
  | elseClause => []
  | elseBody => [.expectedOpenBrace]

/-- Hands a terminal down a stack of goals. The result is what they report, and the stack after
the terminal was taken; there is none if every goal left it. -/
def settle (policy : TerminatorPolicy) (t : Terminal) :
    List Goal → List ViolationKind × Option (List Goal)
  | [] => ([], none)
  | g :: gs =>
    match g.move policy t with
    | .take report next => (report.toList, some (next ++ gs))
    | .leave report => (settle policy t gs).map (report.toList ++ ·) id

/-- Hands a terminal down a stack of goals; if every goal leaves it, it begins a statement. -/
def feed (policy : TerminatorPolicy) (t : Terminal) (goals : List Goal) :
    List ViolationKind × List Goal :=
  match settle policy t goals with
  | (reports, some left) => (reports, left)
  | (reports, none) => (reports ++ (opening t).1.toList, (opening t).2)

end Goal

end SyntaxAudit

/-! The reserved words of the scripting language and what the grammar does with each of them. -/
namespace SyntaxAudit

/-- The reserved words. Some of them open a construct of the grammar, `else` continues one,
and the rest are only set aside. -/
inductive Keyword
  | kwVar | kwLet | kwConst | kwFunction
  | kwIf | kwElse | kwWhile | kwFor | kwDo | kwSwitch | kwCase | kwDefault
  | kwReturn | kwBreak | kwContinue
deriving DecidableEq

namespace Keyword

inductive Category
  | declaration | controlFlow | jump
deriving DecidableEq

inductive Usage
  | statementStart | clause | unsupported
deriving DecidableEq

inductive Stability
  | stable | reserved
deriving DecidableEq

structure Sample where
  code : String
  note : Option String
deriving DecidableEq

def all : List Keyword :=
  [kwVar, kwLet, kwConst, kwFunction,
    kwIf, kwElse, kwWhile, kwFor, kwDo, kwSwitch, kwCase, kwDefault,
    kwReturn, kwBreak, kwContinue]

def spelling : Keyword → String
  | kwVar => "var"
  | kwLet => "let"
  | kwConst => "const"
  | kwFunction => "function"
  | kwIf => "if"
  | kwElse => "else"
  | kwWhile => "while"
  | kwFor => "for"
  | kwDo => "do"
  | kwSwitch => "switch"
  | kwCase => "case"
  | kwDefault => "default"
  | kwReturn => "return"
  | kwBreak => "break"
  | kwContinue => "continue"

def name : Keyword → String
  | kwVar => "Var"
  | kwLet => "Let"
  | kwConst => "Const"
  | kwFunction => "Function"
  | kwIf => "If"
  | kwElse => "Else"
  | kwWhile => "While"
  | kwFor => "For"
  | kwDo => "Do"
  | kwSwitch => "Switch"
  | kwCase => "Case"
  | kwDefault => "Default"
  | kwReturn => "Return"
  | kwBreak => "Break"
  | kwContinue => "Continue"

def category : Keyword → Category
  | kwVar | kwLet | kwConst | kwFunction => .declaration
  | kwIf | kwElse | kwWhile | kwFor | kwDo | kwSwitch | kwCase | kwDefault => .controlFlow
  | kwReturn | kwBreak | kwContinue => .jump

/-- The part each word plays: `else` is a clause of `if`, and a word that the grammar has no
construct for is unsupported. -/
def usage : Keyword → Usage
  | kwVar | kwLet | kwConst | kwFunction | kwIf | kwWhile => .statementStart
  | kwElse => .clause
  | _ => .unsupported

def stability (k : Keyword) : Stability :=
  match k.usage with
  | .unsupported => .reserved
  | _ => .stable

def declaresVariable : Keyword → Bool
  | kwVar | kwLet | kwConst => true
  | _ => false

def samples : Keyword → List Sample
  | kwVar => [⟨"var count = 0;", none⟩]
  | kwLet => [⟨"let name;", some "The initializer is optional."⟩]
  | kwConst => [⟨"const limit = 10;", none⟩]
  | kwFunction => [⟨"function add(a, b) \x7b a; \x7d", none⟩]
  | kwIf =>
    [⟨"if (ready) \x7b go; \x7d else if (waiting) \x7b wait; \x7d else \x7b stop; \x7d",
      some "`else if` chains nest to any depth."⟩]
  | kwWhile => [⟨"while (running) \x7b tick; \x7d", none⟩]
  | _ => []

def ofSpelling? (s : String) : Option Keyword :=
  all.find? (·.spelling == s)

theorem mem_all (k : Keyword) : k ∈ all := by
  cases k <;> decide

theorem ofSpelling?_spelling (k : Keyword) : ofSpelling? k.spelling = some k := by
  cases k <;> decide

theorem ofSpelling?_eq_some_iff {s : String} {k : Keyword} :
    ofSpelling? s = some k ↔ k.spelling = s := by
  constructor
  · intro h
    simpa using List.find?_some h
  · rintro rfl
    exact ofSpelling?_spelling k

namespace Category

def name : Category → String
  | declaration => "Declaration"
  | controlFlow => "ControlFlow"
  | jump => "Jump"

end Category

namespace Usage

def name : Usage → String
  | statementStart => "StatementStart"
  | clause => "Clause"
  | unsupported => "Unsupported"

end Usage

namespace Stability

def name : Stability → String
  | stable => "Stable"
  | reserved => "Reserved"

end Stability

end Keyword

end SyntaxAudit

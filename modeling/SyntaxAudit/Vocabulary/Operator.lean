/-! The operator signs, each of one or two characters. -/
namespace SyntaxAudit

inductive Operator
  | plus | minus | star | slash | percent
  | assign
  | eqEq | notEq | lt | ltEq | gt | gtEq
  | bang | amp | ampAmp | pipe | pipePipe | caret | question
  | colon | dot
deriving DecidableEq

namespace Operator

inductive Category
  | arithmetic | assignment | comparison | logical | access
deriving DecidableEq

def all : List Operator :=
  [plus, minus, star, slash, percent, assign, eqEq, notEq, lt, ltEq, gt, gtEq,
    bang, amp, ampAmp, pipe, pipePipe, caret, question, colon, dot]

def spelling : Operator → String
  | plus => "+"
  | minus => "-"
  | star => "*"
  | slash => "/"
  | percent => "%"
  | assign => "="
  | eqEq => "=="
  | notEq => "!="
  | lt => "<"
  | ltEq => "<="
  | gt => ">"
  | gtEq => ">="
  | bang => "!"
  | amp => "&"
  | ampAmp => "&&"
  | pipe => "|"
  | pipePipe => "||"
  | caret => "^"
  | question => "?"
  | colon => ":"
  | dot => "."

def name : Operator → String
  | plus => "Plus"
  | minus => "Minus"
  | star => "Star"
  | slash => "Slash"
  | percent => "Percent"
  | assign => "Assign"
  | eqEq => "EqEq"
  | notEq => "NotEq"
  | lt => "Lt"
  | ltEq => "LtEq"
  | gt => "Gt"
  | gtEq => "GtEq"
  | bang => "Bang"
  | amp => "Amp"
  | ampAmp => "AmpAmp"
  | pipe => "Pipe"
  | pipePipe => "PipePipe"
  | caret => "Caret"
  | question => "Question"
  | colon => "Colon"
  | dot => "Dot"

def category : Operator → Category
  | plus | minus | star | slash | percent => .arithmetic
  | assign => .assignment
  | eqEq | notEq | lt | ltEq | gt | gtEq => .comparison
  | bang | amp | ampAmp | pipe | pipePipe | caret | question => .logical
  | colon | dot => .access

def maxLength : Nat :=
  all.foldl (fun n o => max n o.spelling.length) 0

def ofSpelling? (s : String) : Option Operator :=
  all.find? (·.spelling == s)

def startsWith (c : Char) : Bool :=
  all.any (·.spelling.toList.head? == some c)

theorem mem_all (o : Operator) : o ∈ all := by
  cases o <;> decide

theorem ofSpelling?_spelling (o : Operator) : ofSpelling? o.spelling = some o := by
  cases o <;> decide

theorem ofSpelling?_eq_some_iff {s : String} {o : Operator} :
    ofSpelling? s = some o ↔ o.spelling = s := by
  constructor
  · intro h
    simpa using List.find?_some h
  · rintro rfl
    exact ofSpelling?_spelling o

def Category.name : Category → String
  | arithmetic => "Arithmetic"
  | assignment => "Assignment"
  | comparison => "Comparison"
  | logical => "Logical"
  | access => "Access"

end Operator

end SyntaxAudit

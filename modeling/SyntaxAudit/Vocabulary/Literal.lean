/-! Words that stand for a fixed value instead of naming something. -/
namespace SyntaxAudit

inductive Literal
  | trueWord | falseWord | nullWord | undefinedWord
deriving DecidableEq

namespace Literal

inductive Class
  | boolean | null | undefined
deriving DecidableEq

def all : List Literal :=
  [trueWord, falseWord, nullWord, undefinedWord]

def spelling : Literal → String
  | trueWord => "true"
  | falseWord => "false"
  | nullWord => "null"
  | undefinedWord => "undefined"

def name : Literal → String
  | trueWord => "True"
  | falseWord => "False"
  | nullWord => "Null"
  | undefinedWord => "Undefined"

def valueClass : Literal → Class
  | trueWord | falseWord => .boolean
  | nullWord => .null
  | undefinedWord => .undefined

def ofSpelling? (s : String) : Option Literal :=
  all.find? (·.spelling == s)

theorem mem_all (w : Literal) : w ∈ all := by
  cases w <;> decide

theorem ofSpelling?_spelling (w : Literal) : ofSpelling? w.spelling = some w := by
  cases w <;> decide

theorem ofSpelling?_eq_some_iff {s : String} {w : Literal} :
    ofSpelling? s = some w ↔ w.spelling = s := by
  constructor
  · intro h
    simpa using List.find?_some h
  · rintro rfl
    exact ofSpelling?_spelling w

def Class.name : Class → String
  | boolean => "Boolean"
  | null => "Null"
  | undefined => "Undefined"

end Literal

end SyntaxAudit

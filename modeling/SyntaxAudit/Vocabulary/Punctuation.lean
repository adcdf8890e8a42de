/-! Separators and brackets, each of one character. -/
namespace SyntaxAudit

inductive Punctuation
  | comma | semicolon
  | leftParen | rightParen | leftBracket | rightBracket | leftBrace | rightBrace
deriving DecidableEq

namespace Punctuation

inductive Category
  | separator | delimiter
deriving DecidableEq

def all : List Punctuation :=
  [comma, semicolon, leftParen, rightParen, leftBracket, rightBracket, leftBrace, rightBrace]

def char : Punctuation → Char
  | comma => ','
  | semicolon => ';'
  | leftParen => '('
  | rightParen => ')'
  | leftBracket => '['
  | rightBracket => ']'
  | leftBrace => '\x7b'
  | rightBrace => '\x7d'

def spelling (p : Punctuation) : String :=
  String.ofList [p.char]

def name : Punctuation → String
  | comma => "Comma"
  | semicolon => "Semicolon"
  | leftParen => "LParen"
  | rightParen => "RParen"
  | leftBracket => "LBracket"
  | rightBracket => "RBracket"
  | leftBrace => "LBrace"
  | rightBrace => "RBrace"

def category : Punctuation → Category
  | comma | semicolon => .separator
  | _ => .delimiter

def ofChar? (c : Char) : Option Punctuation :=
  all.find? (·.char == c)

def ofSpelling? (s : String) : Option Punctuation :=
  all.find? (·.spelling == s)

theorem mem_all (p : Punctuation) : p ∈ all := by
  cases p <;> decide

theorem ofChar?_char (p : Punctuation) : ofChar? p.char = some p := by
  cases p <;> decide

theorem ofChar?_eq_some_iff {c : Char} {p : Punctuation} :
    ofChar? c = some p ↔ p.char = c := by
  constructor
  · intro h
    simpa using List.find?_some h
  · rintro rfl
    exact ofChar?_char p

theorem ofSpelling?_spelling (p : Punctuation) : ofSpelling? p.spelling = some p := by
  cases p <;> decide

theorem ofSpelling?_eq_some_iff {s : String} {p : Punctuation} :
    ofSpelling? s = some p ↔ p.spelling = s := by
  constructor
  · intro h
    simpa using List.find?_some h
  · rintro rfl
    exact ofSpelling?_spelling p

def Category.name : Category → String
  | separator => "Separator"
  | delimiter => "Delimiter"

end Punctuation

end SyntaxAudit

import SyntaxAudit.Position
import SyntaxAudit.Vocabulary.Keyword
import SyntaxAudit.Vocabulary.Operator
import SyntaxAudit.Vocabulary.Punctuation

/-! Tokens: classified pieces of a source text, each with the place where it begins. -/
namespace SyntaxAudit

inductive TokenKind
  | endOfInput | keyword | identifier | string | number | operator | punctuation
  | boolean | null | undefined | comment
deriving DecidableEq

namespace TokenKind

def label : TokenKind → String
  | endOfInput => "EOF"
  | keyword => "KEYWORD"
  | identifier => "IDENTIFIER"
  | string => "STRING"
  | number => "NUMBER"
  | operator => "OPERATOR"
  | punctuation => "PUNCTUATION"
  | boolean => "BOOLEAN"
  | null => "NULL"
  | undefined => "UNDEFINED"
  | comment => "COMMENT"

def isOperand : TokenKind → Bool
  | identifier | number | string | boolean => true
  | _ => false

end TokenKind

/-- A piece of source text with its class and its place. The three parts are independent: a
token made by hand may carry any text under any class. -/
structure Token where
  kind : TokenKind
  text : String
  position : Position
deriving DecidableEq

namespace Token

def isEnd (t : Token) : Bool :=
  t.kind == .endOfInput

def keyword? (t : Token) : Option Keyword :=
  if t.kind = .keyword then Keyword.ofSpelling? t.text else none

def operator? (t : Token) : Option Operator :=
  if t.kind = .operator then Operator.ofSpelling? t.text else none

def punctuation? (t : Token) : Option Punctuation :=
  if t.kind = .punctuation then Punctuation.ofSpelling? t.text else none

def isKeyword (k : Keyword) (t : Token) : Bool :=
  t.keyword? == some k

def isOperator (o : Operator) (t : Token) : Bool :=
  t.operator? == some o

def isMark (p : Punctuation) (t : Token) : Bool :=
  t.punctuation? == some p

def listing (t : Token) : String :=
  t.kind.label ++ ": " ++ t.text ++ "\n"

def dump (tokens : List Token) : String :=
  String.join (tokens.map listing)

end Token

end SyntaxAudit

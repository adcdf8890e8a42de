import SyntaxAudit.Position
import SyntaxAudit.Text.Quoted

/-! Lexical errors: places where a source text holds no token. -/
namespace SyntaxAudit

inductive LexError.Cause
  | unexpectedCharacter (c : Char)
  | unterminatedString
  | unterminatedComment
deriving DecidableEq

/-- A cause with the place where the offending piece begins. -/
structure LexError where
  cause : LexError.Cause
  position : Position
deriving DecidableEq

namespace LexError

namespace Cause

def description : Cause → String
  | unexpectedCharacter c => "unexpected character " ++ Text.quoted c
  | unterminatedString => "unterminated string literal"
  | unterminatedComment => "unterminated block comment"

def code : Cause → String
  | unexpectedCharacter _ => "lex::unexpected_character"
  | unterminatedString => "lex::unterminated_string"
  | unterminatedComment => "lex::unterminated_comment"

def help? : Cause → Option String
  | unexpectedCharacter _ => none
  | unterminatedString => some "close the string with the same quote it was opened with"
  | unterminatedComment => some "block comments end with `*/`"

end Cause

def message (e : LexError) : String :=
  "Lexical Error at line " ++ e.position.line.repr ++ ", column " ++ e.position.column.repr
    ++ ": " ++ e.cause.description

end LexError

end SyntaxAudit

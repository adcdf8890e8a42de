import SyntaxAudit.Position

/-! Violations: the ways in which a sequence of tokens fails to be a program. -/
namespace SyntaxAudit

inductive ViolationKind
  | unexpectedKeyword
  | expectedSemicolon
  | expectedOpenBrace
  | expectedCloseBrace
  | expectedExpression
  | expectedFunctionKeyword
  | expectedFunctionName
  | expectedOpenParen
  | expectedParameterName
  | expectedCloseParen
  | expectedDeclarationKeyword
  | expectedVariableName
  | expectedIfKeyword
  | expectedWhileKeyword
deriving DecidableEq

namespace ViolationKind

def message : ViolationKind → String
  | unexpectedKeyword => "Unexpected keyword"
  | expectedSemicolon => "Expected semicolon"
  | expectedOpenBrace => "Expected \x7b"
  | expectedCloseBrace => "Expected \x7d"
  | expectedExpression => "Expected expression"
  | expectedFunctionKeyword => "Expected 'function' keyword"
  | expectedFunctionName => "Expected function name"
  | expectedOpenParen => "Expected '('"
  | expectedParameterName => "Expected parameter name"
  | expectedCloseParen => "Expected ')'"
  | expectedDeclarationKeyword => "Expected variable declaration keyword"
  | expectedVariableName => "Expected variable name"
  | expectedIfKeyword => "Expected 'if' keyword"
  | expectedWhileKeyword => "Expected 'while' keyword"

def code : ViolationKind → String
  | unexpectedKeyword => "syntax::unexpected_keyword"
  | expectedSemicolon => "syntax::expected_semicolon"
  | expectedOpenBrace => "syntax::expected_open_brace"
  | expectedCloseBrace => "syntax::expected_close_brace"
  | expectedExpression => "syntax::expected_expression"
  | expectedFunctionKeyword => "syntax::expected_function_keyword"
  | expectedFunctionName => "syntax::expected_function_name"
  | expectedOpenParen => "syntax::expected_open_paren"
  | expectedParameterName => "syntax::expected_parameter_name"
  | expectedCloseParen => "syntax::expected_close_paren"
  | expectedDeclarationKeyword => "syntax::expected_declaration_keyword"
  | expectedVariableName => "syntax::expected_variable_name"
  | expectedIfKeyword => "syntax::expected_if_keyword"
  | expectedWhileKeyword => "syntax::expected_while_keyword"

def help? : ViolationKind → Option String
  | unexpectedKeyword =>
    some "only `function`, `var`, `let`, `const`, `if` and `while` can start a statement"
  | expectedExpression => some "an expression is a single identifier, number, string or boolean"
  | _ => none

end ViolationKind

structure Violation where
  kind : ViolationKind
  position : Position
deriving DecidableEq

namespace Violation

def message (v : Violation) : String :=
  "Syntax Error at line " ++ v.position.line.repr ++ ", column " ++ v.position.column.repr
    ++ ": " ++ v.kind.message

end Violation

end SyntaxAudit

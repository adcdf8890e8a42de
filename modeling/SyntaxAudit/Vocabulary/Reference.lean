import SyntaxAudit.Vocabulary.Keyword
import SyntaxAudit.Vocabulary.Literal
import SyntaxAudit.Vocabulary.Operator
import SyntaxAudit.Vocabulary.Punctuation

/-! The reference page of the vocabulary, in Markdown. -/
namespace SyntaxAudit.Reference

def version : String := "0.1.0"

/-- The version that brought a word or sign in. All of them have been there from the start. -/
def since : String := "0.1"

def row (cells : List String) : String :=
  "| " ++ String.intercalate " | " cells ++ " |\n"

def table (heading : String) (columns : List String) (rows : List (List String)) : String :=
  "## " ++ heading ++ "\n\n" ++ row columns
    ++ "|" ++ String.join (columns.map fun _ => "---|") ++ "\n"
    ++ String.join (rows.map row) ++ "\n"

def code (spelling : String) : String :=
  "`" ++ spelling ++ "`"

/-- A spelling as code in a cell, where a bar would end the cell. -/
def codeCell (spelling : String) : String :=
  code (String.ofList (spelling.toList.flatMap fun c => if c = '|' then ['\\', '|'] else [c]))

def sample (s : Keyword.Sample) : String :=
  "```js\n" ++ s.code ++ "\n```\n\n" ++ match s.note with
    | some note => note ++ "\n\n"
    | none => ""

def samples (k : Keyword) : String :=
  if k.samples.isEmpty then ""
  else "#### " ++ code k.spelling ++ "\n\n" ++ String.join (k.samples.map sample)

def keywords : String :=
  table "Keywords" ["Id", "Canonical", "Category", "Usage", "Since", "Stability"]
      (Keyword.all.map fun k =>
        [k.name, code k.spelling, k.category.name, k.usage.name, since, k.stability.name])
    ++ "### Examples\n\n" ++ String.join (Keyword.all.map samples)

def literals : String :=
  table "Literal words" ["Id", "Canonical", "Token class", "Since"]
    (Literal.all.map fun w => [w.name, code w.spelling, w.valueClass.name, since])

def operators : String :=
  table "Operators" ["Id", "Canonical", "Category", "Since"]
    (Operator.all.map fun o => [o.name, codeCell o.spelling, o.category.name, since])

def punctuation : String :=
  table "Punctuation" ["Id", "Canonical", "Category", "Since"]
    (Punctuation.all.map fun p => [p.name, code p.spelling, p.category.name, since])

def endLine (text : String) : String :=
  String.ofList (text.toList.reverse.dropWhile (· == '\n')).reverse ++ "\n"

def page : String :=
  endLine
    ("# Language vocabulary reference\n\n"
      ++ "> Generated file. Regenerate with `cargo run -p scriptcheck_core"
      ++ " --bin generate_lang_reference`.\n\n"
      ++ keywords ++ literals ++ operators ++ punctuation)

end SyntaxAudit.Reference

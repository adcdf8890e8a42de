import SyntaxAudit.CommandLine.Arguments
import SyntaxAudit.CommandLine.Input
import SyntaxAudit.Report.Rendering
import SyntaxAudit.Text.Blank
import SyntaxAudit.Vocabulary.Reference

/-! A run of the program: from arguments and input to the two output streams and the status. -/
namespace SyntaxAudit.CommandLine

structure Ending where
  exitCode : Nat
  output : String
  errors : String
deriving DecidableEq

inductive Task
  | check (source : InputSource) (options : CheckOptions)
  | list (source : InputSource)
deriving DecidableEq

/-- Arguments with `--lex` list tokens, whatever else they say; otherwise the command `check`
counts, and without it the file of the program is checked with the usual settings. -/
def Invocation.task (i : Invocation) : Task :=
  match i.lexFile, i.check with
  | some path, _ => .list (.ofPath? (some path))
  | none, some command => .check (.ofPath? command.file) command.options
  | none, none => .check (.ofPath? i.file) {}

def Task.source : Task → InputSource
  | check source _ => source
  | list source => source

namespace Ending

/-- A run that fails behind what it has put out. A message goes to the errors unless it is empty. -/
def failure (output message : String) : Ending :=
  ⟨1, output, if message.isEmpty then "" else message ++ "\n"⟩

/-- The check of a text. A JSON document goes to the output whether or not the scan succeeds, and a
failure has nothing to add to it; in the other formats findings go to the errors and the summary to
the output. -/
def ofCheck (p : Painter) (options : CheckOptions) (name text : String) : Ending :=
  match checkSource options text, options.format with
  | .error errors, .json => failure (ReportFormat.json.lexErrorText p name text errors ++ "\n") ""
  | .error errors, format => failure "" (Text.trimEnd (format.lexErrorText p name text errors))
  | .ok o, .json => ⟨options.exitCode o, ReportFormat.json.outcomeText p name text o ++ "\n", ""⟩
  | .ok o, format =>
    ⟨options.exitCode o, o.summary ++ "\n", format.outcomeText p name text o⟩

def ofListing (name text : String) : Ending :=
  match scan {} text with
  | .error errors => failure "" (LexError.plainText name errors)
  | .ok tokens => ⟨0, Token.dump tokens, ""⟩

end Ending

def Task.finish (p : Painter) (task : Task) (text : Except InputError String) : Ending :=
  match text, task with
  | .error e, _ => .failure "" e.message
  | .ok text, check source options => .ofCheck p options source.name text
  | .ok text, list source => .ofListing source.name text

def HelpTopic.text : HelpTopic → String
  | program =>
    "Check scripts against the scriptcheck grammar and report every syntax error\n\n"
      ++ "Usage: scriptcheck [OPTIONS] [FILE] [COMMAND]\n\n"
      ++ "Commands:\n"
      ++ "  check  Check a file and report syntax errors\n"
      ++ "  help   Print this message or the help of the given subcommand(s)\n\n"
      ++ "Arguments:\n"
      ++ "  [FILE]  File to check (default action when no subcommand given;"
      ++ " `-` or nothing reads stdin)\n\n"
      ++ "Options:\n"
      ++ "      --lex <FILE>  Tokenize only (debug)\n"
      ++ "  -h, --help        Print help\n"
      ++ "  -V, --version     Print version\n"
  | check =>
    "Check a file and report syntax errors\n\n"
      ++ "Usage: scriptcheck check [OPTIONS] [FILE]\n\n"
      ++ "Arguments:\n"
      ++ "  [FILE]  Source file to check (`-` or nothing reads stdin)\n\n"
      ++ "Options:\n"
      ++ "      --format <FORMAT>    Report format. With `json`, lexical errors are reported as a"
      ++ " `lex_errors` document and exit with status 1 [default: plain]"
      ++ " [possible values: plain, pretty, json]\n"
      ++ "      --strict-semicolons  Only `;` terminates a statement (by default any punctuation"
      ++ " does)\n"
      ++ "      --keep-comments      Keep comments as tokens instead of skipping them. The grammar"
      ++ " has no comment statement, so each kept comment is reported as a syntax error (debug aid"
      ++ " for the scanner)\n"
      ++ "      --deny-errors        Exit with status 1 when syntax errors are found\n"
      ++ "  -h, --help               Print help\n"
  | help =>
    "Print this message or the help of the given subcommand(s)\n\n"
      ++ "Usage: scriptcheck help [COMMAND]...\n\n"
      ++ "Arguments:\n"
      ++ "  [COMMAND]...  Print help for the subcommand(s)\n"

inductive Plan
  | answer (ending : Ending)
  | refuse (error : UsageError)
  | run (task : Task)
deriving DecidableEq

def Plan.ofArguments (args : List String) : Plan :=
  match Invocation.ofArguments args with
  | .error (.help topic) => answer ⟨0, topic.text, ""⟩
  | .error .version => answer ⟨0, "scriptcheck " ++ Reference.version ++ "\n", ""⟩
  | .error (.refused error) => refuse error
  | .ok invocation => run invocation.task

def respond (p : Painter) (args : List String)
    (read : InputSource → Except InputError String) : Except UsageError Ending :=
  match Plan.ofArguments args with
  | .answer ending => .ok ending
  | .refuse error => .error error
  | .run task => .ok (task.finish p (read task.source))

end SyntaxAudit.CommandLine

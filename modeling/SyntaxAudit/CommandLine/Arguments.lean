import SyntaxAudit.CommandLine.Resemblance
import SyntaxAudit.Options

/-! The arguments of the command line. They are read from left to right and the first mistake
counts, but a value is looked at only when the argument after it has been understood, and
arguments that exclude each other are compared at the very end. -/
namespace SyntaxAudit.CommandLine

inductive UsageError
  | invalidValue
  | argumentConflict
  | tooManyValues
  | unknownArgument
  | invalidSubcommand
deriving DecidableEq

inductive HelpTopic
  | program
  | check
  | help
deriving DecidableEq

inductive EarlyEnd
  | help (topic : HelpTopic)
  | version
  | refused (error : UsageError)
deriving DecidableEq

structure CheckCommand where
  file : Option String
  options : CheckOptions
deriving DecidableEq

structure Invocation where
  file : Option String
  lexFile : Option String
  check : Option CheckCommand
deriving DecidableEq

inductive Command
  | program
  | check
deriving DecidableEq

inductive Setting
  | file
  | lexFile
  | format
  | strictSemicolons
  | keepComments
  | denyErrors
deriving DecidableEq

structure Settings where
  file : Option String := none
  lexFile : Option String := none
  format : Option ReportFormat := none
  strictSemicolons : Bool := false
  keepComments : Bool := false
  denyErrors : Bool := false
deriving DecidableEq

inductive LongOption
  | valued (setting : Setting)
  | flag (setting : Setting)
  | help
  | version
deriving DecidableEq

/-- The form of an argument, which depends on its dashes only. A single dash is a word. -/
inductive Shape
  | separator
  | long (name : String) (value : Option String)
  | short (letter : Char)
  | word
deriving DecidableEq

def EarlyEnd.exitCode : EarlyEnd → Nat
  | help _ => 0
  | version => 0
  | refused _ => 2

def UsageError.message : UsageError → String
  | invalidValue => "error: a value is missing or not allowed"
  | argumentConflict => "error: arguments cannot be used together or more than once"
  | tooManyValues => "error: a value is given to an option that takes none"
  | unknownArgument => "error: unexpected argument"
  | invalidSubcommand => "error: unrecognized subcommand"

def formatOfName? : String → Option ReportFormat
  | "plain" => some .plain
  | "pretty" => some .pretty
  | "json" => some .json
  | _ => none

def cutAtEquals : List Char → List Char × Option (List Char)
  | [] => ([], none)
  | c :: cs =>
    if c = '=' then ([], some cs)
    else
      let (name, value) := cutAtEquals cs
      (c :: name, value)

def Shape.ofArgument (arg : String) : Shape :=
  match arg.toList with
  | ['-', '-'] => separator
  | '-' :: '-' :: cs =>
    let (name, value) := cutAtEquals cs
    long (String.ofList name) (value.map String.ofList)
  | '-' :: c :: _ => short c
  | _ => word

def Command.longOption? : Command → String → Option LongOption
  | program, "lex" => some (.valued .lexFile)
  | program, "version" => some .version
  | check, "format" => some (.valued .format)
  | check, "strict-semicolons" => some (.flag .strictSemicolons)
  | check, "keep-comments" => some (.flag .keepComments)
  | check, "deny-errors" => some (.flag .denyErrors)
  | _, "help" => some .help
  | _, _ => none

namespace Settings

def isGiven (s : Settings) : Setting → Bool
  | .file => s.file.isSome
  | .lexFile => s.lexFile.isSome
  | .format => s.format.isSome
  | .strictSemicolons => s.strictSemicolons
  | .keepComments => s.keepComments
  | .denyErrors => s.denyErrors

/-- Sets a value, unless it is not one that the setting can have: a path is not empty, and a
format has a name. -/
def assign? (s : Settings) (setting : Setting) (value : String) : Option Settings :=
  match setting with
  | .file => if value.isEmpty then none else some { s with file := some value }
  | .lexFile => if value.isEmpty then none else some { s with lexFile := some value }
  | .format => (formatOfName? value).map fun f => { s with format := some f }
  | .strictSemicolons => some { s with strictSemicolons := true }
  | .keepComments => some { s with keepComments := true }
  | .denyErrors => some { s with denyErrors := true }

/-- Sets a value once. A value that is missing or wrong is refused, and so is a second one. -/
def give (s : Settings) (setting : Setting) : Option String → Except EarlyEnd Settings
  | none => .error (.refused .invalidValue)
  | some value =>
    if s.isGiven setting then .error (.refused .argumentConflict)
    else match s.assign? setting value with
      | some s => .ok s
      | none => .error (.refused .invalidValue)

def options (s : Settings) : CheckOptions :=
  ((((({} : CheckOptions).withFormat (s.format.getD .plain)).withStrictSemicolons
    s.strictSemicolons).withKeepComments s.keepComments).withDenyErrors s.denyErrors)

end Settings

/-- Arguments on the way: what has been set, and the setting whose value has not been looked at
yet or is still to come. -/
structure Reader where
  command : Command
  settings : Settings
  pending : Option (Setting × Option String)
  fileSeen : Bool
deriving DecidableEq

namespace Reader

def start (command : Command) : Reader :=
  ⟨command, {}, none, false⟩

def awaiting? (r : Reader) : Option Setting :=
  match r.pending with
  | some (setting, none) => some setting
  | _ => none

def settle (r : Reader) : Except EarlyEnd Reader :=
  match r.pending with
  | none => .ok r
  | some (setting, value) => do
    let settings ← r.settings.give setting value
    return { r with settings, pending := none }

/-- A word where no file is wanted any more. One that resembles the name of a command is taken
for a misspelt command. -/
def refuseWord (r : Reader) (separated : Bool) (arg : String) : UsageError :=
  match r.command with
  | .check => .unknownArgument
  | .program =>
    if separated && (arg == "check" || arg == "help") then .unknownArgument
    else if resembles arg "check" || resembles arg "help" then .invalidSubcommand
    else .unknownArgument

def readFile (r : Reader) (separated : Bool) (arg : String) : Except EarlyEnd Reader :=
  if r.fileSeen then .error (.refused (r.refuseWord separated arg))
  else do
    let r ← r.settle
    return { r with pending := some (.file, some arg), fileSeen := true }

def readFiles (r : Reader) : List String → Except EarlyEnd Reader
  | [] => .ok r
  | arg :: rest => do (← r.readFile true arg).readFiles rest

def readLong (r : Reader) (name : String) (value : Option String) : Except EarlyEnd Reader :=
  match r.command.longOption? name, value with
  | none, _ => .error (.refused .unknownArgument)
  | some (.valued setting), none => do
    let r ← r.settle
    return { r with pending := some (setting, none) }
  | some (.valued setting), some value => do
    let r ← r.settle
    return { r with settings := ← r.settings.give setting (some value) }
  | some _, some _ => .error (.refused .tooManyValues)
  | some (.flag setting), none => do
    let r ← r.settle
    return { r with settings := ← r.settings.give setting (some "") }
  | some .help, none => do
    let r ← r.settle
    .error (.help (if r.command = .check then .check else .program))
  | some .version, none => do
    let _ ← r.settle
    .error .version

def readShort (r : Reader) (letter : Char) : Except EarlyEnd Reader :=
  match r.command, letter with
  | _, 'h' => r.readLong "help" none
  | .program, 'V' => r.readLong "version" none
  | _, _ => .error (.refused .unknownArgument)

/-- The words behind `help` name a command within a command, and none has any inside. -/
def helpTopic : List String → EarlyEnd
  | [] => .help .program
  | ["check"] => .help .check
  | ["help"] => .help .help
  | _ => .refused .invalidSubcommand

/-- Reads arguments up to the end or up to the command `check`, and gives those behind it. -/
def read (r : Reader) : List String → Except EarlyEnd (Reader × Option (List String))
  | [] => .ok (r, none)
  | arg :: rest =>
    match r.awaiting?, Shape.ofArgument arg with
    | _, .separator => do return (← r.readFiles rest, none)
    | _, .long name value => do (← r.readLong name value).read rest
    | _, .short letter => do (← r.readShort letter).read rest
    | some setting, .word => { r with pending := some (setting, some arg) }.read rest
    | none, .word =>
      if r.command = .program ∧ arg = "check" then .ok (r, some rest)
      else if r.command = .program ∧ arg = "help" then .error (helpTopic rest)
      else do (← r.readFile false arg).read rest

end Reader

def CheckCommand.ofArguments (args : List String) : Except EarlyEnd CheckCommand := do
  let (r, _) ← (Reader.start .check).read args
  let settings := (← r.settle).settings
  return ⟨settings.file, settings.options⟩

/-- All arguments of the program. The file of the program and that of `--lex` exclude each
other. -/
def Invocation.ofArguments (args : List String) : Except EarlyEnd Invocation := do
  let (r, inner) ← (Reader.start .program).read args
  let check ← match inner with
    | some rest => some <$> CheckCommand.ofArguments rest
    | none => pure none
  let settings := (← r.settle).settings
  if settings.file.isSome && settings.lexFile.isSome then
    .error (.refused .argumentConflict)
  else
    return ⟨settings.file, settings.lexFile, check⟩

end SyntaxAudit.CommandLine

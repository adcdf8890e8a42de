/-! Where a source text comes from, and what can go wrong on the way. -/
namespace SyntaxAudit.CommandLine

inductive InputSource
  | standardInput
  | file (path : String)
deriving DecidableEq

inductive FileError
  | notFound
  | notADirectory
  | isADirectory
  | other (description : String)
deriving DecidableEq

inductive InputError
  | inaccessible (path : String) (error : FileError)
  | tooLarge (path : String) (size : Nat)
  | unreadable (path : String) (error : FileError)
  | malformed (source : InputSource)
deriving DecidableEq

def pathParts (path : String) : List String :=
  path.splitOn "/"

/-- Whether a path means standard input: a dash, with nothing behind it that leads elsewhere. -/
def isDash (path : String) : Bool :=
  match pathParts path with
  | part :: rest => part == "-" && rest.all fun p => p == "" || p == "."
  | [] => false

namespace InputSource

def ofPath? : Option String → InputSource
  | none => standardInput
  | some path => if isDash path then standardInput else file path

def name : InputSource → String
  | standardInput => "<stdin>"
  | file path => path

end InputSource

def maxSourceSize : Nat := 100 * 1024 * 1024

def FileError.message : FileError → String
  | notFound => "No such file or directory (os error 2)"
  | notADirectory => "Not a directory (os error 20)"
  | isADirectory => "Is a directory (os error 21)"
  | other description => description

namespace InputError

def malformedText : String :=
  "stream did not contain valid UTF-8"

def message : InputError → String
  | inaccessible path error => "Cannot access file '" ++ path ++ "': " ++ error.message
  | tooLarge path size =>
    "Source file '" ++ path ++ "' is too large (" ++ size.repr ++ " bytes, max "
      ++ maxSourceSize.repr ++ " bytes)"
  | unreadable path error => "Error reading file '" ++ path ++ "': " ++ error.message
  | malformed (.file path) => "Error reading file '" ++ path ++ "': " ++ malformedText
  | malformed .standardInput => "Error reading standard input: " ++ malformedText

end InputError

def decode (source : InputSource) (bytes : ByteArray) : Except InputError String :=
  match String.fromUTF8? bytes with
  | some text => .ok text
  | none => .error (.malformed source)

/-- What can be asked about the files at hand: the size of a file, which a directory has not, and
its bytes. -/
structure FileSystem (m : Type → Type) where
  size? : String → m (Except FileError (Option Nat))
  bytes : String → m (Except FileError ByteArray)

variable {m : Type → Type} [Monad m]

/-- The text of a file. Its size is looked at before its content. -/
def FileSystem.read (files : FileSystem m) (path : String) : m (Except InputError String) := do
  match ← files.size? path with
  | .error e => return .error (.inaccessible path e)
  | .ok none => return .error (.unreadable path .isADirectory)
  | .ok (some size) =>
    if maxSourceSize < size then
      return .error (.tooLarge path size)
    else
      match ← files.bytes path with
      | .error e => return .error (.unreadable path e)
      | .ok bytes => return decode (.file path) bytes

def FileSystem.readSource (files : FileSystem m) (standardInput : m ByteArray) :
    InputSource → m (Except InputError String)
  | .standardInput => return decode .standardInput (← standardInput)
  | .file path => files.read path

end SyntaxAudit.CommandLine

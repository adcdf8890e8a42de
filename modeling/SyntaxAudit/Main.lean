import SyntaxAudit.CommandLine.Session

/-! The program: reads its input, and writes what a run leaves behind. -/
namespace SyntaxAudit.CommandLine

/-- What the operating system says, where `kind` is the error for a path of the wrong kind. -/
def FileError.ofSystem (kind : FileError) : IO.Error → FileError
  | .noFileOrDirectory .. => .notFound
  | .inappropriateType .. => kind
  | e => .other (toString e)

def systemFiles : FileSystem IO where
  size? path := do
    try
      let info ← ((← IO.currentDir) / path).metadata
      return .ok (if info.type == .dir then none else some info.byteSize.toNat)
    catch e =>
      return .error (.ofSystem .notADirectory e)
  bytes path := do
    try
      return .ok (← IO.FS.readBinFile ((← IO.currentDir) / path))
    catch e =>
      return .error (.ofSystem .isADirectory e)

partial def readStream (stream : IO.FS.Stream) (read : ByteArray) : IO ByteArray := do
  let chunk ← stream.read 65536
  if chunk.isEmpty then
    return read
  else
    readStream stream (read ++ chunk)

def readInput (source : InputSource) : IO (Except InputError String) :=
  systemFiles.readSource (do readStream (← IO.getStdin) .empty) source

def Ending.write (ending : Ending) : IO UInt32 := do
  let errors ← IO.getStderr
  errors.putStr ending.errors
  errors.flush
  let output ← IO.getStdout
  output.putStr ending.output
  output.flush
  return ending.exitCode.toUInt32

end SyntaxAudit.CommandLine

open SyntaxAudit SyntaxAudit.CommandLine in
def main (args : List String) : IO UInt32 := do
  match Plan.ofArguments args with
  | .answer ending => ending.write
  | .refuse error =>
    (← IO.getStderr).putStrLn error.message
    return (EarlyEnd.refused error).exitCode.toUInt32
  | .run task =>
    let painter : Painter := ⟨← (← IO.getStderr).isTty⟩
    (task.finish painter (← readInput task.source)).write

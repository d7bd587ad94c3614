import CodeGraph.CommandLine.Command

/-! # The program

Reads the file that the command needs, and prints how the command ended.
-/

namespace CodeGraph.CommandLine

/-- The failure of a system call, from its description and its number, which comes with either
sign. -/
def systemFailure (description : String) (number : UInt32) : FileError :=
  match min number.toNat (UInt32.size - number.toNat) with
  | 20 => .notDirectory
  | 21 => .isDirectory
  | 36 => .nameTooLong
  | number => .other s!"{description.capitalize} (os error {number})"

/-- What a failed read of a file tells about the file. -/
def FileError.ofSystem : IO.Error → FileError
  | .noFileOrDirectory .. => .notFound
  | .permissionDenied .. => .permissionDenied
  | .inappropriateType _ number description => systemFailure description number
  | .invalidArgument _ number description => systemFailure description number
  | .resourceExhausted _ number description => systemFailure description number
  | .hardwareFault number description => systemFailure description number
  | error => .other error.toString

/-- The text of a file on disk. -/
def readFileText (path : String) : IO (Except FileError String) := do
  try
    return fileText (← IO.FS.readBinFile path)
  catch error =>
    return .error (.ofSystem error)

end CodeGraph.CommandLine

open CodeGraph.CommandLine in
/-- Runs the command that the arguments ask for. -/
def main (arguments : List String) : IO UInt32 := do
  let content ← match (Command.parse arguments).file? with
    | some path => readFileText path
    | none => pure (.error .notFound)
  let outcome := run (fun _ => content) arguments
  IO.print outcome.output
  IO.eprint outcome.errors
  return outcome.exitCode.toUInt32

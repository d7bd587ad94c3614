/-! # Input files

A file is read as a whole and has to hold UTF-8 text.
-/

namespace CodeGraph.CommandLine

/-- Why a file could not be read as text. -/
inductive FileError
  | notFound
  | permissionDenied
  | invalidText
  | other (detail : String)
deriving DecidableEq

namespace FileError

/-- The wording of the complaint about a file. -/
def message (path : String) : FileError → String
  | notFound => s!"cannot find file '{path}'"
  | permissionDenied => s!"permission denied reading '{path}'"
  | invalidText => s!"'{path}' contains invalid UTF-8 data"
  | other detail => s!"error reading '{path}': {detail}"

/-- A directory cannot be read as a file. -/
def isDirectory : FileError := .other "Is a directory (os error 21)"

/-- A path goes on behind something that is no directory. -/
def notDirectory : FileError := .other "Not a directory (os error 20)"

/-- A path, or a piece of it, is longer than the system allows. -/
def nameTooLong : FileError := .other "File name too long (os error 36)"

end FileError

/-- The text of a file with the given bytes. -/
def fileText (bytes : ByteArray) : Except FileError String :=
  match String.fromUTF8? bytes with
  | some text => .ok text
  | none => .error .invalidText

end CodeGraph.CommandLine

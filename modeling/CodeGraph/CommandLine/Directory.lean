import CodeGraph.CommandLine.InputFile

/-! # Directories

A working directory holds files and further directories. A path is followed piece by piece, between
slashes, and each piece but the last has to lead to a directory. Outside the working directory
there are directories too, but no name in them leads anywhere.
-/

namespace CodeGraph.CommandLine

/-- What stands at a place in the working directory. -/
inductive DirectoryEntry
  | directory
  /-- A file, with what reading it gives. -/
  | file (content : Except FileError String)

/-- The working directory: what stands in it and in the directories below, each with the names
that lead there. The directories on the way to an entry need not be listed. -/
structure Directory where
  entries : List (List String × DirectoryEntry)

/-- Where a path has led so far. -/
inductive Location
  /-- A directory outside the working directory. -/
  | outside
  /-- The directory to which the names lead from the working directory. -/
  | within (names : List String)
  | file (content : Except FileError String)

/-- The pieces of a path between its slashes. -/
def pieces : List Char → List (List Char)
  | [] => [[]]
  | c :: path =>
    if c = '/' then [] :: pieces path
    else match pieces path with
      | piece :: rest => (c :: piece) :: rest
      | [] => [[c]]

/-- The names in a path; empty pieces and dots lead nowhere else. -/
def names (path : String) : List String :=
  ((pieces path.toList).map String.ofList).filter fun name => name ≠ "" && name ≠ "."

/-- The number of bytes from which on a path is too long. -/
def pathLimit : Nat := 4096

/-- The largest number of bytes of a name. -/
def nameLimit : Nat := 255

namespace Location

/-- The directory above a directory. -/
def parent : Location → Location
  | within (name :: names) => within (name :: names).dropLast
  | _ => outside

end Location

namespace Directory

/-- What the names lead to from the working directory. -/
def locate (directory : Directory) (names : List String) : Except FileError Location :=
  match directory.entries.find? fun (place, _) => place = names with
  | some (_, .directory) => .ok (.within names)
  | some (_, .file content) => .ok (.file content)
  | none =>
    if directory.entries.any fun (place, _) => names.isPrefixOf place then .ok (.within names)
    else .error .notFound

/-- Follows one piece of a path. An empty piece stays where it is, as a dot does. -/
def follow (directory : Directory) (location : Location) (piece : List Char) :
    Except FileError Location :=
  let name := String.ofList piece
  match location with
  | .file _ => .error .notDirectory
  | location =>
    if name = "" ∨ name = "." then .ok location
    else if name = ".." then .ok location.parent
    else if nameLimit < name.utf8ByteSize then .error .nameTooLong
    else match location with
      | .within names => directory.locate (names ++ [name])
      | _ => .error .notFound

/-- What reading the file at a path gives. -/
def read (directory : Directory) (path : String) : Except FileError String := do
  if path = "" then throw .notFound
  if pathLimit ≤ path.utf8ByteSize then throw .nameTooLong
  let start := if path.toList.head? = some '/' then Location.outside else .within []
  match ← (pieces path.toList).foldlM directory.follow start with
  | .file content => content
  | _ => throw .isDirectory

end Directory

end CodeGraph.CommandLine

import CodeGraph.CommandLine.CheckRequest
import CodeGraph.CommandLine.InputFile
import CodeGraph.CommandLine.Report
import CodeGraph.CommandLine.StubRequest
import CodeGraph.CommandLine.Usage
import CodeGraph.Project.Load
import CodeGraph.Stub

/-! # Commands

A command is read from the arguments of the program. It needs at most one file, and it ends in an
exit code with texts for the standard output and the standard error.

The log of the program is left out. It is written to the standard error, and only if the variable
`RUST_LOG` of the environment asks for it; `TDM_LOG_TREE` then chooses its layout. Nothing else
depends on either of them.
-/

namespace CodeGraph.CommandLine

/-- How a command ended. -/
structure Outcome where
  exitCode : Nat
  output : String
  errors : String
deriving DecidableEq

namespace Outcome

/-- A command that did its work. -/
def done (output : String) : Outcome := ⟨0, output, ""⟩

/-- A command that failed, with a line of complaint. -/
def failed (complaint : String) : Outcome := ⟨1, "", complaint ++ "\n"⟩

end Outcome

/-- What the program is asked to do. -/
inductive Command
  | help
  | version
  | unknown (name : String)
  /-- A command whose arguments are refused. -/
  | refused (complaint : String)
  | stub (request : StubRequest)
  | check (request : CheckRequest)
deriving DecidableEq

namespace Command

/-- Reads the arguments of the program. -/
def parse : List String → Command
  | [] => help
  | "stub" :: arguments =>
    match StubRequest.parse arguments with
    | .ok request => stub request
    | .error error => refused s!"error: {error.message}\n{stubUsage}"
  | "check" :: arguments =>
    match CheckRequest.parse arguments with
    | .ok request => check request
    | .error .pathMissing => refused s!"error: {ArgumentError.pathMissing.message}\n{checkUsage}"
    | .error error => refused s!"error: {error.message}"
  | name :: _ =>
    if name = "help" ∨ name = "--help" ∨ name = "-h" then help
    else if name = "version" ∨ name = "--version" ∨ name = "-V" then version
    else unknown name

/-- The file that a command reads. -/
def file? : Command → Option String
  | stub request => some request.path
  | check request => some request.path
  | _ => none

end Command

/-- The project in a file, or the complaint about it. -/
def projectIn (files : String → Except FileError String) (path : String) :
    Except String Project := do
  let text ← (files path).mapError (FileError.message path)
  (Project.ofJson text).mapError fun error => s!"error: {path}: {error.message}"

/-- The stub of what is selected, or the complaint about it. -/
def selectedStub (project : Project) (selection : Selection) (options : StubOptions) :
    Except String String :=
  match selection with
  | .all => (project.packageStubs options).mapError StubError.message
  | .type index =>
    match project.lookup .anyType index with
    | some ref => (project.stubLines options [ref.id]).mapError StubError.message
    | none =>
      let count := (project.table .types).length
      .error s!"no type at index {index} (the project has {count} types)"
  | .package index =>
    match project.lookup (.only .package) index with
    | some ref => (project.stubLines options [ref.id]).mapError StubError.message
    | none =>
      let count := (project.table .packages).length
      .error s!"no package at index {index} (the project has {count} packages)"

/-- What the stub command prints, or its complaint. -/
def stubOutput (files : String → Except FileError String) (request : StubRequest) :
    Except String String := do
  let project ← projectIn files request.path
  (selectedStub project request.selection request.options).mapError
    fun complaint => s!"error: {request.path}: {complaint}"

/-- What the check command prints, or its complaint. -/
def checkOutput (files : String → Except FileError String) (request : CheckRequest) :
    Except String String := do
  let project ← projectIn files request.path
  let statistics := project.statistics
  if request.asJson then return jsonReport statistics ++ "\n"
  return textReport request.path statistics

namespace Outcome

/-- The end of a command that prints a text or a complaint. -/
def ofResult : Except String String → Outcome
  | .ok output => done output
  | .error complaint => failed complaint

end Outcome

/-- How a command ends, given what reading each file gives. -/
def Command.outcome (files : String → Except FileError String) : Command → Outcome
  | .help => .done usage
  | .version => .done CommandLine.version
  | .unknown name => ⟨1, usage, s!"Unknown command: {name}\n\n"⟩
  | .refused complaint => .failed complaint
  | .stub request => .ofResult (stubOutput files request)
  | .check request => .ofResult (checkOutput files request)

/-- How the program ends on its arguments, given what reading each file gives and with `RUST_LOG`
unset, so that the standard error shows complaints alone. -/
def run (files : String → Except FileError String) (arguments : List String) : Outcome :=
  (Command.parse arguments).outcome files

end CodeGraph.CommandLine

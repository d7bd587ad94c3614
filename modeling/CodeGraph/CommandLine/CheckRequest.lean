import CodeGraph.CommandLine.Arguments

/-! # Arguments of the check command

The command takes the path of a document and perhaps a wish for JSON, in any order.
-/

namespace CodeGraph.CommandLine

/-- What the check command is asked to do. -/
structure CheckRequest where
  path : String
  asJson : Bool
deriving DecidableEq

namespace CheckRequest

/-- Reads the remaining arguments of the check command. -/
def read (path : Option String) (asJson : Bool) : List String → Except ArgumentError CheckRequest
  | [] =>
    match path with
    | some path => .ok { path, asJson }
    | none => .error .pathMissing
  | argument :: rest =>
    if argument = "--json" then read path true rest
    else if (after? "-" argument).isNone && path.isNone then read (some argument) asJson rest
    else .error (.unexpected argument)

/-- Reads the arguments of the check command. -/
def parse (arguments : List String) : Except ArgumentError CheckRequest :=
  read none false arguments

end CheckRequest

end CodeGraph.CommandLine

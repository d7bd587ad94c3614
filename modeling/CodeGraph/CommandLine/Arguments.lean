/-! # Arguments of commands

What can be wrong with the arguments of a command, and how a flag and its value are told apart.
-/

namespace CodeGraph.CommandLine

/-- Why the arguments of a command are refused. -/
inductive ArgumentError
  /-- A flag that needs an index is the last argument. -/
  | indexMissing (flag : String)
  /-- An index is no signed 64-bit numeral. -/
  | invalidIndex (text flag : String)
  /-- More than one entry is selected. -/
  | secondSelection
  /-- A nesting limit is no unsigned 64-bit numeral. -/
  | invalidDepth (text : String)
  | unknownOption (argument : String)
  /-- An argument beyond those that the command takes. -/
  | unexpected (argument : String)
  | pathMissing
deriving DecidableEq

namespace ArgumentError

/-- The wording of the complaint. -/
def message : ArgumentError → String
  | indexMissing flag => s!"{flag} requires an index"
  | invalidIndex text flag => s!"invalid index '{text}' for {flag}"
  | secondSelection => "--type and --package select one entry; pass only one"
  | invalidDepth text => s!"invalid --max-depth '{text}'"
  | unknownOption argument => s!"unknown option '{argument}'"
  | unexpected argument => s!"unexpected argument '{argument}'"
  | pathMissing => "missing file path"

end ArgumentError

/-- What follows `start` in a text that begins with it. -/
def after? (start text : String) : Option String :=
  (start.toList.isPrefixOf? text.toList).map String.ofList

end CodeGraph.CommandLine

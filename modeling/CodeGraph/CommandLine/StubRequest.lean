import CodeGraph.CommandLine.Arguments
import CodeGraph.Decimal
import CodeGraph.Stub.Options

/-! # Arguments of the stub command

The command takes the path of a document, options and at most one selection, in any order. Of
options that are repeated the last one counts. A selection is written as one argument or as two;
in two the second is taken whatever it looks like.
-/

namespace CodeGraph.CommandLine

/-- The part of a project whose stub is asked for. -/
inductive Selection
  /-- Every package. -/
  | all
  /-- The type at an index counted from one. -/
  | type (index : Int)
  /-- The package at an index counted from one. -/
  | package (index : Int)
deriving DecidableEq

/-- What the stub command is asked to do. -/
structure StubRequest where
  path : String
  selection : Selection
  options : StubOptions
deriving DecidableEq

/-- The entries that can be selected. -/
inductive Selectable
  | type
  | package
deriving DecidableEq

namespace Selectable

/-- The flag that selects an entry. -/
def flag : Selectable → String
  | type => "--type"
  | package => "--package"

/-- The selection of the entry at an index. -/
def selection : Selectable → Int → Selection
  | type => .type
  | package => .package

end Selectable

/-- An argument of the stub command by itself. -/
inductive StubArgument
  | mode (mode : Mode)
  | markCycles
  /-- A flag whose index is the next argument. -/
  | select (what : Selectable)
  | selectIndex (what : Selectable) (index : String)
  | maxDepth (text : String)
  | option (text : String)
  | path (text : String)
deriving DecidableEq

namespace StubArgument

/-- Recognises an argument. -/
def ofString (text : String) : StubArgument :=
  if text = "--short" then mode .short
  else if text = "--long" then mode .long
  else if text = "--mark-cycles" then markCycles
  else if text = "--type" then select .type
  else if text = "--package" then select .package
  else if let some depth := after? "--max-depth=" text then maxDepth depth
  else if let some index := after? "--type=" text then selectIndex .type index
  else if let some index := after? "--package=" text then selectIndex .package index
  else if (after? "-" text).isSome then option text
  else path text

end StubArgument

/-- What is known of a request while its arguments are read. -/
structure PartialRequest where
  path : Option String
  selection : Selection
  options : StubOptions
deriving DecidableEq

namespace PartialRequest

/-- Nothing asked for yet. -/
def start : PartialRequest := ⟨none, .all, .standard⟩

/-- Selects an entry, once. -/
def select (request : PartialRequest) (what : Selectable) (text : String) :
    Except ArgumentError PartialRequest :=
  if request.selection ≠ .all then .error .secondSelection
  else match Decimal.signed? text.toList with
    | some index => .ok { request with selection := what.selection index }
    | none => .error (.invalidIndex text what.flag)

/-- Reads the remaining arguments. -/
def read (request : PartialRequest) : List String → Except ArgumentError PartialRequest
  | [] => .ok request
  | argument :: rest =>
    match StubArgument.ofString argument with
    | .mode mode => read { request with options := { request.options with mode } } rest
    | .markCycles =>
      read { request with options := { request.options with cycles := .mark } } rest
    | .select what =>
      match rest with
      | [] => .error (.indexMissing what.flag)
      | index :: rest => do
        let request ← request.select what index
        read request rest
    | .selectIndex what index => do
      let request ← request.select what index
      read request rest
    | .maxDepth text =>
      match Decimal.unsigned? text.toList with
      | some maxDepth => read { request with options := { request.options with maxDepth } } rest
      | none => .error (.invalidDepth text)
    | .option text => .error (.unknownOption text)
    | .path text =>
      if request.path.isNone then read { request with path := some text } rest
      else .error (.unexpected text)

end PartialRequest

namespace StubRequest

/-- Reads the arguments of the stub command. -/
def parse (arguments : List String) : Except ArgumentError StubRequest := do
  let request ← PartialRequest.start.read arguments
  match request.path with
  | some path => return { path, selection := request.selection, options := request.options }
  | none => throw .pathMissing

end StubRequest

end CodeGraph.CommandLine

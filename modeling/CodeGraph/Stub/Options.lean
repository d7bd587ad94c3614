import CodeGraph.Bounds
import CodeGraph.Ref

/-! # Options and failures of stubs

A stub is the text of a construct. The short one is its identity, the long one its whole body.
Since constructs may mention themselves, a stub either fails at a cycle or marks it, and it never
nests deeper than its limit.
-/

namespace CodeGraph

/-- How much a stub tells. -/
inductive Mode
  /-- Names, and the inline shapes of types without a name. -/
  | short
  /-- Whole bodies. -/
  | long
deriving DecidableEq

namespace Mode

/-- The name of a mode. -/
def name : Mode → String
  | short => "short"
  | long => "long"

end Mode

/-- What happens where a construct turns up within its own stub. -/
inductive CyclePolicy
  /-- The stub fails. -/
  | fail
  /-- A marker is written in its place. -/
  | mark
deriving DecidableEq

/-- How a stub is written. -/
structure StubOptions where
  mode : Mode
  cycles : CyclePolicy
  /-- How many constructs may be written within each other. -/
  maxDepth : Nat
deriving DecidableEq

namespace StubOptions

/-- Long stubs that fail at cycles, at most 256 constructs deep. -/
def standard : StubOptions where
  mode := .long
  cycles := .fail
  maxDepth := 256

end StubOptions

/-- Why a stub could not be written. -/
inductive StubError
  /-- A construct turned up within its own stub of the same mode. -/
  | recursion (id : Nat) (kind : Kind) (mode : Mode)
  /-- Constructs nest deeper than the limit. -/
  | tooDeep (limit : Nat)
  /-- An id that the project does not have. -/
  | outOfBounds (fault : OutOfBounds)
deriving DecidableEq

namespace StubError

/-- The wording of the complaint. -/
def message : StubError → String
  | recursion id kind mode =>
    s!"recursion detected while writing {kind.name} {idLabel id} in {mode.name} mode"
  | tooDeep limit => s!"stub nesting exceeds the limit of {limit} levels"
  | outOfBounds fault => fault.message

end StubError

end CodeGraph

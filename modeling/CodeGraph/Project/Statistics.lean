import CodeGraph.Project

/-! # Statistics of a project

How many constructs a project has, of each kind and in each table.
-/

namespace CodeGraph

/-- The counts of a project. -/
structure Statistics where
  language : String
  constructs : Nat
  /-- The kinds that occur, in order, each with the number of its constructs. -/
  kinds : List (Kind × Nat)
  tables : Tables Nat
deriving DecidableEq

namespace Statistics

/-- Counts one construct more of a kind, in an ordered list of the kinds counted so far. -/
def bump (kind : Kind) : List (Kind × Nat) → List (Kind × Nat)
  | [] => [(kind, 1)]
  | (other, count) :: rest =>
    if other = kind then (other, count + 1) :: rest
    else if other.position < kind.position then (other, count) :: bump kind rest
    else (kind, 1) :: (other, count) :: rest

end Statistics

namespace Project

/-- The counts of a project. -/
def statistics (project : Project) : Statistics where
  language := project.language
  constructs := project.size
  kinds := project.constructs.foldl (fun kinds construct => Statistics.bump construct.kind kinds) []
  tables := .ofFn fun table => (project.table table).length

end Project

end CodeGraph

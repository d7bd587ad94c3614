import CodeGraph.Bounds
import CodeGraph.Document.Reading
import CodeGraph.Ref

/-! # Why a document does not load

A load error has a cause and the path from the root of the document to the node that is to blame.
Readers see only a part of the document, so the path grows at its front while an error travels
outward.
-/

namespace CodeGraph

/-- One step down into a document. -/
inductive Step
  | field (name : String)
  | index (position : Nat)
deriving DecidableEq

/-- A way from the root of a document to one of its nodes. -/
abbrev Path := List Step

namespace Path

/-- A path below its first step. -/
def renderBelow : Path → String
  | [] => ""
  | .field name :: rest => "." ++ name ++ renderBelow rest
  | .index position :: rest => s!"[{position}]" ++ renderBelow rest

/-- A path as complaints spell it; the first field stands without a dot. -/
def render : Path → String
  | .field name :: rest => name ++ renderBelow rest
  | path => renderBelow path

end Path

namespace LoadError

/-- What went wrong while loading. -/
inductive Cause
  /-- A required field is absent. -/
  | missingField (field : String)
  /-- An index leads to a construct that cannot play the role. -/
  | wrongKind (index : Int) (table : Table) (role : Role) (actual : Kind)
  /-- An index lies outside `1, …, count`. -/
  | indexOutOfRange (index : Int) (table : Table) (count : Nat)
  /-- No entry of a table has the name of a key. -/
  | unknownKey (key : String) (table : Table)
  /-- A key is no name followed by an ordinal. -/
  | malformedKey (key : String)
  /-- The data of a construct was asked for before it was filled in. -/
  | readTooEarly (id : Nat) (kind : Kind)
  /-- A construct was filled in for a second time. -/
  | filledTwice (id : Nat) (kind : Kind)
  /-- A kind that cannot stand where it was put. -/
  | misplaced (kind : Kind)
  /-- A node of the document has the wrong shape. -/
  | malformed (error : ReadError)
  /-- An id or position that was never given out. -/
  | outOfBounds (fault : OutOfBounds)
deriving DecidableEq

namespace Cause

/-- The wording of a cause, without the path. -/
def message : Cause → String
  | missingField field => (ReadError.missingField field).message
  | wrongKind index table role actual =>
    s!"{table.name} index {index} should refer to a {role.name}, found a {actual.name}"
  | indexOutOfRange index table count =>
    s!"{table.name} index {index} is out of range [1, {count}]"
  | unknownKey key table => s!"no {table.name} entry matches key `{key}`"
  | malformedKey key => s!"malformed key `{key}`: expected a name followed by an ordinal"
  | readTooEarly id kind => s!"{kind.name} {idLabel id} was read before it was initialized"
  | filledTwice id kind => s!"{kind.name} {idLabel id} was initialized twice"
  | misplaced kind => s!"a {kind.name} cannot be initialized in this position"
  | malformed error => error.message
  | outOfBounds fault => fault.message

/-- Whether the document is to blame, and not whoever loads it. -/
def blamesDocument : Cause → Bool
  | readTooEarly _ _ | filledTwice _ _ | misplaced _ | outOfBounds _ => false
  | _ => true

end Cause

end LoadError

/-- A failed load. -/
structure LoadError where
  path : Path
  cause : LoadError.Cause
deriving DecidableEq

namespace LoadError

/-- An error whose place is not known yet. -/
def of (cause : Cause) : LoadError := ⟨[], cause⟩

/-- The error seen from further out. -/
def within (outer : Path) (error : LoadError) : LoadError :=
  { error with path := outer ++ error.path }

/-- A failed read. A missing field and a field of the wrong shape know their place. -/
def ofReadError : ReadError → LoadError
  | .missingField field => ⟨[.field field], .missingField field⟩
  | .wrongType field expected found =>
    ⟨[.field field], .malformed (.wrongType field expected found)⟩
  | error => of (.malformed error)

/-- The whole complaint. -/
def message (error : LoadError) : String :=
  if error.path.isEmpty then error.cause.message
  else s!"{error.path.render}: {error.cause.message}"

end LoadError

/-- The outcome of a step of loading. -/
abbrev LoadResult (α : Type) := Except LoadError α

namespace LoadResult

/-- An outcome seen from further out. -/
def within {α : Type} (outer : Path) (result : LoadResult α) : LoadResult α :=
  result.mapError (LoadError.within outer)

/-- An outcome seen from the node that has the field. -/
def atField {α : Type} (field : String) (result : LoadResult α) : LoadResult α :=
  result.within [.field field]

/-- An outcome seen from the list that has the item. -/
def atIndex {α : Type} (position : Nat) (result : LoadResult α) : LoadResult α :=
  result.within [.index position]

/-- Works through a list from its first item, whose position is given, and stops at the first
failure, which is blamed on its position. -/
def forItems {α β : Type} (read : α → LoadResult β) (position : Nat) :
    List α → LoadResult (List β)
  | [] => .ok []
  | item :: rest => do
    let value ← LoadResult.atIndex position (read item)
    let values ← forItems read (position + 1) rest
    .ok (value :: values)

end LoadResult

/-- A failed read fails the load. -/
instance : MonadLift (Except ReadError) (Except LoadError) where
  monadLift result := result.mapError LoadError.ofReadError

/-- Asking for an id that was never given out fails the load. -/
instance : MonadLift (Except OutOfBounds) (Except LoadError) where
  monadLift result := result.mapError fun fault => .of (.outOfBounds fault)

end CodeGraph

import CodeGraph.Document.Node

/-! # Typed reads of a node

A field that is present but null counts as absent. Required reads fail when the field is absent or
of another shape. Optional scalars fall back to a default and never fail; optional lists fall back
to the empty list only when the field is absent.
-/

namespace CodeGraph

/-- Why a node could not be read. -/
inductive ReadError
  /-- A required field is absent. -/
  | missingField (field : String)
  /-- A field holds a node of the wrong shape. -/
  | wrongType (field : String) (expected found : Shape)
  /-- A node that is not addressed by a field has the wrong shape. -/
  | unexpectedShape (expected found : Shape)
  | notAnObject (found : Shape)
  | notAnArray (found : Shape)
  /-- The text of the document is no JSON text. -/
  | json (detail : String) (line column : Nat)
deriving DecidableEq

namespace ReadError

/-- The wording of the complaint. -/
def message : ReadError → String
  | missingField field => s!"missing required field `{field}`"
  | wrongType field expected found =>
    s!"field `{field}` should be {expected.name}, found {found.name}"
  | unexpectedShape expected found => s!"expected {expected.name}, found {found.name}"
  | notAnObject found => s!"expected an object, found {found.name}"
  | notAnArray found => s!"expected an array, found {found.name}"
  | json detail line column => s!"invalid JSON at line {line}, column {column}: {detail}"

end ReadError

namespace Node

/-- The entries of a node that has to be an object. -/
def expectObject (node : Node) : Except ReadError (List (String × Node)) :=
  match node with
  | object entries => .ok entries
  | _ => .error (.notAnObject node.shape)

/-- The items of a node that has to be an array. -/
def expectArray (node : Node) : Except ReadError (List Node) :=
  match node.items? with
  | some items => .ok items
  | none => .error (.notAnArray node.shape)

/-- The text of a node that has to be a string. -/
def expectString (node : Node) : Except ReadError String :=
  match node.string? with
  | some text => .ok text
  | none => .error (.unexpectedShape .string node.shape)

/-- The value of a node that has to be an integer. -/
def expectInt (node : Node) : Except ReadError Int :=
  match node.int? with
  | some value => .ok value
  | none => .error (.unexpectedShape .number node.shape)

/-- An optional field: `none` when it is absent or null, or when the node is no object. -/
def field? (node : Node) (name : String) : Option Node :=
  (node.get? name).filter fun value => value.shape ≠ .null

/-- A required field of an object. -/
def field (node : Node) (name : String) : Except ReadError Node :=
  match node with
  | object _ =>
    match node.field? name with
    | some value => .ok value
    | none => .error (.missingField name)
  | _ => .error (.notAnObject node.shape)

/-- What `view` sees of a field's value, or a complaint that the field has the wrong shape. -/
def viewField {α : Type} (name : String) (expected : Shape) (view : Node → Option α)
    (value : Node) : Except ReadError α :=
  match view value with
  | some seen => .ok seen
  | none => .error (.wrongType name expected value.shape)

/-- The entries of an object node, as a view. -/
def object? : Node → Option (List (String × Node))
  | object entries => some entries
  | _ => none

/-- A required text. -/
def readString (node : Node) (name : String) : Except ReadError String := do
  viewField name .string string? (← node.field name)

/-- A required truth value. -/
def readBool (node : Node) (name : String) : Except ReadError Bool := do
  viewField name .bool bool? (← node.field name)

/-- A required integer. -/
def readInt (node : Node) (name : String) : Except ReadError Int := do
  viewField name .number int? (← node.field name)

/-- A required list. -/
def readArray (node : Node) (name : String) : Except ReadError (List Node) := do
  viewField name .array items? (← node.field name)

/-- A required object. -/
def readObject (node : Node) (name : String) : Except ReadError (List (String × Node)) := do
  viewField name .object object? (← node.field name)

/-- An optional text, empty unless the field holds a string. -/
def optionalString (node : Node) (name : String) : String :=
  ((node.field? name).bind string?).getD ""

/-- An optional truth value, false unless the field holds one. -/
def optionalBool (node : Node) (name : String) : Bool :=
  ((node.field? name).bind bool?).getD false

/-- An optional integer, zero unless the field holds one. -/
def optionalInt (node : Node) (name : String) : Int :=
  ((node.field? name).bind int?).getD 0

/-- An optional list, empty when the field is absent. -/
def readArrayOrEmpty (node : Node) (name : String) : Except ReadError (List Node) :=
  match node.field? name with
  | some value => viewField name .array items? value
  | none => .ok []

/-- An optional object, empty when the field is absent. -/
def readObjectOrEmpty (node : Node) (name : String) :
    Except ReadError (List (String × Node)) :=
  match node.field? name with
  | some value => viewField name .object object? value
  | none => .ok []

end Node

end CodeGraph

import CodeGraph.Decimal

/-! # Document nodes

A document is a tree of nodes: nothing, truth values, numbers, texts, lists, and objects whose
entries keep the order in which their keys first appeared. The accessors here never fail; they
answer `none` for a node of another shape.
-/

namespace CodeGraph

/-- The shape of a single node. -/
inductive Shape
  | null
  | bool
  | number
  | string
  | array
  | object
deriving DecidableEq

namespace Shape

/-- The shape's name with its article, as complaints spell it. -/
def name : Shape → String
  | null => "null"
  | bool => "a bool"
  | number => "a number"
  | string => "a string"
  | array => "an array"
  | object => "an object"

/-- Scalars are the shapes that hold no other nodes. -/
def isScalar : Shape → Bool
  | array | object => false
  | _ => true

end Shape

/-- A number of a document. Only integers are ever asked for their value. -/
inductive Number
  /-- An integer within 64 bits. -/
  | integer (value : Int)
  /-- A number with a fraction or an exponent, negative zero, or an integer beyond 64 bits. -/
  | real
deriving DecidableEq

/-- A node of a document. -/
inductive Node
  | null
  | bool (value : Bool)
  | number (value : Number)
  | string (text : String)
  | array (items : List Node)
  | object (entries : List (String × Node))

namespace Node

/-- The shape of a node. -/
def shape : Node → Shape
  | null => .null
  | bool _ => .bool
  | number _ => .number
  | string _ => .string
  | array _ => .array
  | object _ => .object

/-- The value behind a key of an object; no other node has keys. -/
def get? (node : Node) (key : String) : Option Node :=
  match node with
  | object entries => entries.lookup key
  | _ => none

/-- The items of an array. -/
def items? : Node → Option (List Node)
  | array items => some items
  | _ => none

/-- The entries of an object, in document order; empty for every other node. -/
def entries : Node → List (String × Node)
  | object entries => entries
  | _ => []

/-- The text of a string node. -/
def string? : Node → Option String
  | string text => some text
  | _ => none

/-- The value of a truth value. -/
def bool? : Node → Option Bool
  | bool value => some value
  | _ => none

/-- The value of an integer. One beyond the signed 64-bit range counts as the largest of them. -/
def int? : Node → Option Int
  | number (.integer value) => some (min value Decimal.maxSigned)
  | _ => none

/-- Sets a key of an object: a key that is there keeps its place, a new one goes to the end. -/
def setEntry (key : String) (value : Node) : List (String × Node) → List (String × Node)
  | [] => [(key, value)]
  | (k, v) :: rest => if k = key then (key, value) :: rest else (k, v) :: setEntry key value rest

/-- The object with the given entries written one after the other. -/
def ofEntries (written : List (String × Node)) : Node :=
  object (written.foldl (fun entries (key, value) => setEntry key value entries) [])

theorem lookup_cons {α : Type} (asked key : String) (value : α) (rest : List (String × α)) :
    ((key, value) :: rest).lookup asked =
      if asked = key then some value else rest.lookup asked := by
  by_cases h : asked = key
  · simp [h]
  · have differ : (asked == key) = false := by simpa using h
    simp [List.lookup_cons, differ, h]

theorem lookup_setEntry (key asked : String) (value : Node) (entries : List (String × Node)) :
    (setEntry key value entries).lookup asked =
      if asked = key then some value else entries.lookup asked := by
  induction entries with
  | nil => simp [setEntry, lookup_cons]
  | cons entry rest ih =>
    obtain ⟨k, v⟩ := entry
    by_cases h : k = key
    · subst h
      by_cases here : asked = k <;> simp [setEntry, lookup_cons, here]
    · by_cases here : asked = k
      · subst here
        simp [setEntry, h]
      · simp [setEntry, h, lookup_cons, here, ih]

end Node

end CodeGraph

import CodeGraph.Draft

/-! # Reading references

A node refers to constructs by index, by a list of indices, by key or by a list of keys. Optional
references may be absent, but those that are there have to resolve.
-/

namespace CodeGraph.Draft

/-- The reference that an index node spells. -/
def refOfIndexNode (draft : Draft) {role : Role} (node : Node) : LoadResult (Ref role) := do
  draft.resolveIndex (← node.expectInt)

/-- The reference that a key node spells. -/
def refOfKeyNode (draft : Draft) {role : Role} (node : Node) : LoadResult (Ref role) := do
  draft.resolveKey (← node.expectString)

/-- A required index. -/
def readIndex (draft : Draft) {role : Role} (node : Node) (field : String) :
    LoadResult (Ref role) := do
  let index ← node.readInt field
  LoadResult.atField field (draft.resolveIndex index)

/-- An optional index. -/
def readIndex? (draft : Draft) {role : Role} (node : Node) (field : String) :
    LoadResult (Option (Ref role)) :=
  match node.field? field with
  | none => pure none
  | some value => LoadResult.atField field (some <$> draft.refOfIndexNode value)

/-- A required list of indices. -/
def readIndexList (draft : Draft) {role : Role} (node : Node) (field : String) :
    LoadResult (List (Ref role)) := do
  let items ← node.readArray field
  LoadResult.atField field (LoadResult.forItems draft.refOfIndexNode 0 items)

/-- The references of a list node, each of whose items `read` reads. -/
def refsOfListNode {role : Role} (read : Node → LoadResult (Ref role)) (node : Node) :
    LoadResult (List (Ref role)) := do
  LoadResult.forItems read 0 (← node.expectArray)

/-- An optional list of indices. -/
def readIndexListOrEmpty (draft : Draft) {role : Role} (node : Node) (field : String) :
    LoadResult (List (Ref role)) :=
  match node.field? field with
  | none => pure []
  | some value => LoadResult.atField field (refsOfListNode draft.refOfIndexNode value)

/-- A required key. -/
def readKey (draft : Draft) {role : Role} (node : Node) (field : String) :
    LoadResult (Ref role) := do
  let key ← node.readString field
  LoadResult.atField field (draft.resolveKey key)

/-- An optional list of keys. -/
def readKeyListOrEmpty (draft : Draft) {role : Role} (node : Node) (field : String) :
    LoadResult (List (Ref role)) :=
  match node.field? field with
  | none => pure []
  | some value => LoadResult.atField field (refsOfListNode draft.refOfKeyNode value)

end CodeGraph.Draft

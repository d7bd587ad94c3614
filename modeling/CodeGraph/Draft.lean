import CodeGraph.Construct
import CodeGraph.Key
import CodeGraph.LoadError

/-! # Projects in the making

A project is loaded in two passes. The first reserves an arena slot for each entry of the document,
so that every id, every table position and every key is settled. The second fills each slot with
its construct. References resolve by the kinds of the slots alone, so they may point ahead to slots
that are not filled yet.
-/

namespace CodeGraph

/-- What is known of a construct before it is filled in. -/
structure Reservation where
  kind : Kind
  /-- The name by which keys find it, for kinds that are keyed. -/
  name : Option String
deriving DecidableEq

/-- One place of the arena. -/
inductive Slot
  | reserved (reservation : Reservation)
  | filled (construct : Construct)
deriving DecidableEq

namespace Slot

/-- The kind of the construct that belongs in a slot. -/
def kind : Slot → Kind
  | reserved reservation => reservation.kind
  | filled construct => construct.kind

end Slot

/-- For each name its positions in a table, counted from one and in the order of the table. -/
abbrev KeyIndex := List (String × List Nat)

namespace KeyIndex

/-- Adds a position behind those of a name. A name that is new gets it as its only one. -/
def push (name : String) (position : Nat) : KeyIndex → KeyIndex
  | [] => [(name, [position])]
  | (other, positions) :: rest =>
    if other = name then (other, positions ++ [position]) :: rest
    else (other, positions) :: push name position rest

/-- The positions of a name, if it has any. -/
def positions? (index : KeyIndex) (name : String) : Option (List Nat) := index.lookup name

/-- Adds what stands at a position of a table, counted from zero, if its slot is reserved under a
name. -/
def add (reservations : List Reservation) (index : KeyIndex) (id position : Nat) : KeyIndex :=
  match reservations[id]?.bind Reservation.name with
  | some name => index.push name (position + 1)
  | none => index

/-- The key index of a table. -/
def ofTable (reservations : List Reservation) (ids : List Nat) : KeyIndex :=
  ids.zipIdx.foldl (fun index (id, position) => index.add reservations id position) []

end KeyIndex

/-- A project in the making. -/
structure Draft where
  slots : List Slot
  /-- The ids that each table lists. -/
  tables : Tables (List Nat)
  /-- The names under which the entries of each table were reserved. -/
  keys : Tables KeyIndex
deriving DecidableEq

namespace Draft

/-- Reserves the next slot. Its id is the number of slots before it. -/
def reserve (kind : Kind) (name : Option String) (reservations : List Reservation) :
    Nat × List Reservation :=
  (reservations.length, reservations ++ [⟨kind, name⟩])

/-- Settles tables and keys over reserved slots, before any of them is filled. -/
def compose (reservations : List Reservation) (tables : Tables (List Nat)) : Draft where
  slots := reservations.map .reserved
  tables
  keys := .ofFn fun table => KeyIndex.ofTable reservations (tables.get table)

/-- The number of slots. -/
def size (draft : Draft) : Nat := draft.slots.length

/-- The ids that a table lists, in index order. -/
def table (draft : Draft) (table : Table) : List Nat := draft.tables.get table

/-- The kind of a slot, filled or not. -/
def kind (draft : Draft) (id : Nat) : Except OutOfBounds Kind :=
  (entryAt draft.slots id).map Slot.kind

/-- The reservation of a slot that is not filled yet. -/
def reservation? (draft : Draft) (id : Nat) : Except OutOfBounds (Option Reservation) := do
  match ← entryAt draft.slots id with
  | .reserved reservation => pure (some reservation)
  | .filled _ => pure none

/-! ## Resolving references -/

/-- The entry of a list at an index counted from one, if the index is in the range of the list. -/
def atIndex? {α : Type} (entries : List α) (index : Int) : Option α := do
  let position ← index.toNat?.filter fun position => 1 ≤ position ∧ position ≤ entries.length
  entries[position - 1]?

/-- The reference behind an index of the role's table. -/
def resolveIndex (draft : Draft) {role : Role} (index : Int) : LoadResult (Ref role) := do
  let entries := draft.table role.table
  match atIndex? entries index with
  | none => throw (.of (.indexOutOfRange index role.table entries.length))
  | some id =>
    let actual ← draft.kind id
    if role.accepts actual then pure ⟨id⟩
    else throw (.of (.wrongKind index role.table role actual))

/-- The reference behind a key of the role's table. -/
def resolveKey (draft : Draft) {role : Role} (text : String) : LoadResult (Ref role) := do
  let key ← Key.parse text
  match (draft.keys.get role.table).positions? key.name with
  | none => throw (.of (.unknownKey text role.table))
  | some positions =>
    match atIndex? positions key.ordinal with
    | none =>
      throw (.of (.indexOutOfRange (min key.ordinal Decimal.maxSigned) role.table positions.length))
    | some position => draft.resolveIndex position

/-! ## Filling slots -/

/-- The construct of a filled slot. -/
def construct (draft : Draft) (id : Nat) : LoadResult Construct := do
  match ← entryAt draft.slots id with
  | .filled construct => pure construct
  | .reserved reservation => throw (.of (.readTooEarly id reservation.kind))

/-- What the target of a reference holds. -/
def data (draft : Draft) {kind : Kind} (ref : Ref (.only kind)) : LoadResult kind.Data := do
  let construct ← draft.construct ref.id
  match construct.data? kind with
  | some data => pure data
  | none => throw (.of (.wrongKind ref.id kind.table (.only kind) construct.kind))

/-- Changes what the target of a reference holds. -/
def update (draft : Draft) {kind : Kind} (ref : Ref (.only kind))
    (change : kind.Data → kind.Data) : LoadResult Draft := do
  let data ← draft.data ref
  pure { draft with slots := draft.slots.set ref.id (.filled (.ofData kind (change data))) }

/-- Changes a draft and may fail. What it did to the draft before its failure stays. -/
abbrev Change (α : Type) := ExceptT LoadError (StateM Draft) α

namespace Change

variable {α : Type}

/-- What comes of a change, and the draft that it leaves. -/
def runOn (draft : Draft) (change : Change α) : Except LoadError α × Draft :=
  Id.run (change.run.run draft)

/-- The draft that a change leaves, where a failure gives up the draft. -/
def outcome (draft : Draft) (change : Change Unit) : LoadResult Draft := do
  let (result, changed) := change.runOn draft
  result
  return changed

variable {β : Type} (draft : Draft)

@[simp]
theorem runOn_get_bind (next : Draft → Change β) :
    (get >>= next : Change β).runOn draft = (next draft).runOn draft := rfl

@[simp]
theorem runOn_set (changed : Draft) :
    (set changed : Change PUnit).runOn draft = (.ok (), changed) := rfl

@[simp]
theorem runOn_throw (error : LoadError) :
    (throw error : Change β).runOn draft = (.error error, draft) := rfl

@[simp]
theorem runOn_throw_bind (error : LoadError) (next : α → Change β) :
    (throw error >>= next : Change β).runOn draft = (.error error, draft) := rfl

end Change

/-- Fills a slot with the construct it was reserved for. -/
def fill (id : Nat) (construct : Construct) : Change Unit := do
  let draft ← get
  match entryAt draft.slots id with
  | .error fault => throw (.of (.outOfBounds fault))
  | .ok (.filled present) => throw (.of (.filledTwice id present.kind))
  | .ok (.reserved reservation) =>
    if reservation.kind ≠ construct.kind then throw (.of (.misplaced construct.kind))
    set { draft with slots := draft.slots.set id (.filled construct) }

/-- The constructs of slots that are all filled; `id` is the id of the first of them. -/
def completeFrom (id : Nat) : List Slot → LoadResult (List Construct)
  | [] => pure []
  | .reserved reservation :: _ => throw (.of (.readTooEarly id reservation.kind))
  | .filled construct :: slots => do
    let constructs ← completeFrom (id + 1) slots
    pure (construct :: constructs)

/-- The constructs of a draft whose slots are all filled. -/
def complete (draft : Draft) : LoadResult (List Construct) := completeFrom 0 draft.slots

end Draft

end CodeGraph

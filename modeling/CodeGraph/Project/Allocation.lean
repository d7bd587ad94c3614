import CodeGraph.Construct.OfNode

/-! # The first pass

The first pass walks through a document and reserves a slot for each of its entries: the types of
the top level list by list, then each package followed by its members list by list. An id is the
number of slots before it, so it is final from the start. Each entry is listed in the table of its
kind and waits for the second pass.
-/

namespace CodeGraph

/-- An entry of a document that waits for the second pass. -/
structure Pending where
  id : Nat
  kind : Kind
  node : Node
  /-- Where the entry stands in the document. -/
  path : Path
  placement : Placement

namespace Members

/-- The members with those of a kind. -/
def withIds (kind : Kind) (ids : List Nat) (members : Members) : Members :=
  match kind with
  | .interfaceDecl => { members with interfaceDecls := ids.map Ref.mk }
  | .interfaceInst => { members with interfaceInsts := ids.map Ref.mk }
  | .objectDecl => { members with objectDecls := ids.map Ref.mk }
  | .objectInst => { members with objectInsts := ids.map Ref.mk }
  | .methodDecl => { members with methodDecls := ids.map Ref.mk }
  | .methodInst => { members with methodInsts := ids.map Ref.mk }
  | _ => { members with values := ids.map Ref.mk }

end Members

/-- What the first pass has come to. -/
structure Allocation where
  /-- What the slots of the arena are reserved for. -/
  reservations : List Reservation
  /-- The ids that each table lists. -/
  tables : Tables (List Nat)
  pending : List Pending

namespace Allocation

/-- A step of the first pass. -/
abbrev Step (α : Type) := StateT Allocation (Except LoadError) α

/-- The lists of types at the top level. -/
def typeLists : List (String × Kind) :=
  [("basics", .basic), ("interfaceDescs", .interfaceDesc), ("named", .named),
    ("signatures", .signature), ("solids", .solid), ("structDescs", .structDesc),
    ("unions", .union)]

/-- The lists of members of a package. -/
def memberLists : List (String × Kind) :=
  [("interfaceDecls", .interfaceDecl), ("interfaceInsts", .interfaceInst),
    ("objectDecls", .objectDecl), ("objectInsts", .objectInst), ("methodDecls", .methodDecl),
    ("methodInsts", .methodInst), ("values", .value)]

/-- Nothing is reserved. -/
def empty : Allocation where
  reservations := []
  tables := .ofFn fun _ => []
  pending := []

/-- Reserves the next slot of the arena. -/
def reserve (kind : Kind) (name : Option String) : Step Nat := modifyGet fun allocation =>
  let (id, reservations) := Draft.reserve kind name allocation.reservations
  (id, { allocation with reservations })

/-- Reserves a slot for an entry, lists it and leaves the entry to the second pass. -/
def allocate (kind : Kind) (placement : Placement) (path : Path) (node : Node) : Step Nat := do
  let name ← LoadResult.within path (identityName kind node)
  let id ← reserve kind name
  modify fun allocation =>
    { allocation with
      tables := allocation.tables.update kind.table (· ++ [id])
      pending := allocation.pending ++ [{ id, kind, node, path, placement }] }
  return id

/-- Allocates the items of an optional list of `owner`, which stands at `outer`. -/
def allocateList (owner : Node) (outer : Path) (placement : Placement) (field : String)
    (kind : Kind) : Step (List Nat) := do
  let items ← LoadResult.within outer (liftM (owner.readArrayOrEmpty field))
  items.zipIdx.mapM fun (node, position) =>
    allocate kind placement (outer ++ [.field field, .index position]) node

/-- Allocates the members of a package list by list. -/
def allocateMembers (package : PackageRef) (path : Path) (node : Node) : Step Members :=
  memberLists.foldlM (fun members (field, kind) => do
    let ids ← allocateList node path (.member package) field kind
    return members.withIds kind ids) .empty

/-- Allocates a package and its members. What the package owns is known behind its members, and its
entry is completed then. -/
def allocatePackage (position : Nat) (node : Node) : Step Unit := do
  let path : Path := [.field "packages", .index position]
  let slot := (← get).pending.length
  let id ← allocate .package .topLevel path node
  let members ← allocateMembers ⟨id⟩ path node
  modify fun allocation =>
    { allocation with
      pending := allocation.pending.modify slot fun entry =>
        { entry with placement := .package members } }

/-- Allocates all entries of a document. -/
def allocateDocument (document : Node) : Step Unit := do
  typeLists.forM fun (field, kind) => discard (allocateList document [] .topLevel field kind)
  let packages ← document.readArrayOrEmpty "packages"
  packages.zipIdx.forM fun (node, position) => allocatePackage position node

/-- The first pass over a document. -/
def ofDocument (document : Node) : LoadResult Allocation := do
  let (_, allocation) ← (allocateDocument document).run empty
  return allocation

/-- The draft of a project in which every slot is reserved and none is filled. -/
def compose (allocation : Allocation) : Draft :=
  Draft.compose allocation.reservations allocation.tables

end Allocation

end CodeGraph

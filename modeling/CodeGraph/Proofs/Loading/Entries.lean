import CodeGraph.Project.Load
import CodeGraph.Proofs.Outcome

/-! # What the first pass comes to

The allocator works on a state. What it leaves can be told without one: the entries of a document in
the order of the arena (`CodeGraph.Entry.ofDocument`), where the position of an entry is its id. The
steps of the allocator are followed one by one, from one entry (`CodeGraph.Allocation.run_allocate`)
over lists and packages to the whole document (`CodeGraph.Allocation.ofDocument_eq`), each of them
adding its entries behind those before it.
-/

namespace CodeGraph

/-- An entry of a document. -/
structure Entry where
  kind : Kind
  /-- The name by which keys find the construct. -/
  name : Option String
  node : Node
  /-- Where the entry stands in the document. -/
  path : Path
  placement : Placement

/-- The members whose lists hold the given ids. -/
def Members.ofFn (ids : Kind → List Nat) : Members where
  interfaceDecls := (ids .interfaceDecl).map Ref.mk
  interfaceInsts := (ids .interfaceInst).map Ref.mk
  objectDecls := (ids .objectDecl).map Ref.mk
  objectInsts := (ids .objectInst).map Ref.mk
  methodDecls := (ids .methodDecl).map Ref.mk
  methodInsts := (ids .methodInst).map Ref.mk
  values := (ids .value).map Ref.mk

namespace Entry

/-! ## The entries of a document -/

/-- The entry that a node spells. -/
def ofNode (kind : Kind) (placement : Placement) (path : Path) (node : Node) :
    LoadResult Entry := do
  let name ← LoadResult.within path (identityName kind node)
  return { kind, name, node, path, placement }

/-- The entries of an optional list of `owner`, which stands at `outer`. -/
def readList (owner : Node) (outer : Path) (placement : Placement) (field : String) (kind : Kind) :
    LoadResult (List Entry) := do
  let items ← LoadResult.within outer (liftM (owner.readArrayOrEmpty field))
  items.zipIdx.mapM fun (node, position) =>
    ofNode kind placement (outer ++ [.field field, .index position]) node

/-- The ids of the entries of a kind where lists of the given kinds and lengths are numbered one
behind the other. -/
def numbered (first : Nat) : List (Kind × Nat) → Kind → List Nat
  | [], _ => []
  | (kind, length) :: rest, asked =>
    if kind = asked then List.range' first length else numbered (first + length) rest asked

/-- The members of the package with the given id, from the lists that were read for it. -/
def owned (id : Nat) (lists : List (List Entry)) : Members :=
  .ofFn (numbered (id + 1)
    ((Allocation.memberLists.map Prod.snd).zip (lists.map List.length)))

/-- The entry of the package with the given id, followed by those of its members. -/
def readPackage (id : Nat) (path : Path) (node : Node) : LoadResult (List Entry) := do
  let package ← ofNode .package .topLevel path node
  let lists ← Allocation.memberLists.mapM fun (field, kind) =>
    readList node path (.member ⟨id⟩) field kind
  return { package with placement := .package (owned id lists) } :: lists.flatten

/-- The entries of packages in a row, the first of which has the given id and position. -/
def readPackages (id position : Nat) : List Node → LoadResult (List Entry)
  | [] => pure []
  | node :: rest => do
    let entries ← readPackage id [.field "packages", .index position] node
    let later ← readPackages (id + entries.length) (position + 1) rest
    return entries ++ later

/-- All entries of a document. -/
def ofDocument (document : Node) : LoadResult (List Entry) := do
  let lists ← Allocation.typeLists.mapM fun (field, kind) =>
    readList document [] .topLevel field kind
  let types := lists.flatten
  let packages ← document.readArrayOrEmpty "packages"
  let owned ← readPackages types.length 0 packages
  return types ++ owned

/-- The ids of the entries that a table lists. -/
def idsIn (entries : List Entry) (table : Table) : List Nat :=
  entries.zipIdx.filterMap fun (entry, id) =>
    if entry.kind.table = table then some id else none

/-- The kinds of entries in a row. -/
def kinds (entries : List Entry) : List Kind := entries.map kind

/-- What an entry is reserved as. -/
def reservation (entry : Entry) : Reservation := ⟨entry.kind, entry.name⟩

/-- What entries in a row are reserved as. -/
def reservations (entries : List Entry) : List Reservation := entries.map reservation

/-- An entry with an id, as it waits for the second pass. -/
def pendingAt (entry : Entry) (id : Nat) : Pending :=
  ⟨id, entry.kind, entry.node, entry.path, entry.placement⟩

@[simp]
theorem length_reservations (entries : List Entry) :
    (reservations entries).length = entries.length :=
  List.length_map _

@[simp]
theorem getElem?_reservations (entries : List Entry) (id : Nat) :
    (reservations entries)[id]? = entries[id]?.map reservation :=
  List.getElem?_map

/-- An entry behind the others gets their number as its id, in the table of its kind. -/
theorem idsIn_append_singleton (entries : List Entry) (entry : Entry) (table : Table) :
    idsIn (entries ++ [entry]) table =
      idsIn entries table ++ if entry.kind.table = table then [entries.length] else [] := by
  unfold idsIn
  rw [List.zipIdx_append, List.filterMap_append]
  split <;> simp_all

/-- A table lists entries by their kinds alone. -/
theorem idsIn_eq_of_kinds (entries : List Entry) (table : Table) :
    idsIn entries table = (kinds entries).zipIdx.filterMap fun (kind, id) =>
      if kind.table = table then some id else none := by
  rw [idsIn, kinds, List.zipIdx_map, List.filterMap_map]
  rfl

/-- Entries of the same kinds are listed alike. -/
theorem idsIn_congr {entries others : List Entry} (same : kinds entries = kinds others) :
    idsIn entries = idsIn others := by
  funext table
  rw [idsIn_eq_of_kinds, idsIn_eq_of_kinds, same]

end Entry

/-! ## The steps of the allocator -/

namespace Allocation

/-- The allocation that entries in a row have come to. -/
def ofEntries (entries : List Entry) : Allocation where
  reservations := Entry.reservations entries
  tables := .ofFn (Entry.idsIn entries)
  pending := entries.zipIdx.map fun (entry, id) => entry.pendingAt id

/-- Listing the next id in the table of an entry is listing the entry behind the others. -/
theorem update_tables (entries : List Entry) (entry : Entry) :
    (ofEntries entries).tables.update entry.kind.table (· ++ [entries.length]) =
      (ofEntries (entries ++ [entry])).tables := by
  simp only [ofEntries, Tables.ofFn, Entry.idsIn_append_singleton]
  cases entry.kind.table <;> simp [Tables.update]

/-- One entry is added behind the others, and its id is their number. -/
theorem run_allocate (kind : Kind) (placement : Placement) (path : Path) (node : Node)
    (before : List Entry) :
    (allocate kind placement path node).run (ofEntries before) =
      (fun entry => (before.length, ofEntries (before ++ [entry]))) <$>
        Entry.ofNode kind placement path node := by
  unfold allocate Entry.ofNode
  cases LoadResult.within path (identityName kind node) with
  | error error => rfl
  | ok name =>
      have tables := update_tables before ⟨kind, name, node, path, placement⟩
      simp only [ofEntries] at tables ⊢
      simp [reserve, Draft.reserve, Entry.reservations, Entry.reservation, Entry.pendingAt,
        List.zipIdx_append, tables]

/-- Entries in a row get ids in a row, if each of them is added behind the others. -/
theorem run_mapM_allocate {α : Type} {step : α → Step Nat} {read : α → LoadResult Entry}
    (each : ∀ item before, (step item).run (ofEntries before) =
      (fun entry => (before.length, ofEntries (before ++ [entry]))) <$> read item)
    (items : List α) (before : List Entry) :
    (items.mapM step).run (ofEntries before) =
      (fun entries => (List.range' before.length entries.length, ofEntries (before ++ entries))) <$>
        items.mapM read := by
  induction items generalizing before with
  | nil => simp
  | cons item rest ih =>
      rw [List.mapM_cons, List.mapM_cons, StateT.run_bind, each]
      cases read item with
      | error error => rfl
      | ok entry =>
          simp only [map_ok, ok_bind, StateT.run_bind, ih]
          cases rest.mapM read with
          | error error => rfl
          | ok entries =>
              simp only [map_ok, ok_bind, List.length_append, List.length_singleton,
                List.append_assoc, List.singleton_append, StateT.run_pure]
              rfl

/-- A list of entries is added behind the others, and its ids are consecutive. -/
theorem run_allocateList (owner : Node) (outer : Path) (placement : Placement) (field : String)
    (kind : Kind) (before : List Entry) :
    (allocateList owner outer placement field kind).run (ofEntries before) =
      (fun entries => (List.range' before.length entries.length, ofEntries (before ++ entries))) <$>
        Entry.readList owner outer placement field kind := by
  unfold allocateList Entry.readList
  cases LoadResult.within outer (liftM (owner.readArrayOrEmpty field)) with
  | error error => rfl
  | ok items =>
      exact run_mapM_allocate (fun (node, position) => run_allocate kind placement _ node) _ before

/-- The members of a package are added list by list behind the entry of the package. Their ids, kind
by kind, are what the package owns. -/
theorem run_allocateMembers (path : Path) (node : Node) {id : Nat} {before : List Entry}
    (first : before.length = id + 1) :
    (allocateMembers ⟨id⟩ path node).run (ofEntries before) =
      (fun lists => (Entry.owned id lists, ofEntries (before ++ lists.flatten))) <$>
        memberLists.mapM fun (field, kind) =>
          Entry.readList node path (.member ⟨id⟩) field kind := by
  simp [allocateMembers, memberLists, run_allocateList, Members.withIds, Entry.owned,
    Entry.numbered, Members.ofFn, first, Nat.add_assoc]

/-- Where an entry is placed does not matter but to the entry itself. -/
theorem modify_ofEntries (before : List Entry) (entry : Entry) (after : List Entry)
    (placement : Placement) :
    { ofEntries (before ++ entry :: after) with
      pending := (ofEntries (before ++ entry :: after)).pending.modify before.length
        fun pending => { pending with placement } } =
      ofEntries (before ++ { entry with placement } :: after) := by
  have kinds : Entry.kinds (before ++ entry :: after) =
      Entry.kinds (before ++ { entry with placement } :: after) := by simp [Entry.kinds]
  simp [ofEntries, Entry.reservations, Entry.reservation, Entry.idsIn_congr kinds,
    List.zipIdx_append, List.modify_eq_take_drop, Entry.pendingAt]

/-- A package is added together with its members. -/
theorem run_allocatePackage (position : Nat) (node : Node) (before : List Entry) :
    (allocatePackage position node).run (ofEntries before) =
      (fun entries => ((), ofEntries (before ++ entries))) <$>
        Entry.readPackage before.length [.field "packages", .index position] node := by
  have size : (ofEntries before).pending.length = before.length := by simp [ofEntries]
  simp only [allocatePackage, Entry.readPackage, StateT.run_bind, StateT.run_get, pure_bind,
    run_allocate, size]
  cases Entry.ofNode .package .topLevel [.field "packages", .index position] node with
  | error error => rfl
  | ok package =>
      have next : (before ++ [package]).length = before.length + 1 := by simp
      simp only [map_ok, ok_bind, run_allocateMembers _ node next]
      cases memberLists.mapM fun (field, kind) => Entry.readList node
          [.field "packages", .index position] (.member ⟨before.length⟩) field kind with
      | error error => rfl
      | ok lists =>
          have completed := modify_ofEntries before package lists.flatten
            (.package (Entry.owned before.length lists))
          simp only [map_ok, ok_bind, StateT.run_modify, List.append_assoc, List.singleton_append]
          exact congrArg (fun allocation => Except.ok (PUnit.unit, allocation)) completed

/-- Packages are added one behind the other, each with its members. -/
theorem run_allocatePackages (position : Nat) (nodes : List Node) (before : List Entry) :
    ((nodes.zipIdx position).forM fun (node, position) => allocatePackage position node).run
        (ofEntries before) =
      (fun entries => ((), ofEntries (before ++ entries))) <$>
        Entry.readPackages before.length position nodes := by
  induction nodes generalizing position before with
  | nil => simp [Entry.readPackages]
  | cons node rest ih =>
      simp only [List.zipIdx_cons, List.forM_eq_forM, List.forM_cons, Entry.readPackages,
        StateT.run_bind, run_allocatePackage] at ih ⊢
      cases Entry.readPackage before.length [.field "packages", .index position] node with
      | error error => rfl
      | ok entries =>
          simp only [map_ok, ok_bind, ih, List.length_append]
          cases Entry.readPackages (before.length + entries.length) (position + 1) rest with
          | error error => rfl
          | ok later => simp [pure, Except.pure]

/-- The lists of types are added one behind the other. -/
theorem run_allocateLists (document : Node) (lists : List (String × Kind)) (before : List Entry) :
    (lists.forM fun (field, kind) =>
        discard (allocateList document [] .topLevel field kind)).run (ofEntries before) =
      (fun read => ((), ofEntries (before ++ read.flatten))) <$>
        lists.mapM fun (field, kind) => Entry.readList document [] .topLevel field kind := by
  induction lists generalizing before with
  | nil => simp
  | cons list rest ih =>
      obtain ⟨field, kind⟩ := list
      simp only [List.forM_eq_forM, List.forM_cons, List.mapM_cons, StateT.run_bind, discard,
        map_const, Function.comp_apply, StateT.run_map, run_allocateList] at ih ⊢
      cases Entry.readList document [] .topLevel field kind with
      | error error => rfl
      | ok entries =>
          simp only [map_ok, ok_bind, ih]
          cases rest.mapM fun (field, kind) =>
              Entry.readList document [] .topLevel field kind with
          | error error => rfl
          | ok later => simp [pure, Except.pure]

/-- **What the first pass comes to.** It succeeds exactly if the entries of the document can be
listed, and then reserves a slot for each of them. -/
theorem ofDocument_eq (document : Node) :
    ofDocument document = ofEntries <$> Entry.ofDocument document := by
  have fresh : empty = ofEntries [] := rfl
  simp only [ofDocument, allocateDocument, Entry.ofDocument, fresh, StateT.run_bind,
    run_allocateLists]
  cases typeLists.mapM fun (field, kind) =>
      Entry.readList document [] .topLevel field kind with
  | error error => rfl
  | ok lists =>
      simp only [map_ok, ok_bind, List.nil_append]
      cases document.readArrayOrEmpty "packages" with
      | error error => rfl
      | ok packages =>
          have owned : ((packages.zipIdx.forM fun (node, position) =>
                allocatePackage position node).run (ofEntries lists.flatten) >>=
                fun (_, allocation) => pure allocation) =
              ofEntries <$> (Entry.readPackages lists.flatten.length 0 packages >>= fun owned =>
                pure (lists.flatten ++ owned)) := by
            rw [run_allocatePackages]
            cases Entry.readPackages lists.flatten.length 0 packages <;> rfl
          exact owned

/-- The first pass succeeds with the entries of the document. -/
theorem ofDocument_eq_ok_iff {document : Node} {allocation : Allocation} :
    ofDocument document = .ok allocation ↔
      ∃ entries, Entry.ofDocument document = .ok entries ∧ ofEntries entries = allocation := by
  rw [ofDocument_eq, map_eq_ok_iff]

@[simp]
theorem length_pending (entries : List Entry) :
    (ofEntries entries).pending.length = entries.length := by
  simp [ofEntries]

/-- What waits at a position is the entry there, with the position as its id. -/
theorem getElem?_pending (entries : List Entry) (id : Nat) :
    (ofEntries entries).pending[id]? = entries[id]?.map (Entry.pendingAt · id) := by
  simp [ofEntries, List.getElem?_zipIdx, Function.comp_def]

/-- What waits at a position has this position as its id. -/
theorem getElem?_pending_eq_some_iff {entries : List Entry} {id : Nat} {pending : Pending} :
    (ofEntries entries).pending[id]? = some pending ↔
      ∃ entry, entries[id]? = some entry ∧ entry.pendingAt id = pending := by
  rw [getElem?_pending, Option.map_eq_some_iff]

end Allocation

/-! ## The second pass over the entries -/

namespace Draft

/-- The draft in which every entry is reserved and none is filled. -/
def ofEntries (entries : List Entry) : Draft :=
  compose (Entry.reservations entries) (.ofFn (Entry.idsIn entries))

@[simp]
theorem compose_ofEntries (entries : List Entry) :
    (Allocation.ofEntries entries).compose = ofEntries entries := rfl

/-- Fills the slot of the entry at a position. -/
def fillEntry (entries : List Entry) (draft : Draft) (position : Nat) : LoadResult Draft := do
  let entry ← entryAt entries position
  LoadResult.within entry.path do
    let construct ← Construct.ofNode draft entry.kind entry.placement entry.node
    (fill position construct).outcome draft

/-- The entry that waits at a position is the one with the position as its id. -/
@[simp]
theorem fillPending_ofEntries (entries : List Entry) :
    fillPending (Allocation.ofEntries entries).pending = fillEntry entries := by
  funext draft position
  unfold fillPending fillEntry entryAt
  rw [Allocation.getElem?_pending, Allocation.length_pending]
  cases entries[position]? <;> rfl

end Draft

namespace Project

/-- Loading, told by the entries of the document. -/
theorem loadInOrder_by_entries (reorder : List Nat → List Nat) (document : Node) :
    loadInOrder reorder document = do
      let _ ← document.expectObject
      let entries ← Entry.ofDocument document
      let filled ← (reorder (List.range entries.length)).foldlM (Draft.fillEntry entries)
        (Draft.ofEntries entries)
      let linked ← filled.link
      let constructs ← linked.complete
      return {
        language := document.optionalString "language"
        constructs
        tables := linked.tables } := by
  unfold loadInOrder
  rw [Allocation.ofDocument_eq]
  cases Entry.ofDocument document with
  | error error => rfl
  | ok entries =>
      simp only [map_ok, ok_bind, Draft.fillPending_ofEntries, Draft.compose_ofEntries,
        Allocation.length_pending]

end Project

end CodeGraph

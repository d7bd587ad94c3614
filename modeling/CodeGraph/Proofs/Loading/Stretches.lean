import CodeGraph.Proofs.Loading.Instances
import CodeGraph.Proofs.Validity.Catalogue
import Mathlib.Algebra.GroupWithZero.Nat

/-! # Where the lists of a document stand in the arena

Each list of a document fills a stretch of the arena with constructs of one kind. The stretches
follow each other in document order: the lists of types first, then each package, which is a stretch
of its own, before its members (`CodeGraph.Node.stretches`). So the lengths of the lists before an
entry tell under which id its construct stands, and the lengths of those among them that belong to
the same table tell at which index it is listed (`CodeGraph.Project.arena_of_load`).
-/

namespace CodeGraph

/-- Entries of one kind that stand in a row. -/
structure Stretch where
  kind : Kind
  nodes : List Node

namespace Stretch

/-- The entries of a stretch, each with its kind. -/
def items (stretch : Stretch) : List (Kind × Node) :=
  stretch.nodes.map fun node => (stretch.kind, node)

/-- The number of entries of some stretches. -/
def total (stretches : List Stretch) : Nat :=
  (stretches.map fun stretch => stretch.nodes.length).sum

/-- The stretches that a table lists. -/
def listedIn (stretches : List Stretch) (table : Table) : List Stretch :=
  stretches.filter fun stretch => stretch.kind.table = table

@[simp]
theorem total_cons (stretch : Stretch) (rest : List Stretch) :
    total (stretch :: rest) = stretch.nodes.length + total rest := rfl

@[simp]
theorem total_append (first second : List Stretch) :
    total (first ++ second) = total first + total second := by
  simp [total]

/-- What two rows of stretches list in a table is listed one after the other. -/
theorem listedIn_append (first second : List Stretch) (table : Table) :
    listedIn (first ++ second) table = listedIn first table ++ listedIn second table :=
  List.filter_append first second

/-- Stretches have as many items as their lengths say. -/
theorem length_flatMap_items (stretches : List Stretch) :
    (stretches.flatMap items).length = total stretches := by
  induction stretches with
  | nil => rfl
  | cons stretch rest ih => simp [items, ih]

/-- The items of the kinds of a table are those of the stretches it lists. -/
theorem flatMap_items_filter (stretches : List Stretch) (table : Table) :
    (stretches.flatMap items).filter (fun item => item.1.table = table) =
      (listedIn stretches table).flatMap items := by
  induction stretches with
  | nil => rfl
  | cons stretch rest ih =>
      rw [List.flatMap_cons, List.filter_append, ih]
      by_cases belongs : stretch.kind.table = table
      · simp [items, belongs, listedIn]
      · simp [items, belongs, listedIn]

section Positions

variable {before after : List Stretch} {stretch : Stretch} {position : Nat} {node : Node}
  (here : stretch.nodes[position]? = some node)
include here

/-- An item stands behind all items of the stretches before its own. -/
theorem getElem?_flatMap_items :
    ((before ++ stretch :: after).flatMap items)[total before + position]? =
      some (stretch.kind, node) := by
  have inside : position < stretch.nodes.length := (List.getElem?_eq_some_iff.mp here).choose
  have inStretch : position < stretch.items.length := by simpa [items] using inside
  rw [List.flatMap_append, ← length_flatMap_items before,
    List.getElem?_append_right (Nat.le_add_right _ _), Nat.add_sub_cancel_left, List.flatMap_cons,
    List.getElem?_append_left inStretch]
  simp [items, here]

/-- As many entries of the same table stand before an entry as the stretches say. -/
theorem length_filter_take :
    ((((before ++ stretch :: after).flatMap items).take (total before + position)).filter
        fun item => item.1.table = stretch.kind.table).length =
      total (listedIn before stretch.kind.table) + position := by
  have inside : position < stretch.nodes.length := (List.getElem?_eq_some_iff.mp here).choose
  have inStretch : position ≤ stretch.items.length := by simpa [items] using Nat.le_of_lt inside
  have taken : ((before ++ stretch :: after).flatMap items).take (total before + position) =
      before.flatMap items ++ stretch.items.take position := by
    rw [List.flatMap_append, ← length_flatMap_items before, List.take_length_add_append,
      List.flatMap_cons, List.take_append_of_le_length inStretch]
  have same : (stretch.items.take position).filter
      (fun item => item.1.table = stretch.kind.table) = stretch.items.take position := by
    apply List.filter_eq_self.mpr
    intro item member
    obtain ⟨node, -, rfl⟩ := List.mem_map.mp (List.mem_of_mem_take member)
    exact decide_eq_true rfl
  rw [taken, List.filter_append, flatMap_items_filter, same, List.length_append,
    length_flatMap_items, List.length_take, Nat.min_eq_left inStretch]

end Positions

end Stretch

namespace Node

/-- The stretches that some lists of a node fill. -/
def stretchesOf (node : Node) (lists : List (String × Kind)) : List Stretch :=
  lists.map fun (field, kind) => ⟨kind, node.listed field⟩

/-- A package, followed by its members. -/
def packageStretches (package : Node) : List Stretch :=
  ⟨.package, [package]⟩ :: package.stretchesOf Allocation.memberLists

/-- The stretches that a document fills, in the order of the arena. -/
def stretches (document : Node) : List Stretch :=
  document.stretchesOf Allocation.typeLists ++ (document.listed "packages").flatMap packageStretches

/-- The stretches of lists hold the items of the lists. -/
theorem flatMap_stretchesOf (node : Node) (lists : List (String × Kind)) :
    (node.stretchesOf lists).flatMap Stretch.items = node.listedAs lists := by
  rw [stretchesOf, List.flatMap_map]
  rfl

/-- The catalogue of a document lists the entries of its stretches. -/
theorem catalogue_eq (document : Node) :
    document.catalogue = document.stretches.flatMap Stretch.items := by
  rw [catalogue, stretches, List.flatMap_append, flatMap_stretchesOf, List.flatMap_assoc]
  simp only [packageStretches, List.flatMap_cons, flatMap_stretchesOf]
  rfl

/-- The items of lists have the kinds of their lists. -/
theorem map_fst_listedAs (node : Node) (lists : List (String × Kind)) :
    (node.listedAs lists).map Prod.fst =
      lists.flatMap fun (field, kind) => List.replicate (node.listed field).length kind := by
  rw [listedAs, List.map_flatMap]
  apply List.flatMap_congr
  intro list _
  simp [Function.comp_def, List.map_const']

end Node

namespace Entry

/-- A table lists the entries behind others after them. -/
theorem idsIn_append (first second : List Entry) (table : Table) :
    idsIn (first ++ second) table =
      idsIn first table ++ (second.zipIdx first.length).filterMap fun (entry, id) =>
        if entry.kind.table = table then some id else none := by
  rw [idsIn, List.zipIdx_append, List.filterMap_append, Nat.zero_add]
  rfl

/-- An entry is listed behind the entries of its table that stand before it. -/
theorem getElem?_idsIn (before : List Entry) (entry : Entry) (after : List Entry) :
    (idsIn (before ++ entry :: after) entry.kind.table)[
      (listedIn before entry.kind.table).length]? = some before.length := by
  rw [idsIn_append, ← length_idsIn, List.getElem?_append_right (Nat.le_refl _), Nat.sub_self,
    List.zipIdx_cons, List.filterMap_cons]
  simp

section Stretches

variable {document : Node} {entries : List Entry}
  (reserved : ReservedFor document.catalogue entries) {before after : List Stretch}
  {stretch : Stretch} (split : document.stretches = before ++ stretch :: after) {position : Nat}
  {node : Node} (here : stretch.nodes[position]? = some node)
include reserved split here

/-- The entry of an item has the number of the items before it as its id. -/
theorem exists_of_stretch :
    ∃ entry, entries[Stretch.total before + position]? = some entry ∧
      entry.kind = stretch.kind ∧ entry.node = node := by
  have item : document.catalogue[Stretch.total before + position]? = some (stretch.kind, node) := by
    rw [Node.catalogue_eq, split]
    exact Stretch.getElem?_flatMap_items here
  rw [← reserved.items, List.getElem?_map, Option.map_eq_some_iff] at item
  obtain ⟨entry, present, same⟩ := item
  exact ⟨entry, present, congrArg Prod.fst same, congrArg Prod.snd same⟩

/-- The entry of an item is listed behind those of its table in the stretches before. -/
theorem getElem?_idsIn_of_stretch :
    (idsIn entries stretch.kind.table)[Stretch.total
        (Stretch.listedIn before stretch.kind.table) + position]? =
      some (Stretch.total before + position) := by
  obtain ⟨entry, present, same, -⟩ := exists_of_stretch reserved split here
  obtain ⟨inside, rfl⟩ := List.getElem?_eq_some_iff.mp present
  have earlier :
      (listedIn (entries.take (Stretch.total before + position)) stretch.kind.table).length =
        Stretch.total (Stretch.listedIn before stretch.kind.table) + position := by
    have inItems := @Stretch.length_filter_take before after stretch position node here
    rw [← inItems, ← split, ← Node.catalogue_eq, ← reserved.items, ← List.map_take,
      List.filter_map, List.length_map]
    rfl
  have listed := getElem?_idsIn (entries.take (Stretch.total before + position))
    entries[Stretch.total before + position] (entries.drop (Stretch.total before + position + 1))
  rwa [← List.drop_eq_getElem_cons inside, List.take_append_drop, List.length_take,
    Nat.min_eq_left (Nat.le_of_lt inside), same, earlier] at listed

end Stretches

end Entry

namespace Sample

/-- A second instance of the generic list. -/
def nestedInst : Node :=
  .object [("decl", .number (.integer 4)), ("instanceTypes", .array [.number (.integer 3)]),
    ("resolved", .number (.integer 3))]

/-- A value whose type is that instance. -/
def emptyList : Node := .object [("name", .string "empty"), ("type", .number (.integer 6))]

/-- A package that uses the generic list and declares nothing. -/
def client : Node :=
  .object [("name", .string "client"), ("imports", .array [.number (.integer 1)]),
    ("objectDecls", .null), ("objectInsts", .array [nestedInst]), ("methodDecls", .array []),
    ("values", .array [emptyList])]

/-- A document of the generic list and a package that uses it. -/
def clients : Node :=
  .object [("basics", .array [.string "int"]),
    ("named", .array [.object [("name", .string "T"), ("type", .number (.integer 1))]]),
    ("structDescs", .array [node]), ("packages", .array [package, client])]

/-- The project that this document spells. -/
def clientsProject : Project where
  language := ""
  constructs := [
    .basic ⟨"int"⟩,
    .named ⟨"T", ⟨0⟩⟩,
    .structDesc ⟨[⟨"value", ⟨1⟩, false⟩, ⟨"next", ⟨2⟩, false⟩]⟩,
    .package ⟨"lists", "", [],
      { Members.empty with objectDecls := [⟨4⟩], objectInsts := [⟨5⟩] }⟩,
    .objectDecl ⟨⟨"List", "", ⟨3⟩, [⟨1⟩]⟩, ⟨2⟩, [], [⟨5⟩, ⟨7⟩]⟩,
    .objectInst ⟨⟨4⟩, [⟨0⟩], ⟨2⟩, []⟩,
    .package ⟨"client", "", [⟨3⟩],
      { Members.empty with objectInsts := [⟨7⟩], values := [⟨8⟩] }⟩,
    .objectInst ⟨⟨4⟩, [⟨2⟩], ⟨2⟩, []⟩,
    .value ⟨"empty", "", ⟨6⟩, some ⟨7⟩, false⟩]
  tables := ⟨[0, 1, 2, 4, 5, 7], [3, 6], [], [], [8]⟩

theorem load_clients : Project.load clients = .ok clientsProject := by
  rw [Project.load, Project.loadInOrder_by_entries]
  rfl

end Sample

namespace Project

/-- But for its instances, the construct with an id is what a node of the document spells as a
kind. -/
def ReadFrom (project : Project) (document : Node) (id : Nat) (kind : Kind) (node : Node) : Prop :=
  ∃ allocation entry construct, Allocation.ofDocument document = .ok allocation ∧
    allocation.pending[id]? = some entry ∧ entry.id = id ∧ entry.kind = kind ∧ entry.node = node ∧
    project.construct? id = some construct ∧
    Construct.ofNode allocation.compose kind entry.placement node =
      .ok (construct.withInstances [])

section Loaded

variable {document : Node} {entries : List Entry} {constructs : List Construct}
  (reserved : Entry.ofDocument document = .ok entries)
  (read : entries.mapM (Entry.construct (Draft.ofEntries entries)) = .ok constructs)
include reserved read

omit reserved in
/-- Each entry has become the construct with its id, which has since got its instances. -/
theorem exists_construct?_of_entry {id : Nat} {entry : Entry} (here : entries[id]? = some entry) :
    ∃ construct, (ofConstructs document entries constructs).construct? id = some construct ∧
      Construct.ofNode (.ofEntries entries) entry.kind entry.placement entry.node =
        .ok (construct.withInstances []) := by
  obtain ⟨inside, rfl⟩ := List.getElem?_eq_some_iff.mp here
  have matched := mapM_eq_ok_iff.mp read
  have there : id < constructs.length := matched.length_eq ▸ inside
  have spelled := matched.get inside there
  have bare : constructs[id].withInstances [] = constructs[id] := by
    rw [← instanceIds_of_mapM read _ (List.getElem_mem there), Construct.withInstances_instanceIds]
  have built : (ofConstructs document entries constructs).construct? id = _ :=
    construct?_ofConstructs read id
  rw [List.getElem?_eq_getElem there, Option.map_some] at built
  refine ⟨_, built, ?_⟩
  rw [Construct.withInstances_withInstances, bare]
  exact LoadResult.within_eq_ok_iff.mp spelled

/-- Each construct was read from the node of its entry. -/
theorem readFrom_of_entry {id : Nat} {entry : Entry} (here : entries[id]? = some entry) :
    (ofConstructs document entries constructs).ReadFrom document id entry.kind entry.node := by
  have allocated := Allocation.ofDocument_eq_ok_iff.mpr ⟨entries, reserved, rfl⟩
  have waits := Allocation.getElem?_pending_eq_some_iff.mpr ⟨entry, here, rfl⟩
  obtain ⟨construct, there, spelled⟩ := exists_construct?_of_entry read here
  exact ⟨_, _, construct, allocated, waits, rfl, rfl, rfl, there, spelled⟩

omit reserved in
/-- A loaded project has the kinds that its entries are reserved for. -/
theorem kinds_ofConstructs :
    (ofConstructs document entries constructs).kinds = Entry.kinds entries :=
  (linkable_ofConstructs read).kind_eq

end Loaded

/-- Each table lists the ids whose kinds belong to it, in ascending order. -/
theorem tables_of_load {document : Node} {project : Project}
    (loaded : load document = .ok project) (table : Table) :
    (project.table table).Pairwise (· < ·) ∧
      ∀ id, id ∈ project.table table ↔
        ∃ kind, project.kinds[id]? = some kind ∧ kind.table = table := by
  obtain ⟨entries, constructs, -, -, read, rfl⟩ := load_eq_ok_iff.mp loaded
  have listed : (ofConstructs document entries constructs).table table =
      Entry.idsIn entries table := Draft.table_ofEntries entries table
  rw [listed, kinds_ofConstructs read]
  exact ⟨Entry.idsIn_ascending entries table, fun id => Entry.mem_idsIn_iff⟩

/-- **The arena follows the document.** The kinds of the constructs are those of the lists of the
document, in order: the lists of types, then each package followed by the lists of its members. Each
table lists the ids whose kinds belong to it, in ascending order, so each id is listed once. And the
lists before an entry tell the id of its construct and the index at which the id is listed. -/
theorem arena_of_load {document : Node} {project : Project}
    (loaded : load document = .ok project) :
    project.kinds =
      (Allocation.typeLists.flatMap fun (field, kind) =>
        List.replicate (document.listed field).length kind) ++
      ((document.listed "packages").flatMap fun package => .package ::
        Allocation.memberLists.flatMap fun (field, kind) =>
          List.replicate (package.listed field).length kind) ∧
    (∀ table, (project.table table).Pairwise (· < ·) ∧
      ∀ id, id ∈ project.table table ↔
        ∃ kind, project.kinds[id]? = some kind ∧ kind.table = table) ∧
    (∀ id < project.size, ∃ (table : Table) (index : Nat), (project.table table)[index]? = some id ∧
      ∀ (otherTable : Table) (otherIndex : Nat),
        (project.table otherTable)[otherIndex]? = some id →
          otherTable = table ∧ otherIndex = index) ∧
    ∀ before stretch after, document.stretches = before ++ stretch :: after →
      ∀ (position : Nat) (node : Node), stretch.nodes[position]? = some node →
        project.ReadFrom document (Stretch.total before + position) stretch.kind node ∧
        (project.table stretch.kind.table)[Stretch.total
            (Stretch.listedIn before stretch.kind.table) + position]? =
          some (Stretch.total before + position) := by
  obtain ⟨entries, constructs, -, ofDocument, read, rfl⟩ := load_eq_ok_iff.mp loaded
  obtain ⟨-, -, -, reserved⟩ := Entry.reservedFor_of_ofDocument ofDocument
  have kinds : (ofConstructs document entries constructs).kinds = Entry.kinds entries :=
    kinds_ofConstructs read
  have tables (table : Table) : (ofConstructs document entries constructs).table table =
      Entry.idsIn entries table := Draft.table_ofEntries entries table
  have distinct (table : Table) : (Entry.idsIn entries table).Nodup :=
    (Entry.idsIn_ascending entries table).imp Nat.ne_of_lt
  refine ⟨?_, tables_of_load loaded, ?_, ?_⟩
  · have listed : Entry.kinds entries = document.catalogue.map Prod.fst := by
      rw [← reserved.items, List.map_map]
      rfl
    rw [kinds, listed, Node.catalogue, List.map_append, Node.map_fst_listedAs, List.map_flatMap]
    simp only [List.map_cons, Node.map_fst_listedAs]
  · intro id inside
    have present : ∃ kind, (Entry.kinds entries)[id]? = some kind := by
      rw [← kinds, Project.kinds, List.getElem?_map]
      exact ⟨_, congrArg (Option.map Construct.kind) (List.getElem?_eq_getElem inside)⟩
    obtain ⟨kind, present⟩ := present
    have member : id ∈ Entry.idsIn entries kind.table :=
      Entry.mem_idsIn_iff.mpr ⟨kind, present, rfl⟩
    obtain ⟨index, there⟩ := List.getElem?_of_mem member
    refine ⟨kind.table, index, (tables _).symm ▸ there, ?_⟩
    intro otherTable otherIndex found
    rw [tables] at found
    obtain ⟨otherKind, presentToo, rfl⟩ := Entry.mem_idsIn_iff.mp (List.mem_of_getElem? found)
    cases present.symm.trans presentToo
    have inTable : index < (Entry.idsIn entries kind.table).length :=
      (List.getElem?_eq_some_iff.mp there).choose
    exact ⟨rfl, ((List.getElem?_inj inTable (distinct _)).mp (there.trans found.symm)).symm⟩
  · intro before stretch after split position node here
    obtain ⟨entry, present, sameKind, rfl⟩ := Entry.exists_of_stretch reserved split here
    refine ⟨sameKind ▸ readFrom_of_entry ofDocument read present, ?_⟩
    rw [tables]
    exact Entry.getElem?_idsIn_of_stretch reserved split here

/-- The instance in the second package has the id seven and, since packages are listed apart, the
sixth place among the types. -/
theorem arena_of_load_sample :
    load Sample.clients = .ok Sample.clientsProject ∧
      Sample.clientsProject.kinds = [.basic, .named, .structDesc, .package, .objectDecl,
        .objectInst, .package, .objectInst, .value] ∧
      Sample.clientsProject.ReadFrom Sample.clients 7 .objectInst Sample.nestedInst ∧
      (Sample.clientsProject.table .types)[5]? = some 7 := by
  obtain ⟨kinds, -, -, stands⟩ := arena_of_load Sample.load_clients
  have split : Sample.clients.stretches = Sample.clients.stretches.take 19 ++
      ⟨.objectInst, [Sample.nestedInst]⟩ :: Sample.clients.stretches.drop 20 := rfl
  obtain ⟨read, listed⟩ := stands _ _ _ split 0 Sample.nestedInst rfl
  exact ⟨Sample.load_clients, kinds, read, listed⟩

end Project

end CodeGraph

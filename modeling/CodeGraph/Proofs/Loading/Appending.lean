import CodeGraph.Proofs.Loading.Carrying
import CodeGraph.Proofs.Loading.Ownership
import Mathlib.Data.Option.Basic

/-! # One more package

Packages come last in the arena and in every table they have entries in, so a document that is given
one more package is reserved as before, with the entries of the package behind
(`CodeGraph.Entry.ofDocument_appendPackage`). All that the old entries spell stays as it is; only
declarations may list more instances, at the end. What fails is blamed on the new package
(`CodeGraph.Project.load_appendPackage`).
-/

namespace CodeGraph

open LoadResult

namespace Node

/-- A document with one more package at the end. -/
def appendPackage (document package : Node) : Node :=
  .object (setEntry "packages" (.array (document.listed "packages" ++ [package])) document.entries)

variable {document : Node} (object : document.shape = .object) (package : Node)
include object

/-- Appending a package changes the list of packages alone. -/
theorem field?_appendPackage (name : String) :
    (document.appendPackage package).field? name =
      if name = "packages" then some (.array (document.listed "packages" ++ [package]))
      else document.field? name := by
  cases document with
  | object entries =>
      rw [appendPackage, field?, get?, lookup_setEntry]
      split
      · rfl
      · rfl
  | _ => cases object

/-- Fields other than the packages are as they were. -/
theorem field?_appendPackage_of_ne {name : String} (other : name ≠ "packages") :
    (document.appendPackage package).field? name = document.field? name := by
  rw [field?_appendPackage object, if_neg other]

end Node

namespace Entry

/-- A list is read from its own field alone. -/
theorem readList_congr {owner owner' : Node} {field : String}
    (same : owner.field? field = owner'.field? field) (outer : Path) (placement : Placement)
    (kind : Kind) : readList owner outer placement field kind =
      readList owner' outer placement field kind := by
  simp only [readList, Node.readArrayOrEmpty, same]

/-- Lists are read from their own fields alone. -/
theorem readLists_congr {owner owner' : Node} {lists : List (String × Kind)}
    (same : ∀ list ∈ lists, owner.field? list.1 = owner'.field? list.1) (outer : Path)
    (placement : Placement) :
    (lists.mapM fun (field, kind) => readList owner outer placement field kind) =
      lists.mapM fun (field, kind) => readList owner' outer placement field kind :=
  mapM_congr fun _ member => readList_congr (same _ member) _ _ _

/-- A package behind others is read behind them. -/
theorem readPackages_append {nodes : List Node} {id position : Nat} {entries : List Entry}
    (read : readPackages id position nodes = .ok entries) (package : Node) :
    readPackages id position (nodes ++ [package]) = do
      let added ← readPackage (id + entries.length)
        [.field "packages", .index (position + nodes.length)] package
      return entries ++ added := by
  induction nodes generalizing id position entries with
  | nil =>
      cases read
      simp [readPackages]
  | cons node rest ih =>
      simp only [readPackages, bind_eq_ok_iff, pure_eq_ok_iff] at read
      obtain ⟨first, readFirst, later, readLater, rfl⟩ := read
      simp only [List.cons_append, readPackages, readFirst, ok_bind, ih readLater, bind_assoc,
        pure_bind, List.length_append, List.length_cons, List.append_assoc, Nat.add_assoc,
        Nat.add_comm 1]

section Document

variable {document : Node} {entries : List Entry} (object : document.shape = .object)
  (reserved : ofDocument document = .ok entries) (package : Node)
include object reserved

/-- A document with one more package is reserved as before, with the entries of the package
behind. -/
theorem ofDocument_appendPackage :
    ofDocument (document.appendPackage package) = do
      let added ← readPackage entries.length
        [.field "packages", .index (document.listed "packages").length] package
      return entries ++ added := by
  simp only [ofDocument, bind_eq_ok_iff, pure_eq_ok_iff] at reserved
  obtain ⟨lists, readLists, packages, readArray, owned, readOwned, rfl⟩ := reserved
  obtain ⟨-, rfl⟩ := listed_of_readArrayOrEmpty (mapError_eq_ok_iff.mp readArray)
  have others : ∀ list ∈ Allocation.typeLists, list.1 ≠ "packages" := by decide
  have types := (readLists_congr (fun list member =>
    Node.field?_appendPackage_of_ne object package (others list member)) _ _).trans readLists
  have array : (liftM ((document.appendPackage package).readArrayOrEmpty "packages") :
      LoadResult (List Node)) = .ok (document.listed "packages" ++ [package]) := by
    rw [liftRead_eq_ok_iff, Node.readArrayOrEmpty_eq_ok_iff]
    exact .inr (Node.field?_appendPackage object package "packages")
  simp only [ofDocument, types, array, ok_bind, readPackages_append readOwned, List.length_append,
    bind_assoc, pure_bind, List.append_assoc, Nat.zero_add]

end Document

/-- What an entry spells stays the same in a draft that goes on. -/
theorem construct_kept {earlier later : Draft} (grown : later.Continues earlier) (entry : Entry) :
    Kept (entry.construct earlier) (entry.construct later) :=
  Carries.within (Construct.ofNode_kept grown (.refl entry.node) entry.placement)

end Entry

namespace Draft

/-- Tables, keys and kinds go on where entries are added. -/
theorem continues_ofEntries (entries added : List Entry) :
    (ofEntries (entries ++ added)).Continues (ofEntries entries) where
  tables table := by
    rw [table_ofEntries, table_ofEntries, Entry.idsIn_append]
    exact List.prefix_append _ _
  keys table name positions known := by
    have listed : Entry.listedIn (entries ++ added) table =
        Entry.listedIn entries table ++ Entry.listedIn added table := List.filter_append ..
    simp only [positions?_ofEntries, listed, positionsOf_append] at known ⊢
    split at known
    · cases known
    · rename_i some
      cases known
      exact ⟨_, if_neg (List.append_ne_nil_of_left_ne_nil some _)⟩
  kinds := by
    rw [kinds_ofEntries, kinds_ofEntries]
    exact (List.prefix_append entries added).map _

end Draft

namespace Project

/-- A project goes on as another: the tables go on, and all constructs stay, but for instances that
declarations list at the end. -/
structure ExtendedBy (project extended : Project) : Prop where
  language : extended.language = project.language
  tables : ∀ table, project.table table <+: extended.table table
  constructs : ∀ id construct, project.construct? id = some construct →
    ∃ more, extended.construct? id =
      some (construct.withInstances (construct.instanceIds ++ more))

/-- Every index leads where it led before. -/
theorem ExtendedBy.lookup {project extended : Project} (grown : project.ExtendedBy extended)
    {role : Role} {index : Int} {ref : Ref role} (found : project.lookup role index = some ref) :
    extended.lookup role index = some ref := by
  obtain ⟨position, construct, counted, listed, here, accepted⟩ := lookup_eq_some_iff.mp found
  obtain ⟨more, there⟩ := grown.constructs ref.id construct here
  exact lookup_eq_some_iff.mpr ⟨position, _, counted,
    getElem?_of_grown (grown.tables role.table) listed, there, by simpa using accepted⟩

section Loaded

variable {document document' : Node} {entries added : List Entry}
  {constructs constructs' : List Construct}
  (read : entries.mapM (Entry.construct (Draft.ofEntries entries)) = .ok constructs)
  (readAll : (entries ++ added).mapM (Entry.construct (Draft.ofEntries (entries ++ added))) =
    .ok constructs')
include read readAll

/-- The old entries spell the same constructs as before. -/
theorem constructs_of_append : constructs <+: constructs' := by
  rw [List.mapM_append] at readAll
  simp only [bind_eq_ok_iff, pure_eq_ok_iff] at readAll
  obtain ⟨first, readFirst, more, -, rfl⟩ := readAll
  have again : entries.mapM (Entry.construct (Draft.ofEntries (entries ++ added))) =
      .ok constructs := by
    refine mapM_eq_ok_iff.mpr ((mapM_eq_ok_iff.mp read).imp fun entry construct spelled => ?_)
    exact kept_iff.mp (entry.construct_kept (Draft.continues_ofEntries entries added)) _ spelled
  cases readFirst.symm.trans again
  exact List.prefix_append _ _

/-- The old constructs are the same as before, but for their instances. -/
theorem construct?_of_append {id : Nat} {construct : Construct}
    (here : (ofConstructs document entries constructs).construct? id = some construct) :
    ∃ extended, (ofConstructs document' (entries ++ added) constructs').construct? id =
        some extended ∧ extended = construct.withInstances extended.instanceIds := by
  have grown := constructs_of_append read readAll
  rw [construct?_ofConstructs read, Option.map_eq_some_iff] at here
  obtain ⟨original, there, rfl⟩ := here
  have built : (ofConstructs document' (entries ++ added) constructs').construct? id = _ :=
    construct?_ofConstructs readAll id
  rw [getElem?_of_grown grown there, Option.map_some] at built
  refine ⟨_, built, ?_⟩
  rw [Construct.withInstances_withInstances]
  exact (Construct.withInstances_instanceIds _).symm.trans
    (Construct.withInstances_withInstances _ _ original)

/-- Whether an old construct is an instance of a declaration has not changed. -/
theorem isInstance_of_append {id : Nat} {construct : Construct}
    (here : (ofConstructs document entries constructs).construct? id = some construct)
    (kind : Kind) (decl : Nat) :
    (ofConstructs document' (entries ++ added) constructs').isInstance kind decl id =
      (ofConstructs document entries constructs).isInstance kind decl id := by
  have there : ∃ extended, (ofConstructs document' (entries ++ added) constructs').construct? id =
      some extended ∧ _ := construct?_of_append read readAll here
  obtain ⟨extended, there, same⟩ := there
  rw [isInstance, isInstance, here, there, same]
  simp

/-- Declarations list the instances that they listed before first. -/
theorem instanceIds_of_append {id : Nat} {construct extended : Construct}
    (here : (ofConstructs document entries constructs).construct? id = some construct)
    (there : (ofConstructs document' (entries ++ added) constructs').construct? id = some extended)
    (same : extended.kind = construct.kind) : construct.instanceIds <+: extended.instanceIds := by
  cases generic : construct.kind.instanceKind? with
  | none =>
      rw [Construct.instanceIds_eq_nil generic]
      exact List.nil_prefix
  | some kind =>
      rw [instanceIds_eq_filter read here generic,
        instanceIds_eq_filter readAll there (same ▸ generic)]
      obtain ⟨more, tables⟩ := (Draft.continues_ofEntries entries added).tables kind.table
      have grown : (ofConstructs document' (entries ++ added) constructs').table kind.table =
          (ofConstructs document entries constructs).table kind.table ++ more := tables.symm
      have unchanged : ∀ inst ∈ (ofConstructs document entries constructs).table kind.table,
          (ofConstructs document' (entries ++ added) constructs').isInstance kind id inst =
            (ofConstructs document entries constructs).isInstance kind id inst := by
        intro inst listed
        have listed : inst ∈ (Draft.ofEntries entries).table kind.table := listed
        rw [Draft.table_ofEntries] at listed
        obtain ⟨_, present, -⟩ := Entry.mem_idsIn_iff.mp listed
        obtain ⟨construct, here, -⟩ := (linkable_ofConstructs read).exists_construct present
        exact isInstance_of_append read readAll here kind id
      rw [grown, List.filter_append, List.filter_congr unchanged]
      exact List.prefix_append _ _

/-- Entries behind those of a project extend the project. -/
theorem extendedBy_of_append
    (language : document'.optionalString "language" = document.optionalString "language") :
    (ofConstructs document entries constructs).ExtendedBy
      (ofConstructs document' (entries ++ added) constructs') where
  language := language
  tables := (Draft.continues_ofEntries entries added).tables
  constructs := by
    intro id construct here
    have there : ∃ extended, (ofConstructs document' (entries ++ added) constructs').construct? id =
        some extended ∧ _ := construct?_of_append read readAll here
    obtain ⟨extended, there, same⟩ := there
    have kinds : extended.kind = construct.kind := by rw [same, Construct.kind_withInstances]
    obtain ⟨more, listed⟩ := instanceIds_of_append read readAll here there kinds
    exact ⟨more, by rw [there, same, listed]⟩

end Loaded

end Project

/-! ## Failures -/

namespace LoadResult

variable {α β : Type} {path : Path}

/-- Every failure of a result is blamed on a node below a path. -/
def FailsUnder (path : Path) (result : LoadResult α) : Prop :=
  ∀ error, result = .error error → path <+: error.path

/-- What fails within a path fails below any path it begins with. -/
theorem failsUnder_within {outer : Path} (below : path <+: outer) (result : LoadResult α) :
    FailsUnder path (result.within outer) := by
  intro error failed
  obtain ⟨cause, -, rfl⟩ := mapError_eq_error_iff.mp failed
  exact below.trans (List.prefix_append _ _)

end LoadResult

namespace Entry

/-- A package that cannot be reserved fails below its place. -/
theorem readPackage_failsUnder (id : Nat) (path : Path) (node : Node) :
    FailsUnder path (readPackage id path node) := by
  rw [readPackage]
  have ofNode_failsUnder {kind : Kind} {placement : Placement} {inner : Path} {item : Node}
      (below : path <+: inner) : FailsUnder path (ofNode kind placement inner item) :=
    FailsWith.bind (failsUnder_within below _) fun _ _ => .pure _
  have readList_failsUnder (field : String) (kind : Kind) :
      FailsUnder path (readList node path (.member ⟨id⟩) field kind) :=
    FailsWith.bind (failsUnder_within List.prefix_rfl _) fun _ _ => .mapM fun _ _ =>
      ofNode_failsUnder (List.prefix_append _ _)
  refine FailsWith.bind (ofNode_failsUnder List.prefix_rfl) fun _ _ => ?_
  refine FailsWith.bind (.mapM ?_) fun _ _ => .pure _
  rintro ⟨field, kind⟩ -
  exact readList_failsUnder field kind

/-- The entries of a package stand below its place. -/
theorem path_of_readPackage {id : Nat} {path : Path} {node : Node} {entries : List Entry}
    (read : readPackage id path node = .ok entries) : ∀ entry ∈ entries, path <+: entry.path := by
  simp only [readPackage, bind_eq_ok_iff, pure_eq_ok_iff] at read
  obtain ⟨package, readFirst, lists, readMembers, rfl⟩ := read
  intro entry member
  rcases List.mem_cons.mp member with rfl | member
  · exact (ofNode_eq_ok readFirst).2.2.1 ▸ List.prefix_rfl
  · obtain ⟨list, inLists, member⟩ := List.mem_flatten.mp member
    obtain ⟨⟨field, kind⟩, -, readList⟩ := exists_item_of_mapM readMembers inLists
    obtain ⟨items, position, item, -, -, readItem⟩ := exists_item_of_readList readList entry member
    exact (ofNode_eq_ok readItem).2.2.1 ▸ List.prefix_append _ _

end Entry

/-- A document has as many packages as its list holds. -/
theorem Node.total_packages (document : Node) :
    Stretch.total (Stretch.listedIn document.stretches .packages) =
      (document.listed "packages").length := by
  have types : Stretch.listedIn (document.stretchesOf Allocation.typeLists) .packages = [] := by
    simp [Stretch.listedIn, stretchesOf, Allocation.typeLists, Kind.table]
  have alone (package : Node) :
      Stretch.listedIn package.packageStretches .packages = [⟨.package, [package]⟩] := by
    simp [Stretch.listedIn, packageStretches, stretchesOf, Allocation.memberLists, Kind.table]
  have packages (nodes : List Node) : Stretch.total
      (Stretch.listedIn (nodes.flatMap packageStretches) .packages) = nodes.length := by
    induction nodes with
    | nil => rfl
    | cons package rest ih =>
        rw [List.flatMap_cons, Stretch.listedIn_append, alone, Stretch.total_append, ih,
          List.length_cons, Nat.add_comm]
        rfl
  rw [stretches, Stretch.listedIn_append, types, List.nil_append, packages]

/-- As many packages are reserved as the document lists. -/
theorem Entry.ReservedFor.length_packages {document : Node} {entries : List Entry}
    (reserved : Entry.ReservedFor document.catalogue entries) :
    (Entry.idsIn entries .packages).length = (document.listed "packages").length := by
  have listed : (Entry.listedIn entries .packages).length =
      (document.catalogue.filter fun item => item.1.table = .packages).length := by
    rw [← reserved.items, List.filter_map, List.length_map]
    rfl
  rw [Entry.length_idsIn, listed, Node.catalogue_eq, Stretch.flatMap_items_filter,
    Stretch.length_flatMap_items, Node.total_packages]

namespace Project

section Loaded

variable {document : Node} {entries added : List Entry} {constructs : List Construct}
  (read : entries.mapM (Entry.construct (Draft.ofEntries entries)) = .ok constructs)
include read

/-- Where more entries are reserved, only they can fail. -/
theorem path_of_append_error {document' : Node} (object : document'.shape = .object)
    (reserved : Entry.ofDocument document' = .ok (entries ++ added)) {path : Path}
    (below : ∀ entry ∈ added, path <+: entry.path) {error : LoadError}
    (failed : load document' = .error error) : path <+: error.path := by
  have order : (id (List.range (entries ++ added).length)).Perm
      (List.range (entries ++ added).length) := .refl _
  rw [load, loadInOrder_eq_error_iff object reserved order, mapM_eq_error_iff] at failed
  obtain ⟨before, position, after, split, -, failed⟩ := failed
  have inside : position < (entries ++ added).length := by
    rw [← List.mem_range, ← id_def (List.range _), split]
    exact List.mem_append_right _ List.mem_cons_self
  obtain ⟨entry, cause, present, unread, rfl⟩ := Draft.constructAt_eq_error inside failed
  by_cases old : position < entries.length
  · rw [List.getElem?_append_left old] at present
    obtain ⟨construct, spelled⟩ := exists_value_of_mapM read (List.mem_of_getElem? present)
    have again := kept_iff.mp (entry.construct_kept (Draft.continues_ofEntries entries added))
      construct spelled
    cases unread.symm.trans (within_eq_ok_iff.mp again)
  · rw [List.getElem?_append_right (Nat.le_of_not_lt old)] at present
    exact (below entry (List.mem_of_getElem? present)).trans (List.prefix_append _ _)

end Loaded

/-- **Appending a package is conservative.** If a document with one more package loads, it loads as
a project that goes on where the old one ends: each table is continued, each construct stays under
its id, where a declaration may list more instances behind those it listed, and each index and each
key leads to the construct that it led to. If it does not load, the error is in the new package. -/
theorem load_appendPackage {document : Node} {project : Project}
    (loaded : load document = .ok project) (package : Node) :
    (∀ extended, load (document.appendPackage package) = .ok extended →
      project.ExtendedBy extended ∧
      (∀ (role : Role) (index : Int) (ref : Ref role), project.lookup role index = some ref →
        extended.lookup role index = some ref) ∧
      ∀ allocation grown, Allocation.ofDocument document = .ok allocation →
        Allocation.ofDocument (document.appendPackage package) = .ok grown →
        ∀ (role : Role) (ref : Ref role),
          (∀ index, allocation.compose.resolveIndex index = .ok ref →
            grown.compose.resolveIndex index = .ok ref) ∧
          ∀ text, allocation.compose.resolveKey text = .ok ref →
            grown.compose.resolveKey text = .ok ref) ∧
    ∀ error, load (document.appendPackage package) = .error error →
      [.field "packages", .index (project.table .packages).length] <+: error.path := by
  obtain ⟨entries, constructs, object, reserved, read, rfl⟩ := load_eq_ok_iff.mp loaded
  have appended := Entry.ofDocument_appendPackage object reserved package
  constructor
  · intro extended loadedToo
    obtain ⟨entries', constructs', -, reserved', readAll, rfl⟩ := load_eq_ok_iff.mp loadedToo
    have whole := appended.symm.trans reserved'
    simp only [bind_eq_ok_iff, pure_eq_ok_iff] at whole
    obtain ⟨added, -, rfl⟩ := whole
    have other : "language" ≠ "packages" := by decide
    have language : (document.appendPackage package).optionalString "language" =
        document.optionalString "language" := by
      simp only [Node.optionalString, Node.field?_appendPackage_of_ne object package other]
    have grown := extendedBy_of_append read readAll language
    refine ⟨grown, fun _ _ _ => grown.lookup, ?_⟩
    intro allocation all allocated allocatedToo role ref
    cases (Allocation.ofDocument_eq_ok_iff.mpr ⟨_, reserved, rfl⟩).symm.trans allocated
    cases (Allocation.ofDocument_eq_ok_iff.mpr ⟨_, reserved', rfl⟩).symm.trans allocatedToo
    have goesOn := Draft.continues_ofEntries entries added
    exact ⟨fun index => kept_iff.mp (Draft.resolveIndex_kept goesOn index) ref,
      fun text => kept_iff.mp (Draft.resolveKey_kept goesOn rfl) ref⟩
  · intro error failed
    obtain ⟨-, -, -, catalogued⟩ := Entry.reservedFor_of_ofDocument reserved
    have count : ((ofConstructs document entries constructs).table .packages).length =
        (document.listed "packages").length := by
      rw [← catalogued.length_packages]
      exact congrArg List.length (Draft.table_ofEntries entries .packages)
    rw [count]
    cases readPackage : Entry.readPackage entries.length
        [.field "packages", .index (document.listed "packages").length] package with
    | error cause =>
        rw [readPackage, error_bind] at appended
        have same : load (document.appendPackage package) = .error cause := by
          simp only [load, loadInOrder_by_entries, appended]
          rfl
        cases failed.symm.trans same
        exact Entry.readPackage_failsUnder _ _ _ _ readPackage
    | ok added =>
        rw [readPackage, ok_bind] at appended
        exact path_of_append_error read rfl appended (Entry.path_of_readPackage readPackage) failed

/-- The second package uses the list of the first one, which has one more instance then. A package
that is no object is refused as the second one. -/
theorem load_appendPackage_sample :
    load Sample.document = .ok Sample.project ∧
      Sample.document.appendPackage Sample.client = Sample.clients ∧
      load Sample.clients = .ok Sample.clientsProject ∧
      Sample.project.ExtendedBy Sample.clientsProject ∧
      Sample.project.instancesOf 4 = .ok [5] ∧ Sample.clientsProject.instancesOf 4 = .ok [5, 7] ∧
      ∃ error, load (Sample.document.appendPackage .null) = .error error ∧
        [.field "packages", .index 1] <+: error.path := by
  have grown := (load_appendPackage Sample.load_document Sample.client).1 _ Sample.load_clients
  have failed : load (Sample.document.appendPackage .null) = .error _ := rfl
  exact ⟨Sample.load_document, rfl, Sample.load_clients, grown.1, rfl, rfl, _, failed,
    (load_appendPackage Sample.load_document .null).2 _ failed⟩

end Project

end CodeGraph

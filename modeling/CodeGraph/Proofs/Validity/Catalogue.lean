import CodeGraph.Proofs.Loading.Lookup
import CodeGraph.Proofs.Loading.Places
import CodeGraph.Proofs.Validity.Rules

/-! # What the first pass reserves

The first pass goes through the lists of a document and reserves an entry for everything that the
document lists, in the same order (`CodeGraph.Entry.reservedFor_of_ofDocument`). It fails only where
a list is no list or a name is missing (`CodeGraph.Entry.exists_ofDocument`).
-/

namespace CodeGraph

namespace Entry

/-- Entries that were reserved for what is listed, under the names that it has. -/
structure ReservedFor (listing : List (Kind × Node)) (entries : List Entry) : Prop where
  items : entries.map (fun entry => (entry.kind, entry.node)) = listing
  names : ∀ entry ∈ entries, identityName entry.kind entry.node = .ok entry.name

/-- Two rows of entries are reserved for two rows of items. -/
theorem ReservedFor.append {before after : List (Kind × Node)} {first second : List Entry}
    (reservedFirst : ReservedFor before first) (reservedSecond : ReservedFor after second) :
    ReservedFor (before ++ after) (first ++ second) where
  items := by rw [List.map_append, reservedFirst.items, reservedSecond.items]
  names := by
    intro entry member
    rcases List.mem_append.mp member with member | member
    · exact reservedFirst.names entry member
    · exact reservedSecond.names entry member

section Lists

variable {owner : Node} {outer path : Path} {placement : Placement} {field : String} {kind : Kind}

/-- An entry is reserved under the name of its node. -/
theorem name_of_ofNode {node : Node} {entry : Entry}
    (read : ofNode kind placement path node = .ok entry) :
    identityName entry.kind entry.node = .ok entry.name := by
  simp only [ofNode, bind_eq_ok_iff, pure_eq_ok_iff, LoadResult.within_eq_ok_iff] at read
  obtain ⟨name, named, rfl⟩ := read
  exact named

/-- A node that has a name, or needs none, can be reserved. -/
theorem exists_ofNode {node : Node} (named : ∃ name, identityName kind node = .ok name) :
    ∃ entry, ofNode kind placement path node = .ok entry := by
  obtain ⟨name, named⟩ := named
  simp only [ofNode, bind_eq_ok_iff, pure_eq_ok_iff, LoadResult.within_eq_ok_iff]
  exact ⟨_, name, named, rfl⟩

/-- What is read from an optional list is what the field lists. -/
theorem listed_of_readArrayOrEmpty {items : List Node}
    (found : owner.readArrayOrEmpty field = .ok items) :
    owner.Optional field Node.IsArray ∧ owner.listed field = items := by
  rcases Node.readArrayOrEmpty_eq_ok_iff.mp found with ⟨absent, rfl⟩ | present
  · simp [Node.Optional, Node.listed, absent]
  · simp [Node.Optional, Node.listed, present, Node.IsArray, Node.items?]

/-- An optional list can be read if the field is absent or lists something. -/
theorem readArrayOrEmpty_listed (array : owner.Optional field Node.IsArray) :
    owner.readArrayOrEmpty field = .ok (owner.listed field) := by
  rw [Node.readArrayOrEmpty_eq_ok_iff]
  cases present : owner.field? field with
  | none => simp [Node.listed, present]
  | some value =>
      obtain ⟨items, rfl⟩ := array value present
      simp [Node.listed, present, Node.items?]

/-- The entries of a list are reserved for its items. -/
theorem reservedFor_of_readList {entries : List Entry}
    (read : readList owner outer placement field kind = .ok entries) :
    owner.Optional field Node.IsArray ∧
      ReservedFor ((owner.listed field).map fun item => (kind, item)) entries := by
  have placed := exists_item_of_readList read
  simp only [readList, bind_eq_ok_iff, LoadResult.within_eq_ok_iff] at read
  obtain ⟨items, found, worked⟩ := read
  obtain ⟨array, rfl⟩ := listed_of_readArrayOrEmpty (mapError_eq_ok_iff.mp found)
  refine ⟨array, ?_, ?_⟩
  · have items : entries.map (fun entry => (entry.kind, entry.node)) =
        (owner.listed field).zipIdx.map ((fun item => (kind, item)) ∘ Prod.fst) := by
      apply map_eq_of_mapM worked
      intro item _ entry read
      obtain ⟨sameKind, -, -, sameNode⟩ := ofNode_eq_ok read
      rw [sameKind, sameNode]
      rfl
    rw [items, ← List.map_map, List.zipIdx_map_fst]
  · intro entry member
    obtain ⟨_, _, _, -, -, readItem⟩ := placed entry member
    exact name_of_ofNode readItem

/-- A list can be reserved if each of its items can. -/
theorem exists_readList (array : owner.Optional field Node.IsArray)
    (named : ∀ item ∈ owner.listed field, ∃ name, identityName kind item = .ok name) :
    ∃ entries, readList owner outer placement field kind = .ok entries := by
  have found := readArrayOrEmpty_listed array
  have each : ∀ item ∈ (owner.listed field).zipIdx, ∃ entry,
      ofNode kind placement (outer ++ [.field field, .index item.2]) item.1 = .ok entry := by
    intro item member
    exact exists_ofNode (named item.1 (List.fst_mem_of_mem_zipIdx member))
  obtain ⟨entries, worked⟩ := exists_mapM_eq_ok each
  refine ⟨entries, ?_⟩
  simp only [readList, bind_eq_ok_iff, LoadResult.within_eq_ok_iff]
  exact ⟨_, mapError_eq_ok_iff.mpr found, worked⟩

/-- The entries of lists are reserved for their items. -/
theorem reservedFor_of_readLists {lists : List (String × Kind)} {found : List (List Entry)}
    (read : lists.mapM (fun (field, kind) => readList owner outer placement field kind) =
      .ok found) :
    (∀ field ∈ lists.map Prod.fst, owner.Optional field Node.IsArray) ∧
      ReservedFor (owner.listedAs lists) found.flatten := by
  induction mapM_eq_ok_iff.mp read with
  | nil => exact ⟨by simp, rfl, by simp⟩
  | cons atFirst matched ih =>
      obtain ⟨first, reservedFirst⟩ := reservedFor_of_readList atFirst
      obtain ⟨later, reservedLater⟩ := ih (mapM_eq_ok_iff.mpr matched)
      exact ⟨List.forall_mem_cons.mpr ⟨first, later⟩, reservedFirst.append reservedLater⟩

end Lists

section Packages

variable {id : Nat} {path : Path} {node : Node}

/-- A package is listed before its members. -/
theorem reservedFor_of_readPackage {entries : List Entry}
    (read : readPackage id path node = .ok entries) :
    (∀ field ∈ Allocation.memberLists.map Prod.fst, node.Optional field Node.IsArray) ∧
      ReservedFor ((.package, node) :: node.listedAs Allocation.memberLists) entries := by
  simp only [readPackage, bind_eq_ok_iff, pure_eq_ok_iff] at read
  obtain ⟨package, readFirst, lists, readMembers, rfl⟩ := read
  obtain ⟨arrays, members⟩ := reservedFor_of_readLists readMembers
  obtain ⟨sameKind, -, -, sameNode⟩ := ofNode_eq_ok readFirst
  have named := name_of_ofNode readFirst
  refine ⟨arrays, ?_, List.forall_mem_cons.mpr ⟨named, members.names⟩⟩
  rw [List.map_cons, members.items, sameKind, sameNode]

/-- A package can be reserved if it has a name and its members have theirs. -/
theorem exists_readPackage (first : ∃ name, identityName .package node = .ok name)
    (arrays : ∀ field ∈ Allocation.memberLists.map Prod.fst, node.Optional field Node.IsArray)
    (named : ∀ item ∈ node.listedAs Allocation.memberLists,
      ∃ name, identityName item.1 item.2 = .ok name) :
    ∃ entries, readPackage id path node = .ok entries := by
  have ⟨package, readFirst⟩ : ∃ entry, ofNode .package .topLevel path node = .ok entry :=
    exists_ofNode first
  have each : ∀ list ∈ Allocation.memberLists, ∃ entries,
      readList node path (.member ⟨id⟩) list.1 list.2 = .ok entries := by
    intro list member
    refine exists_readList (arrays _ (List.mem_map_of_mem member)) fun item listed => ?_
    exact named (list.2, item) (List.mem_flatMap.mpr ⟨list, member, List.mem_map_of_mem listed⟩)
  obtain ⟨lists, readMembers⟩ := exists_mapM_eq_ok each
  simp only [readPackage, bind_eq_ok_iff, pure_eq_ok_iff]
  exact ⟨_, package, readFirst, lists, readMembers, rfl⟩

end Packages

/-- What some packages list. -/
def packagesListing (packages : List Node) : List (Kind × Node) :=
  packages.flatMap fun package => (.package, package) :: package.listedAs Allocation.memberLists

/-- The entries of packages are reserved for the packages and their members. -/
theorem reservedFor_of_readPackages {packages : List Node} {id position : Nat}
    {entries : List Entry} (read : readPackages id position packages = .ok entries) :
    (∀ package ∈ packages, ∀ field ∈ Allocation.memberLists.map Prod.fst,
        package.Optional field Node.IsArray) ∧
      ReservedFor (packagesListing packages) entries := by
  induction packages generalizing id position entries with
  | nil =>
      cases read
      exact ⟨by simp, rfl, by simp⟩
  | cons package rest ih =>
      simp only [readPackages, bind_eq_ok_iff, pure_eq_ok_iff] at read
      obtain ⟨first, readFirst, later, readLater, rfl⟩ := read
      obtain ⟨arrays, reserved⟩ := reservedFor_of_readPackage readFirst
      obtain ⟨laterArrays, laterReserved⟩ := ih readLater
      exact ⟨List.forall_mem_cons.mpr ⟨arrays, laterArrays⟩, reserved.append laterReserved⟩

/-- Packages can be reserved if each of them can. -/
theorem exists_readPackages {packages : List Node} {id position : Nat}
    (arrays : ∀ package ∈ packages, ∀ field ∈ Allocation.memberLists.map Prod.fst,
      package.Optional field Node.IsArray)
    (named : ∀ item ∈ packagesListing packages, ∃ name, identityName item.1 item.2 = .ok name) :
    ∃ entries, readPackages id position packages = .ok entries := by
  induction packages generalizing id position with
  | nil => exact ⟨[], rfl⟩
  | cons package rest ih =>
      obtain ⟨first, later⟩ := List.forall_mem_cons.mp arrays
      obtain ⟨namedFirst, namedLater⟩ := List.forall_mem_append.mp named
      obtain ⟨namedPackage, namedMembers⟩ := List.forall_mem_cons.mp namedFirst
      obtain ⟨entries, readFirst⟩ := exists_readPackage namedPackage first namedMembers
      obtain ⟨others, readLater⟩ := ih later namedLater
      exact ⟨entries ++ others, by rw [readPackages, readFirst, ok_bind, readLater]; rfl⟩

section Document

variable {document : Node}

/-- The entries of a document are reserved for its catalogue. -/
theorem reservedFor_of_ofDocument {entries : List Entry}
    (reserved : ofDocument document = .ok entries) :
    (∀ field ∈ Allocation.typeLists.map Prod.fst, document.Optional field Node.IsArray) ∧
      document.Optional "packages" Node.IsArray ∧
      (∀ package ∈ document.listed "packages", ∀ field ∈ Allocation.memberLists.map Prod.fst,
        package.Optional field Node.IsArray) ∧
      ReservedFor document.catalogue entries := by
  simp only [ofDocument, bind_eq_ok_iff, pure_eq_ok_iff] at reserved
  obtain ⟨lists, readLists, packages, readArray, owned, readOwned, rfl⟩ := reserved
  obtain ⟨array, rfl⟩ := listed_of_readArrayOrEmpty (mapError_eq_ok_iff.mp readArray)
  obtain ⟨memberArrays, members⟩ := reservedFor_of_readPackages readOwned
  obtain ⟨typeArrays, types⟩ := reservedFor_of_readLists readLists
  exact ⟨typeArrays, array, memberArrays, types.append members⟩

/-- A document whose lists are lists and whose named entries have names can be reserved. -/
theorem exists_ofDocument
    (typeArrays : ∀ field ∈ Allocation.typeLists.map Prod.fst, document.Optional field Node.IsArray)
    (array : document.Optional "packages" Node.IsArray)
    (memberArrays : ∀ package ∈ document.listed "packages",
      ∀ field ∈ Allocation.memberLists.map Prod.fst, package.Optional field Node.IsArray)
    (named : ∀ item ∈ document.catalogue, ∃ name, identityName item.1 item.2 = .ok name) :
    ∃ entries, ofDocument document = .ok entries := by
  obtain ⟨namedTypes, namedMembers⟩ := List.forall_mem_append.mp named
  have readTypes : ∀ list ∈ Allocation.typeLists, ∃ entries,
      readList document [] .topLevel list.1 list.2 = .ok entries := by
    intro list member
    refine exists_readList (typeArrays _ (List.mem_map_of_mem member)) fun item listed => ?_
    exact namedTypes (list.2, item)
      (List.mem_flatMap.mpr ⟨list, member, List.mem_map_of_mem listed⟩)
  obtain ⟨lists, readLists⟩ := exists_mapM_eq_ok readTypes
  have readArray := readArrayOrEmpty_listed array
  obtain ⟨owned, readOwned⟩ := exists_readPackages memberArrays namedMembers
  refine ⟨lists.flatten ++ owned, ?_⟩
  simp only [ofDocument, bind_eq_ok_iff, pure_eq_ok_iff]
  exact ⟨lists, readLists, _, mapError_eq_ok_iff.mpr readArray, owned, readOwned, rfl⟩

end Document

namespace ReservedFor

variable {document : Node} {entries : List Entry}
  (reserved : ReservedFor document.catalogue entries)
include reserved

/-- Each table lists entries of the kinds that the document has for it. -/
theorem kinds_listedIn (table : Table) :
    (listedIn entries table).map Entry.kind = document.kindsIn table := by
  have kinds : document.catalogue.map Prod.fst = entries.map Entry.kind := by
    rw [← reserved.items, List.map_map]
    rfl
  rw [Node.kindsIn, kinds, List.filter_map]
  rfl

/-- Declared methods are reserved under their names. -/
theorem name_of_methodDecl {entry : Entry} (member : entry ∈ entries)
    (declared : entry.kind = .methodDecl) :
    (entry.node.field? "name").bind Node.string? = entry.name := by
  have named := reserved.names entry member
  rw [declared] at named
  obtain ⟨text, read, same⟩ := bind_eq_ok_iff.mp named
  obtain ⟨value, present, spelled⟩ := Node.readString_eq_ok_iff.mp (mapError_eq_ok_iff.mp read)
  rw [present, Option.bind_some, spelled]
  exact pure_eq_ok_iff.mp same

/-- As many methods are reserved under a name as the document declares. -/
theorem length_namedIn (name : String) :
    (namedIn entries .methods name).length = document.methodNames.count name := by
  have names : document.methodNames =
      entries.filterMap fun entry => if entry.kind = .methodDecl then entry.name else none := by
    rw [Node.methodNames, ← reserved.items, List.filterMap_map]
    apply List.filterMap_congr
    intro entry member
    by_cases declared : entry.kind = .methodDecl
    · simp [declared, reserved.name_of_methodDecl member declared]
    · simp [declared]
  rw [names, List.count_filterMap, namedIn, listedIn, List.filter_filter,
    ← List.countP_eq_length_filter]
  apply List.countP_congr
  intro entry _
  cases entry.kind <;> simp [Kind.table]

end ReservedFor

end Entry

end CodeGraph

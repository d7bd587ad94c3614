import CodeGraph.Proofs.Document.Paths
import CodeGraph.Proofs.Document.Reading
import CodeGraph.Proofs.Loading.Entries

/-! # Where entries stand

The path of an entry leads from the root of the document to the node that spells the entry, and each
entry stands where its kind can stand (`CodeGraph.Entry.standsIn_of_ofDocument`).
-/

namespace CodeGraph

/-- Whether an entry of a kind can stand in a place. -/
def Placement.Suits : Placement → Kind → Prop
  | .topLevel, kind => kind ∈ Allocation.typeLists.map Prod.snd
  | .member _, kind => kind ∈ Allocation.memberLists.map Prod.snd
  | .package _, kind => kind = .package

namespace Entry

/-- An entry that its document spells, at the end of the entry's path. -/
structure StandsIn (document : Node) (entry : Entry) : Prop where
  leads : document.follow entry.path = some entry.node
  suits : entry.placement.Suits entry.kind

section Lists

variable {document owner : Node} {outer path : Path} {placement : Placement} {field : String}
  {kind : Kind}

/-- An entry is what it was read as, apart from its name. -/
theorem ofNode_eq_ok {node : Node} {entry : Entry}
    (read : ofNode kind placement path node = .ok entry) :
    entry.kind = kind ∧ entry.placement = placement ∧ entry.path = path ∧ entry.node = node := by
  simp only [ofNode, bind_eq_ok_iff, pure_eq_ok_iff] at read
  obtain ⟨name, -, rfl⟩ := read
  exact ⟨rfl, rfl, rfl, rfl⟩

/-- An entry stands where its node does. -/
theorem standsIn_of_ofNode {node : Node} {entry : Entry} (leads : document.follow path = some node)
    (suits : placement.Suits kind) (read : ofNode kind placement path node = .ok entry) :
    entry.StandsIn document := by
  obtain ⟨rfl, rfl, rfl, rfl⟩ := ofNode_eq_ok read
  exact ⟨leads, suits⟩

/-- The entries of a list are read from the items of the list. -/
theorem exists_item_of_readList {entries : List Entry}
    (read : readList owner outer placement field kind = .ok entries) :
    ∀ entry ∈ entries, ∃ items position node, owner.field? field = some (.array items) ∧
      items[position]? = some node ∧
      ofNode kind placement (outer ++ [.field field, .index position]) node = .ok entry := by
  simp only [readList, bind_eq_ok_iff, LoadResult.within_eq_ok_iff] at read
  obtain ⟨items, found, worked⟩ := read
  intro entry member
  obtain ⟨⟨node, position⟩, listed, readItem⟩ := exists_item_of_mapM worked member
  have here := List.mem_zipIdx_iff_getElem?.mp listed
  rcases Node.readArrayOrEmpty_eq_ok_iff.mp (mapError_eq_ok_iff.mp found) with ⟨-, rfl⟩ | present
  · cases here
  · exact ⟨items, position, node, present, here, readItem⟩

/-- The path to an item of a list leads to the item. -/
theorem follow_item {items : List Node} {position : Nat} {node : Node}
    (leads : document.follow outer = some owner)
    (present : owner.field? field = some (.array items))
    (here : items[position]? = some node) :
    document.follow (outer ++ [.field field, .index position]) = some node := by
  rw [Node.follow_append, leads]
  simp [Node.follow, Node.get?_of_field? present, Node.items?, here]

/-- The entries of a list stand where the list says. -/
theorem standsIn_of_readList {entries : List Entry} (leads : document.follow outer = some owner)
    (suits : placement.Suits kind)
    (read : readList owner outer placement field kind = .ok entries) :
    ∀ entry ∈ entries, entry.StandsIn document := by
  intro entry member
  obtain ⟨items, position, node, present, here, readItem⟩ :=
    exists_item_of_readList read entry member
  exact standsIn_of_ofNode (follow_item leads present here) suits readItem

end Lists

/-- A package and its members stand where the node of the package does. -/
theorem standsIn_of_readPackage {document node : Node} {id : Nat} {path : Path}
    {entries : List Entry} (leads : document.follow path = some node)
    (read : readPackage id path node = .ok entries) :
    ∀ entry ∈ entries, entry.StandsIn document := by
  simp only [readPackage, bind_eq_ok_iff, pure_eq_ok_iff] at read
  obtain ⟨package, readFirst, lists, readMembers, rfl⟩ := read
  intro entry member
  rcases List.mem_cons.mp member with rfl | member
  · obtain ⟨kind, -, samePath, sameNode⟩ := ofNode_eq_ok readFirst
    exact ⟨by rw [samePath, sameNode, leads], kind⟩
  · obtain ⟨list, inLists, member⟩ := List.mem_flatten.mp member
    obtain ⟨⟨field, kind⟩, listed, readList⟩ := exists_item_of_mapM readMembers inLists
    have suits : (Placement.member ⟨id⟩).Suits kind := List.mem_map.mpr ⟨(field, kind), listed, rfl⟩
    exact standsIn_of_readList leads suits readList entry member

/-- Packages in a row that stand in a document from a position on. -/
def PackagesFrom (document : Node) (position : Nat) (nodes : List Node) : Prop :=
  ∀ offset node, nodes[offset]? = some node →
    document.follow [.field "packages", .index (position + offset)] = some node

/-- Behind the first of several packages the others stand one position further. -/
theorem PackagesFrom.tail {document node : Node} {position : Nat} {rest : List Node}
    (stand : PackagesFrom document position (node :: rest)) :
    PackagesFrom document (position + 1) rest := by
  intro offset found here
  rw [Nat.add_right_comm]
  exact stand (offset + 1) found here

/-- The packages of a document stand at its list of packages. -/
theorem packagesFrom_of_read {document : Node} {packages : List Node}
    (read : document.readArrayOrEmpty "packages" = .ok packages) :
    PackagesFrom document 0 packages := by
  intro offset node here
  rw [Nat.zero_add]
  rcases Node.readArrayOrEmpty_eq_ok_iff.mp read with ⟨-, rfl⟩ | present
  · cases here
  · have root : document.follow [] = some document := rfl
    exact follow_item root present here

/-- The entries of packages stand in the document, as their packages do. -/
theorem standsIn_of_readPackages {document : Node} {nodes : List Node} {id position : Nat}
    {entries : List Entry} (stand : PackagesFrom document position nodes)
    (read : readPackages id position nodes = .ok entries) :
    ∀ entry ∈ entries, entry.StandsIn document := by
  induction nodes generalizing id position entries with
  | nil =>
      cases read
      simp
  | cons node rest ih =>
      simp only [readPackages, bind_eq_ok_iff, pure_eq_ok_iff] at read
      obtain ⟨first, readFirst, later, readLater, rfl⟩ := read
      intro entry member
      rcases List.mem_append.mp member with member | member
      · exact standsIn_of_readPackage (stand 0 node rfl) readFirst entry member
      · exact ih stand.tail readLater entry member

/-- Each entry of a document stands at the end of its path, where its kind can stand. -/
theorem standsIn_of_ofDocument {document : Node} {entries : List Entry}
    (reserved : ofDocument document = .ok entries) :
    ∀ entry ∈ entries, entry.StandsIn document := by
  simp only [ofDocument, bind_eq_ok_iff, pure_eq_ok_iff] at reserved
  obtain ⟨lists, readLists, packages, readArray, owned, readOwned, rfl⟩ := reserved
  intro entry member
  rcases List.mem_append.mp member with member | member
  · obtain ⟨list, inLists, member⟩ := List.mem_flatten.mp member
    obtain ⟨⟨field, kind⟩, listed, readList⟩ := exists_item_of_mapM readLists inLists
    have root : document.follow [] = some document := rfl
    have suits : Placement.topLevel.Suits kind := List.mem_map.mpr ⟨(field, kind), listed, rfl⟩
    exact standsIn_of_readList root suits readList entry member
  · have stand := packagesFrom_of_read (mapError_eq_ok_iff.mp readArray)
    exact standsIn_of_readPackages stand readOwned entry member

end Entry

end CodeGraph

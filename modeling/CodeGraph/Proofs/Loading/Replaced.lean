import CodeGraph.Proofs.Document.Replacing
import CodeGraph.Proofs.Loading.Appending

/-! # A document with another node in it

Where the entries of a document stand is known from their kinds (`CodeGraph.Kind.StandsAt`). With
another node within an entry, apart from its name, the document has the same entries with the node
in them (`CodeGraph.Entry.ofDocument_put`), so it loads as these are read
(`CodeGraph.Project.load_put`).
-/

namespace CodeGraph

open LoadResult

/-! ## Places of entries -/

/-- An entry of a kind can stand at a path. -/
inductive Kind.StandsAt : Kind → Path → Prop
  | type {kind : Kind} {field : String} (listed : (field, kind) ∈ Allocation.typeLists)
    (position : Nat) : StandsAt kind [.field field, .index position]
  | package (position : Nat) : StandsAt .package [.field "packages", .index position]
  | member {kind : Kind} {field : String} (listed : (field, kind) ∈ Allocation.memberLists)
    (package position : Nat) :
    StandsAt kind [.field "packages", .index package, .field field, .index position]

namespace Entry

/-- No two lists of types have the same name, and no two lists of members. -/
theorem kind_unique {lists : List (String × Kind)}
    (own : lists = Allocation.typeLists ∨ lists = Allocation.memberLists)
    {field : String} {kind kind' : Kind} (listed : (field, kind) ∈ lists)
    (listed' : (field, kind') ∈ lists) : kind = kind' := by
  have distinct : (lists.map Prod.fst).Nodup := by
    rcases own with rfl | rfl <;> decide
  exact congrArg Prod.snd (List.inj_on_of_nodup_map distinct listed listed' rfl)

/-- No list of types is the list of packages. -/
theorem ne_packages_of_typeLists {field : String} {kind : Kind}
    (listed : (field, kind) ∈ Allocation.typeLists) : field ≠ "packages" := by
  rintro rfl
  simp [Allocation.typeLists] at listed

section Reading

variable {document : Node}

/-- A package and its members stand at places for their kinds. -/
theorem standsAt_of_readPackage {id position : Nat} {node : Node} {entries : List Entry}
    (read : readPackage id [.field "packages", .index position] node = .ok entries) :
    ∀ entry ∈ entries, entry.kind.StandsAt entry.path := by
  simp only [readPackage, bind_eq_ok_iff, pure_eq_ok_iff] at read
  obtain ⟨package, readFirst, lists, readMembers, rfl⟩ := read
  intro entry member
  rcases List.mem_cons.mp member with rfl | member
  · obtain ⟨kind, -, path, -⟩ := ofNode_eq_ok readFirst
    rw [kind, path]
    exact .package position
  · obtain ⟨list, inLists, member⟩ := List.mem_flatten.mp member
    obtain ⟨⟨field, kind⟩, listed, readList⟩ := exists_item_of_mapM readMembers inLists
    obtain ⟨items, index, item, -, -, readItem⟩ := exists_item_of_readList readList entry member
    obtain ⟨rfl, -, path, -⟩ := ofNode_eq_ok readItem
    rw [path]
    exact .member listed position index

/-- Packages in a row and their members stand at places for their kinds. -/
theorem standsAt_of_readPackages {nodes : List Node} {id position : Nat} {entries : List Entry}
    (read : readPackages id position nodes = .ok entries) :
    ∀ entry ∈ entries, entry.kind.StandsAt entry.path := by
  induction nodes generalizing id position entries with
  | nil =>
      cases read
      simp
  | cons node rest ih =>
      simp only [readPackages, bind_eq_ok_iff, pure_eq_ok_iff] at read
      obtain ⟨first, readFirst, later, readLater, rfl⟩ := read
      exact List.forall_mem_append.mpr ⟨standsAt_of_readPackage readFirst, ih readLater⟩

/-- Each entry of a document stands where one of its kind can. -/
theorem standsAt_of_ofDocument {entries : List Entry}
    (reserved : ofDocument document = .ok entries) :
    ∀ entry ∈ entries, entry.kind.StandsAt entry.path := by
  simp only [ofDocument, bind_eq_ok_iff, pure_eq_ok_iff] at reserved
  obtain ⟨lists, readLists, packages, -, owned, readOwned, rfl⟩ := reserved
  refine List.forall_mem_append.mpr ⟨fun entry member => ?_, standsAt_of_readPackages readOwned⟩
  obtain ⟨list, inLists, member⟩ := List.mem_flatten.mp member
  obtain ⟨⟨field, kind⟩, listed, readList⟩ := exists_item_of_mapM readLists inLists
  obtain ⟨items, position, item, -, -, readItem⟩ := exists_item_of_readList readList entry member
  obtain ⟨rfl, -, path, -⟩ := ofNode_eq_ok readItem
  rw [path]
  exact .type listed position

/-- What stands at a position of a list is read as an entry. -/
theorem mem_of_readList {owner node : Node} {outer : Path} {placement : Placement} {field : String}
    {kind : Kind} {position : Nat} {entries : List Entry}
    (read : readList owner outer placement field kind = .ok entries)
    (leads : owner.follow [.field field, .index position] = some node) :
    ∃ entry ∈ entries, entry.kind = kind ∧
      entry.path = outer ++ [.field field, .index position] ∧ entry.node = node := by
  obtain ⟨items, item, present, here, same⟩ := Node.exists_items_of_follow leads
  cases same
  simp only [readList, Node.readArrayOrEmpty_eq_ok_iff.mpr (.inr present)] at read
  have listed : (node, position) ∈ items.zipIdx := List.mem_zipIdx_iff_getElem?.mpr here
  obtain ⟨entry, member, readItem⟩ := exists_mem_of_mapM read listed
  obtain ⟨kind, -, path, node⟩ := ofNode_eq_ok readItem
  exact ⟨entry, member, kind, path, node⟩

/-- The entries of each package in a row are read from it. -/
theorem exists_readPackage_of_readPackages {nodes : List Node} {id position : Nat}
    {entries : List Entry} (read : readPackages id position nodes = .ok entries) {offset : Nat}
    {node : Node} (here : nodes[offset]? = some node) :
    ∃ first part, part ⊆ entries ∧
      readPackage first [.field "packages", .index (position + offset)] node = .ok part := by
  induction nodes generalizing id position entries offset with
  | nil => cases here
  | cons package rest ih =>
      simp only [readPackages, bind_eq_ok_iff, pure_eq_ok_iff] at read
      obtain ⟨part, readFirst, later, readLater, rfl⟩ := read
      cases offset with
      | zero =>
          cases here
          exact ⟨id, part, List.subset_append_left _ _, readFirst⟩
      | succ offset =>
          obtain ⟨first, found, inside, readPart⟩ := ih readLater here
          rw [Nat.add_assoc, Nat.add_comm 1] at readPart
          exact ⟨first, found, List.Subset.trans inside (List.subset_append_right _ _), readPart⟩

/-- What stands in a document where an entry can stand is one of its entries. -/
theorem exists_entry_of_follow {entries : List Entry} (reserved : ofDocument document = .ok entries)
    {kind : Kind} {path : Path} (stands : kind.StandsAt path) {node : Node}
    (leads : document.follow path = some node) :
    ∃ entry ∈ entries, entry.kind = kind ∧ entry.path = path ∧ entry.node = node := by
  simp only [ofDocument, bind_eq_ok_iff, pure_eq_ok_iff] at reserved
  obtain ⟨lists, readLists, packages, readArray, owned, readOwned, rfl⟩ := reserved
  -- A package is one of those that were read, and so are its entries.
  have inPackage {position : Nat} {rest : Path} {node : Node}
      (leads : document.follow (.field "packages" :: .index position :: rest) = some node) :
      ∃ first part package, part ⊆ lists.flatten ++ owned ∧
        readPackage first [.field "packages", .index position] package = .ok part ∧
        package.follow rest = some node := by
    obtain ⟨items, package, present, here, leads⟩ := Node.exists_items_of_follow leads
    cases (Node.readArrayOrEmpty_eq_ok_iff.mpr (.inr present)).symm.trans
      (liftRead_eq_ok_iff.mp readArray)
    obtain ⟨first, part, inside, readPart⟩ := exists_readPackage_of_readPackages readOwned here
    rw [Nat.zero_add] at readPart
    exact ⟨first, part, package, List.Subset.trans inside (List.subset_append_right _ _), readPart,
      leads⟩
  cases stands with
  | type listed position =>
      obtain ⟨list, inLists, readList⟩ := exists_mem_of_mapM readLists listed
      obtain ⟨entry, member, facts⟩ := mem_of_readList readList leads
      exact ⟨entry, List.mem_append_left _ (List.mem_flatten.mpr ⟨list, inLists, member⟩), facts⟩
  | package position =>
      obtain ⟨first, part, package, inside, readPart, same⟩ := inPackage leads
      cases same
      simp only [readPackage, bind_eq_ok_iff, pure_eq_ok_iff] at readPart
      obtain ⟨entry, readFirst, members, -, rfl⟩ := readPart
      obtain ⟨kind, -, path, node⟩ := ofNode_eq_ok readFirst
      exact ⟨_, inside List.mem_cons_self, kind, path, node⟩
  | member listed package position =>
      obtain ⟨first, part, owner, inside, readPart, leads⟩ := inPackage leads
      simp only [readPackage, bind_eq_ok_iff, pure_eq_ok_iff] at readPart
      obtain ⟨_, -, members, readMembers, rfl⟩ := readPart
      obtain ⟨list, inMembers, readList⟩ := exists_mem_of_mapM readMembers listed
      obtain ⟨entry, member, facts⟩ := mem_of_readList readList leads
      have member := List.mem_flatten.mpr ⟨list, inMembers, member⟩
      exact ⟨entry, inside (List.mem_cons_of_mem _ member), facts⟩

end Reading

/-! ## The first pass -/

/-- An entry whose document has another node at a hole. -/
def put (hole : Path) (new : Node) (entry : Entry) : Entry :=
  if entry.path <+: hole then
    { entry with node := entry.node.put (hole.drop entry.path.length) new }
  else entry

/-- A change outside an entry leaves the entry as it is. -/
theorem put_of_apart {hole : Path} {entry : Entry} (outside : ¬ entry.path <+: hole)
    (new : Node) : entry.put hole new = entry :=
  if_neg outside

/-- A change below an entry changes the node of the entry. -/
theorem put_append (entry : Entry) (inner : Path) (new : Node) :
    entry.put (entry.path ++ inner) new = { entry with node := entry.node.put inner new } := by
  rw [put, if_pos (List.prefix_append _ _), List.drop_left]

/-- A change of an entry as a whole replaces its node. -/
theorem put_self (entry : Entry) (new : Node) :
    entry.put entry.path new = { entry with node := new } := by
  have here := put_append entry [] new
  rwa [List.append_nil, Node.put_nil] at here

/-- A change outside of all entries leaves them as they are. -/
theorem map_put_of_apart {hole : Path} {entries : List Entry}
    (outside : ∀ entry ∈ entries, ¬ entry.path <+: hole) (new : Node) :
    entries.map (put hole new) = entries := by
  rw [List.map_congr_left fun entry member => put_of_apart (outside entry member) new]
  exact List.map_id _

/-- A change outside of all entries that are read leaves what is read as it is. -/
theorem map_put_eq (result : LoadResult (List Entry)) {hole : Path}
    (outside : ∀ entries, result = .ok entries → ∀ entry ∈ entries, ¬ entry.path <+: hole)
    (new : Node) : List.map (put hole new) <$> result = result := by
  cases result with
  | ok entries => exact congrArg Except.ok (map_put_of_apart (outside entries rfl) new)
  | error error => rfl

@[simp]
theorem ofEntries_put (hole : Path) (new : Node) (entries : List Entry) :
    Draft.ofEntries (entries.map (put hole new)) = Draft.ofEntries entries := by
  have same (entry : Entry) : (entry.put hole new).kind = entry.kind ∧
      (entry.put hole new).name = entry.name := by
    rw [put]
    split <;> exact ⟨rfl, rfl⟩
  have reserved : reservations (entries.map (put hole new)) = reservations entries := by
    simp [reservations, reservation, same]
  have kinds : kinds (entries.map (put hole new)) = kinds entries := by
    simp [kinds, same]
  rw [Draft.ofEntries, Draft.ofEntries, reserved, idsIn_congr kinds]

end Entry

/-- A hole spares the name of an entry, if the entry is reserved by its name. -/
def Kind.SparesName (kind : Kind) (hole : Path) : Prop :=
  kind.isKeyed → ∃ step rest, hole = step :: rest ∧ step ≠ .field "name"

/-- A change that spares the name of an entry leaves the name as it is. -/
theorem identityName_put {kind : Kind} {hole : Path} (spares : kind.SparesName hole) (node : Node)
    (new : Node) : identityName kind (node.put hole new) = identityName kind node := by
  cases keyed : kind.isKeyed with
  | false => simp [identityName, keyed]
  | true =>
      obtain ⟨step, rest, rfl, other⟩ := spares keyed
      have field := Node.field?_put_of_step_ne other node rest new
      simp only [identityName, Node.string?_put_cons, Node.readString,
        Node.field_congr (Node.shape_put_cons _ _ _ _) field]

namespace Entry

section Lists

variable {owner : Node} {outer : Path} {placement : Placement} {field : String} {kind : Kind}

/-- An entry of a changed node is the changed entry, if its name is spared. -/
theorem ofNode_put {path inner : Path} {node : Node} (spares : kind.SparesName inner)
    (new : Node) :
    ofNode kind placement path (node.put inner new) =
      put (path ++ inner) new <$> ofNode kind placement path node := by
  simp only [ofNode, identityName_put spares]
  cases identityName kind node with
  | ok name => exact congrArg Except.ok (put_append ⟨kind, name, node, path, placement⟩ _ _).symm
  | error error => rfl

/-- An entry that stands apart from a change is not changed. -/
theorem ofNode_outside {path hole : Path} (outside : ¬ path <+: hole) (node new : Node) :
    put hole new <$> ofNode kind placement path node = ofNode kind placement path node := by
  cases read : ofNode kind placement path node with
  | ok entry =>
      obtain ⟨-, -, rfl, -⟩ := ofNode_eq_ok read
      exact congrArg Except.ok (put_of_apart outside new)
  | error error => rfl

/-- A list that a hole is not in has the same entries. -/
theorem readList_put_of_ne {hole : Path} (other : hole.head? ≠ some (.field field))
    (nonempty : hole ≠ []) (new : Node) :
    readList (owner.put hole new) outer placement field kind =
      List.map (put (outer ++ hole) new) <$> readList owner outer placement field kind := by
  obtain ⟨step, rest, rfl⟩ := List.exists_cons_of_ne_nil nonempty
  have different : step ≠ .field field := fun same => other (congrArg some same)
  rw [readList_congr (Node.field?_put_of_step_ne different owner rest new), map_put_eq]
  intro entries read entry member
  obtain ⟨items, position, item, -, -, readItem⟩ := exists_item_of_readList read entry member
  rw [(ofNode_eq_ok readItem).2.2.1, List.prefix_append_right_inj, List.cons_prefix_cons]
  rintro ⟨rfl, -⟩
  exact other rfl

/-- Changing one item of a list changes it under its position. -/
theorem zipIdx_modify {α : Type} (items : List α) (position : Nat) (change : α → α) :
    (items.modify position change).zipIdx =
      items.zipIdx.map fun item =>
        if item.2 = position then (change item.1, item.2) else item := by
  apply List.ext_getElem?
  intro index
  rw [List.getElem?_zipIdx, List.getElem?_map, List.getElem?_zipIdx, List.getElem?_modify]
  cases items[index]? with
  | none => simp
  | some item => grind

/-- A list with a hole in one of its items has the same entries, one of them with the hole. -/
theorem readList_put_item {position : Nat} {inner : Path} (spares : kind.SparesName inner)
    (new : Node) :
    readList (owner.put (.field field :: .index position :: inner) new) outer placement field
        kind =
      List.map (put (outer ++ .field field :: .index position :: inner) new) <$>
        readList owner outer placement field kind := by
  have item (entry : Node × Nat) :
      ofNode kind placement (outer ++ [.field field, .index entry.2])
          (if entry.2 = position then entry.1.put inner new else entry.1) =
        put (outer ++ .field field :: .index position :: inner) new <$>
          ofNode kind placement (outer ++ [.field field, .index entry.2]) entry.1 := by
    obtain ⟨node, index⟩ := entry
    by_cases here : index = position
    · subst here
      rw [if_pos rfl, ofNode_put spares, List.append_assoc]
      rfl
    · rw [if_neg here, ofNode_outside]
      simpa using here
  simp only [readList, Node.readArrayOrEmpty_put]
  cases owner.readArrayOrEmpty field with
  | error error => rfl
  | ok items =>
      change List.mapM _ (items.modify position fun node => node.put inner new).zipIdx = _ <$>
        List.mapM _ items.zipIdx
      rw [zipIdx_modify, List.mapM_map, ← mapM_map_ok]
      refine mapM_congr fun entry _ => ?_
      rw [← item]
      simp only [Function.comp_apply]
      split <;> rfl

/-- A hole is within an item of one of some lists, apart from its name, if it is in such a list. -/
def SparesLists (lists : List (String × Kind)) (hole : Path) : Prop :=
  ∀ field kind rest, (field, kind) ∈ lists → hole = .field field :: rest →
    ∃ position inner, rest = .index position :: inner ∧ kind.SparesName inner

/-- Lists of a changed owner hold the changed entries. -/
theorem readLists_put {lists : List (String × Kind)} {hole : Path}
    (spares : SparesLists lists hole) (nonempty : hole ≠ []) (new : Node) :
    (lists.mapM fun (field, kind) =>
        readList (owner.put hole new) outer placement field kind) =
      List.map (List.map (put (outer ++ hole) new)) <$>
        lists.mapM fun (field, kind) => readList owner outer placement field kind := by
  rw [← mapM_map_ok]
  refine mapM_congr fun (field, kind) listed => ?_
  by_cases inside : hole.head? = some (.field field)
  · obtain ⟨rest, rfl⟩ := List.head?_eq_some_iff.mp inside
    obtain ⟨position, inner, rfl, named⟩ := spares field kind rest listed rfl
    exact readList_put_item named new
  · exact readList_put_of_ne inside nonempty new

end Lists

section Packages

variable {inner : Path}

/-- A hole is within a package, apart from what the first pass reads of it. -/
structure SparesPackage (inner : Path) : Prop where
  name : Kind.package.SparesName inner
  members : SparesLists Allocation.memberLists inner

/-- A change that spares a package does not replace it. -/
theorem SparesPackage.ne_nil (spares : SparesPackage inner) : inner ≠ [] := by
  obtain ⟨step, rest, rfl, -⟩ := spares.name rfl
  exact List.cons_ne_nil _ _

/-- What a package owns does not depend on what its members spell. -/
theorem owned_map (id : Nat) (lists : List (List Entry)) (change : Entry → Entry) :
    owned id (lists.map (List.map change)) = owned id lists := by
  simp [owned, Function.comp_def]

/-- The entries of a changed package are the changed entries of the package. -/
theorem readPackage_put (spares : SparesPackage inner) (id : Nat) (path : Path) (node new : Node) :
    readPackage id path (node.put inner new) =
      List.map (put (path ++ inner) new) <$> readPackage id path node := by
  simp only [readPackage, ofNode_put spares.name, readLists_put spares.members spares.ne_nil]
  cases first : ofNode .package .topLevel path node with
  | error error => rfl
  | ok package =>
      obtain ⟨-, -, here, -⟩ := ofNode_eq_ok first
      cases Allocation.memberLists.mapM fun (field, kind) =>
        readList node path (.member ⟨id⟩) field kind with
      | error error => rfl
      | ok lists =>
          refine congrArg Except.ok ?_
          simp only [owned_map, List.map_cons, List.map_flatten]
          congr 1
          simp only [put, here, List.prefix_append, ↓reduceIte]

/-- The entries of packages stand below the list of packages, at the position of theirs or behind.
-/
theorem path_of_readPackages {nodes : List Node} {id position : Nat} {entries : List Entry}
    (read : readPackages id position nodes = .ok entries) :
    ∀ entry ∈ entries, ∃ later, position ≤ later ∧
      [.field "packages", .index later] <+: entry.path := by
  induction nodes generalizing id position entries with
  | nil =>
      cases read
      simp
  | cons node rest ih =>
      simp only [readPackages, bind_eq_ok_iff, pure_eq_ok_iff] at read
      obtain ⟨first, readFirst, later, readLater, rfl⟩ := read
      refine List.forall_mem_append.mpr ⟨fun entry member => ?_, fun entry member => ?_⟩
      · exact ⟨position, Nat.le_refl _, path_of_readPackage readFirst entry member⟩
      · obtain ⟨index, after, below⟩ := ih readLater entry member
        exact ⟨index, Nat.le_of_succ_le after, below⟩

/-- An entry of a package is outside of a hole in another package. -/
theorem apart_of_other_package {entry : Entry} {package other : Nat}
    (below : [.field "packages", .index package] <+: entry.path) (different : package ≠ other) :
    ¬ entry.path <+: .field "packages" :: .index other :: inner := by
  intro within
  have same := below.trans within
  simp only [List.cons_prefix_cons, Step.index.injEq] at same
  exact different same.2.1

/-- The entries of packages, one of which is changed, are the changed entries. -/
theorem readPackages_put (spares : SparesPackage inner) (nodes : List Node)
    (id position offset : Nat) (new : Node) :
    readPackages id position (nodes.modify offset fun node => node.put inner new) =
      List.map (put (.field "packages" :: .index (position + offset) :: inner) new) <$>
        readPackages id position nodes := by
  induction nodes generalizing id position offset with
  | nil => cases offset <;> rfl
  | cons node rest ih =>
      cases offset with
      | zero =>
          have later (id : Nat) (entries : List Entry)
              (read : readPackages id (position + 1) rest = .ok entries) :
              ∀ entry ∈ entries,
                ¬ entry.path <+: .field "packages" :: .index position :: inner := by
            intro entry member
            obtain ⟨_, after, below⟩ := path_of_readPackages read entry member
            exact apart_of_other_package below (by omega)
          simp only [List.modify_zero_cons, readPackages, readPackage_put spares, Nat.add_zero]
          cases readPackage id [.field "packages", .index position] node with
          | error error => rfl
          | ok entries =>
              have same := map_put_eq _ (later (id + entries.length)) new
              cases read : readPackages (id + entries.length) (position + 1) rest <;>
                simp_all
      | succ offset =>
          have outside (entries : List Entry)
              (read : readPackage id [.field "packages", .index position] node = .ok entries) :
              ∀ entry ∈ entries, ¬ entry.path <+:
                .field "packages" :: .index (position + (offset + 1)) :: inner := by
            intro entry member
            exact apart_of_other_package (path_of_readPackage read entry member) (by omega)
          have first := map_put_eq _ outside new
          simp only [List.modify_succ_cons, readPackages, ih, Nat.add_assoc, Nat.add_comm 1]
          cases read : readPackage id [.field "packages", .index position] node with
          | error error => rfl
          | ok entries =>
              cases readLater : readPackages (id + entries.length) (position + 1) rest <;>
                simp_all

end Packages

/-- A hole is within a list of the document, apart from what the first pass reads of it. -/
structure Spares (hole : Path) : Prop where
  types : SparesLists Allocation.typeLists hole
  packages : ∀ rest, hole = .field "packages" :: rest →
    ∃ position inner, rest = .index position :: inner ∧ SparesPackage inner
  first : ∃ step rest, hole = step :: rest ∧ step ≠ .field "language"

/-- A change that spares the entries does not replace the document. -/
theorem Spares.ne_nil {hole : Path} (spares : Spares hole) : hole ≠ [] := by
  obtain ⟨step, rest, rfl, -⟩ := spares.first
  exact List.cons_ne_nil _ _

/-- The entries of the packages of a document, the first of which has the given id. -/
def readOwned (first : Nat) (document : Node) : LoadResult (List Entry) := do
  readPackages first 0 (← document.readArrayOrEmpty "packages")

/-- The entries of a document are its types and what its packages hold. -/
theorem ofDocument_eq (document : Node) :
    ofDocument document = do
      let lists ← Allocation.typeLists.mapM fun (field, kind) =>
        readList document [] .topLevel field kind
      let owned ← readOwned lists.flatten.length document
      return lists.flatten ++ owned := by
  simp only [ofDocument, readOwned, bind_assoc]

/-- What the packages of a changed document hold are the changed entries. -/
theorem readOwned_put {hole : Path} (spares : Spares hole) (first : Nat) (document new : Node) :
    readOwned first (document.put hole new) =
      List.map (put hole new) <$> readOwned first document := by
  by_cases inside : hole.head? = some (.field "packages")
  · obtain ⟨rest, rfl⟩ := List.head?_eq_some_iff.mp inside
    obtain ⟨position, inner, rfl, package⟩ := spares.packages rest rfl
    rw [readOwned, readOwned, Node.readArrayOrEmpty_put]
    cases document.readArrayOrEmpty "packages" with
    | error error => rfl
    | ok packages =>
        have owned := readPackages_put package packages first 0 position new
        rw [Nat.zero_add] at owned
        exact owned
  · obtain ⟨step, rest, rfl⟩ := List.exists_cons_of_ne_nil spares.ne_nil
    have different : step ≠ .field "packages" := fun same => inside (congrArg some same)
    rw [map_put_eq]
    · simp only [readOwned, Node.readArrayOrEmpty, Node.field?_put_of_step_ne different]
    · intro entries read entry member within
      simp only [readOwned, bind_eq_ok_iff] at read
      obtain ⟨packages, -, read⟩ := read
      obtain ⟨index, -, below⟩ := path_of_readPackages read entry member
      obtain ⟨rfl, -⟩ := List.cons_prefix_cons.mp (below.trans within)
      exact inside rfl

/-- With another node within its entries, apart from their names, a document has the same entries
with the node in them. -/
theorem ofDocument_put {hole : Path} (spares : Spares hole) (document new : Node) :
    ofDocument (document.put hole new) = List.map (put hole new) <$> ofDocument document := by
  have lists : (Allocation.typeLists.mapM fun (field, kind) =>
      readList (document.put hole new) [] .topLevel field kind) = _ :=
    readLists_put spares.types spares.ne_nil new
  rw [List.nil_append] at lists
  simp only [ofDocument_eq, lists, readOwned_put spares]
  cases Allocation.typeLists.mapM fun (field, kind) =>
      readList document [] .topLevel field kind with
  | error error => rfl
  | ok found =>
      have length : (found.map (List.map (put hole new))).flatten.length =
          found.flatten.length := by
        simp [List.length_flatten, Function.comp_def]
      simp only [map_ok, ok_bind, length]
      cases readOwned found.flatten.length document with
      | error error => rfl
      | ok owned =>
          refine congrArg Except.ok ?_
          rw [List.map_append, List.map_flatten]

end Entry

namespace Kind.StandsAt

variable {kind kind' : Kind} {path path' inner : Path}

/-- Only entries of one kind stand at a path. -/
theorem unique (stands : kind.StandsAt path) (stands' : kind'.StandsAt path) : kind = kind' := by
  cases stands with
  | type listed =>
      cases stands' with
      | type listed' => exact Entry.kind_unique (.inl rfl) listed listed'
      | package => exact absurd rfl (Entry.ne_packages_of_typeLists listed)
  | package =>
      cases stands' with
      | type listed' => exact absurd rfl (Entry.ne_packages_of_typeLists listed')
      | package => rfl
  | member listed =>
      cases stands' with
      | member listed' => exact Entry.kind_unique (.inr rfl) listed listed'

/-- Of two entries one of which stands on the way to a hole in the other, either both are the same,
or one is a package and the hole is in one of its members. -/
theorem on_the_way (stands : kind.StandsAt path) (stands' : kind'.StandsAt path')
    (within : path' <+: path ++ inner) :
    path' = path ∨
      (kind = .package ∧ ∃ field rest, field ∈ Allocation.memberLists.map Prod.fst ∧
        inner = .field field :: rest) ∨
      (kind' = .package ∧ ∃ field rest, field ∈ Allocation.memberLists.map Prod.fst ∧
        path ++ inner = path' ++ .field field :: rest) := by
  cases stands with
  | type listed =>
      have := Entry.ne_packages_of_typeLists listed
      cases stands' <;> simp_all
  | package =>
      cases stands' with
      | type listed' =>
          have := Entry.ne_packages_of_typeLists listed'
          simp_all
      | package => simp_all
      | member listed' =>
          obtain ⟨rest, same⟩ := within
          simp at same
          exact .inr (.inl ⟨rfl, _, _, List.mem_map_of_mem listed', same.2.symm⟩)
  | member listed =>
      cases stands' with
      | type listed' =>
          have := Entry.ne_packages_of_typeLists listed'
          simp_all
      | package =>
          simp at within
          subst within
          exact .inr (.inr ⟨rfl, _, _, List.mem_map_of_mem listed, rfl⟩)
      | member listed' => simp_all

/-- A hole in an entry spares the first pass, unless it is in the name or in the members. -/
theorem spares (stands : kind.StandsAt path) (named : kind.SparesName inner)
    (members : kind = .package → ∀ field rest, inner = .field field :: rest →
      field ∉ Allocation.memberLists.map Prod.fst) : Entry.Spares (path ++ inner) := by
  cases stands with
  | type listed position =>
      refine ⟨?_, ?_, ?_⟩
      · intro field kind' rest listed' same
        cases same
        cases Entry.kind_unique (.inl rfl) listed listed'
        exact ⟨position, inner, rfl, named⟩
      · intro rest same
        cases same
        exact absurd rfl (Entry.ne_packages_of_typeLists listed)
      · refine ⟨_, _, rfl, ?_⟩
        rintro same
        cases same
        simp [Allocation.typeLists] at listed
  | package position =>
      refine ⟨?_, ?_, ⟨_, _, rfl, by simp⟩⟩
      · intro field kind' rest listed' same
        cases same
        exact absurd rfl (Entry.ne_packages_of_typeLists listed')
      · intro rest same
        cases same
        refine ⟨position, inner, rfl, named, ?_⟩
        intro field kind' rest listed' same
        exact absurd (List.mem_map_of_mem listed') (members rfl field rest same)
  | member listed package position =>
      refine ⟨?_, ?_, ⟨_, _, rfl, by simp⟩⟩
      · intro field kind' rest listed' same
        cases same
        exact absurd rfl (Entry.ne_packages_of_typeLists listed')
      · intro rest same
        cases same
        refine ⟨package, _, rfl, fun _ => ⟨_, _, rfl, ?_⟩, ?_⟩
        · rintro same
          cases same
          simp [Allocation.memberLists] at listed
        · intro field kind' rest listed' same
          cases same
          cases Entry.kind_unique (.inr rfl) listed listed'
          exact ⟨position, inner, rfl, named⟩

end Kind.StandsAt

/-! ## The second pass -/

namespace Construct

variable {draft : Draft} {node : Node} {field : String}

/-- What is read of a package is not in the lists of its members. -/
theorem ofPackageNode_put {kind : Kind} {members : Members}
    (listed : field ∈ Allocation.memberLists.map Prod.fst) (rest : Path) (new : Node) :
    ofPackageNode draft kind members (node.put (.field field :: rest) new) =
      ofPackageNode draft kind members node := by
  have shape := Node.shape_put_cons node (.field field) rest new
  have same (other : String) (apart : other ∉ Allocation.memberLists.map Prod.fst) :
      (node.put (.field field :: rest) new).field? other = node.field? other :=
    Node.field?_put_of_ne node field rest new fun same => apart (same ▸ listed)
  have name := Node.field_congr shape (same "name" (by decide))
  have path := same "path" (by decide)
  have imports := same "imports" (by decide)
  simp only [ofPackageNode, Node.readString, Node.optionalString, Draft.readIndexListOrEmpty, name,
    path, imports]

end Construct

/-- Only the entry that a hole is in is read in another way. -/
theorem Entry.construct_put {document : Node} {entries : List Entry}
    (reserved : ofDocument document = .ok entries) {kind : Kind} {path inner : Path}
    (stands : kind.StandsAt path)
    (members : kind = .package → ∀ field rest, inner = .field field :: rest →
      field ∉ Allocation.memberLists.map Prod.fst) :
    ∀ entry ∈ entries,
      (∀ new draft, (entry.put (path ++ inner) new).construct draft = entry.construct draft) ∨
        (entry.kind = kind ∧ entry.path = path) := by
  intro entry member
  have stands' := standsAt_of_ofDocument reserved entry member
  by_cases within : entry.path <+: path ++ inner
  · rcases stands.on_the_way stands' within with
      same | ⟨package, field, rest, listed, below⟩ | ⟨package, field, rest, listed, below⟩
    · exact .inr ⟨stands'.unique (same ▸ stands), same⟩
    · exact absurd listed (members package field rest below)
    · left
      intro new draft
      have suits := (standsIn_of_ofDocument reserved entry member).suits
      have placed : ∃ owned, entry.placement = .package owned := by
        cases placement : entry.placement <;>
          simp [Placement.Suits, placement, package, Allocation.typeLists,
            Allocation.memberLists] at suits ⊢
      obtain ⟨owned, placed⟩ := placed
      simp only [below, put_append, construct, Construct.ofNode, placed,
        Construct.ofPackageNode_put listed]
  · exact .inl fun new draft => by rw [put_of_apart within]

/-- Building at each position builds what the entries spell. -/
theorem Draft.mapM_constructAt (entries : List Entry) :
    (List.range entries.length).mapM (constructAt entries) =
      entries.mapM (Entry.construct (ofEntries entries)) := by
  have positions : List.range entries.length = (List.finRange entries.length).map (·.val) :=
    List.map_coe_finRange_eq_range.symm
  have found := List.map_getElem_finRange entries
  calc (List.range entries.length).mapM (constructAt entries)
      = (List.finRange entries.length).mapM fun position =>
          entries[position].construct (ofEntries entries) := by
        rw [positions, List.mapM_map]
        exact mapM_congr fun position _ =>
          constructAt_of_entry (List.getElem?_eq_getElem position.isLt)
    _ = ((List.finRange entries.length).map fun position => entries[position.val]).mapM
          (Entry.construct (ofEntries entries)) := by
        rw [List.mapM_map]
        rfl
    _ = entries.mapM (Entry.construct (ofEntries entries)) := by
        rw [found]

namespace Project

/-- A document that is an object passes for one. -/
theorem expectObject_eq {document : Node} (object : document.shape = .object) :
    (liftM document.expectObject : LoadResult (List (String × Node))) = .ok document.entries := by
  cases document with
  | object fields => rfl
  | _ => cases object

/-- A document is loaded in two passes: all entries are reserved, and then each of them is read. -/
theorem load_eq (document : Node) :
    load document = do
      let _ ← document.expectObject
      let entries ← Entry.ofDocument document
      let constructs ← entries.mapM (Entry.construct (Draft.ofEntries entries))
      return ofConstructs document entries constructs := by
  by_cases object : document.shape = .object
  · have opened := expectObject_eq object
    cases reserved : Entry.ofDocument document with
    | error error => simp [load, loadInOrder_by_entries, opened, reserved]
    | ok entries =>
        rw [opened, ok_bind, ok_bind]
        cases read : entries.mapM (Entry.construct (Draft.ofEntries entries)) with
        | ok constructs =>
            exact load_eq_ok_iff.mpr ⟨entries, constructs, object, reserved, read, rfl⟩
        | error error =>
            have failed : load document = .error error ↔ _ :=
              loadInOrder_eq_error_iff object reserved (.refl _)
            exact failed.mpr ((Draft.mapM_constructAt entries).trans read)
  · cases document with
    | object fields => exact absurd rfl object
    | _ => rfl

/-- With another node within its entries, apart from their names, a document loads as the entries
are read with the node in them. -/
theorem load_put {hole : Path} (spares : Entry.Spares hole) (document new : Node) :
    load (document.put hole new) = do
      let _ ← document.expectObject
      let entries ← Entry.ofDocument document
      let constructs ← entries.mapM fun entry =>
        (entry.put hole new).construct (Draft.ofEntries entries)
      return ofConstructs document entries constructs := by
  obtain ⟨step, rest, rfl, other⟩ := spares.first
  have language : (document.put (step :: rest) new).optionalString "language" =
      document.optionalString "language" := by
    rw [Node.optionalString, Node.optionalString, Node.field?_put_of_step_ne other]
  by_cases object : document.shape = .object
  · have objectToo := (Node.shape_put_cons document step rest new).trans object
    rw [load_eq, Entry.ofDocument_put spares, expectObject_eq object, expectObject_eq objectToo]
    cases Entry.ofDocument document with
    | error error => rfl
    | ok entries =>
        simp only [map_ok, ok_bind, Entry.ofEntries_put, List.mapM_map, ofConstructs, language]
        rfl
  · cases document with
    | object fields => exact absurd rfl object
    | _ => cases step <;> rfl

end Project

end CodeGraph

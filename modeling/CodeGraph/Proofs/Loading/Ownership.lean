import CodeGraph.Proofs.Loading.Stretches

/-! # Packages and their members

A package is numbered before its members, and its lists name the ids that follow, kind by kind
(`CodeGraph.Allocation.allocatePackage`). The members in turn are told the id of their package. So the
lists of a package lead to its own members and each member is on the list of the package it points
to (`CodeGraph.Entry.OwnedIn`), and a loaded project can be read in both directions
(`CodeGraph.Project.ownership_of_load`).
-/

namespace CodeGraph

namespace Members

/-- The ids that the list for a kind holds; packages list members only. -/
def idsOf (members : Members) : Kind → List Nat
  | .interfaceDecl => members.interfaceDecls.map Ref.id
  | .interfaceInst => members.interfaceInsts.map Ref.id
  | .objectDecl => members.objectDecls.map Ref.id
  | .objectInst => members.objectInsts.map Ref.id
  | .methodDecl => members.methodDecls.map Ref.id
  | .methodInst => members.methodInsts.map Ref.id
  | .value => members.values.map Ref.id
  | _ => []

/-- The lists of members hold the ids that they were given. -/
theorem idsOf_ofFn {ids : Kind → List Nat} {kind : Kind}
    (member : kind ∈ Allocation.memberLists.map Prod.snd) : (ofFn ids).idsOf kind = ids kind := by
  cases kind <;> simp_all [Allocation.memberLists, idsOf, ofFn, Function.comp_def]

/-- Packages own nothing but members. -/
theorem idsOf_eq_nil {members : Members} {kind : Kind}
    (other : kind ∉ Allocation.memberLists.map Prod.snd) : members.idsOf kind = [] := by
  cases kind <;> simp_all [Allocation.memberLists, idsOf]

end Members

namespace Entry

/-- The entries of a list are numbered behind those of the lists before. -/
theorem numbered_append {before after : List (Kind × Nat)} {kind : Kind} {length : Nat}
    (fresh : kind ∉ before.map Prod.fst) (first : Nat) :
    numbered first (before ++ (kind, length) :: after) kind =
      List.range' (first + (before.map Prod.snd).sum) length := by
  induction before generalizing first with
  | nil => simp [numbered]
  | cons list rest ih =>
      rw [List.map_cons, List.mem_cons, not_or] at fresh
      rw [List.cons_append, numbered, if_neg (Ne.symm fresh.1), ih fresh.2, List.map_cons,
        List.sum_cons, Nat.add_assoc]

section Numbered

variable {kinds : List Kind} {lists : List (List Entry)}
  (same : List.Forall₂ (fun kind list => ∀ entry ∈ list, entry.kind = kind) kinds lists)
include same

/-- Each entry has one of the numbers for its kind, if no two lists are for the same kind. -/
theorem mem_numbered_of_getElem? (distinct : kinds.Nodup) {first offset : Nat} {entry : Entry}
    (here : lists.flatten[offset]? = some entry) :
    first + offset ∈ numbered first (kinds.zip (lists.map List.length)) entry.kind := by
  induction same generalizing first offset with
  | nil => cases here
  | @cons listKind list kinds lists atFirst matched ih =>
      obtain ⟨fresh, distinct⟩ := List.nodup_cons.mp distinct
      rw [List.map_cons, List.zip_cons_cons, numbered]
      rw [List.flatten_cons] at here
      by_cases inside : offset < list.length
      · rw [List.getElem?_append_left inside] at here
        rw [if_pos (atFirst entry (List.mem_of_getElem? here)).symm, List.mem_range'_1]
        omega
      · rw [List.getElem?_append_right (by omega)] at here
        have later : first + list.length + (offset - list.length) ∈
            numbered (first + list.length) (kinds.zip (lists.map List.length)) entry.kind :=
          ih distinct here
        have different : listKind ≠ entry.kind := by
          rintro rfl
          obtain ⟨other, inLists, member⟩ := List.mem_flatten.mp (List.mem_of_getElem? here)
          obtain ⟨index, inside, rfl⟩ := List.getElem_of_mem inLists
          have inKinds : index < kinds.length := matched.length_eq ▸ inside
          have kind := matched.get inKinds inside entry member
          exact fresh (kind ▸ List.getElem_mem inKinds)
        rw [if_neg different]
        rwa [show first + offset = first + list.length + (offset - list.length) by omega]

end Numbered

section Members

variable {node : Node} {path : Path} {id : Nat} {lists : List (List Entry)}
  (read : Allocation.memberLists.mapM
    (fun (field, kind) => readList node path (.member ⟨id⟩) field kind) = .ok lists)
include read

/-- Members have kinds that packages own. -/
theorem kind_mem_of_readMembers :
    ∀ entry ∈ lists.flatten, entry.kind ∈ Allocation.memberLists.map Prod.snd := by
  intro entry member
  obtain ⟨list, inLists, member⟩ := List.mem_flatten.mp member
  obtain ⟨⟨field, kind⟩, listed, readList⟩ := exists_item_of_mapM read inLists
  exact List.mem_map.mpr ⟨(field, kind), listed, (kind_of_readList readList entry member).symm⟩

/-- The lists of members are as long as those of the node. -/
theorem lengths_of_readMembers :
    (Allocation.memberLists.map Prod.snd).zip (lists.map List.length) =
      (node.stretchesOf Allocation.memberLists).map fun stretch =>
        (stretch.kind, stretch.nodes.length) := by
  have lengths : lists.map List.length =
      Allocation.memberLists.map fun list => (node.listed list.1).length := by
    apply map_eq_of_mapM read
    intro list _ entries read
    obtain ⟨-, reserved⟩ := reservedFor_of_readList read
    simpa using congrArg List.length reserved.items
  rw [lengths]
  rfl

end Members

/-- Among all entries, an entry with an id stands where its owner expects it: a member is on the
list of its package, and the lists of a package lead to its own members. -/
def OwnedIn (whole : List Entry) (id : Nat) (entry : Entry) : Prop :=
  match entry.placement with
  | .topLevel => True
  | .member owner => ∃ package members, whole[owner.id]? = some package ∧
      package.placement = .package members ∧ id ∈ members.idsOf entry.kind
  | .package members => ∀ kind, ∀ other ∈ members.idsOf kind, ∃ member,
      whole[other]? = some member ∧ member.kind = kind ∧ member.placement = .member ⟨id⟩

/-- A package owns the members that were read with it. -/
theorem readPackage_owned {id : Nat} {path : Path} {node : Node} {entries whole : List Entry}
    (read : readPackage id path node = .ok entries) (stands : entries <+: whole.drop id)
    {offset : Nat} {entry : Entry} (here : entries[offset]? = some entry) :
    entry.OwnedIn whole (id + offset) := by
  simp only [readPackage, bind_eq_ok_iff, pure_eq_ok_iff] at read
  obtain ⟨package, readFirst, lists, readMembers, rfl⟩ := read
  have kinds := kinds_of_readMembers readMembers
  have placements := placement_of_readMembers readMembers
  have first : whole[id + 0]? = some _ := getElem?_of_prefix_drop stands rfl
  cases offset with
  | zero =>
      cases here
      intro kind other listed
      by_cases member : kind ∈ Allocation.memberLists.map Prod.snd
      · rw [owned, Members.idsOf_ofFn member] at listed
        obtain ⟨offset, entry, rfl, here, kind⟩ := exists_of_mem_numbered kinds listed
        refine ⟨entry, ?_, kind, placements entry (List.mem_of_getElem? here)⟩
        rw [Nat.add_assoc, Nat.add_comm 1]
        exact getElem?_of_prefix_drop stands here
      · rw [Members.idsOf_eq_nil member] at listed
        cases listed
  | succ offset =>
      have here : lists.flatten[offset]? = some entry := here
      have inLists := List.mem_of_getElem? here
      rw [OwnedIn, placements entry inLists]
      refine ⟨_, _, first, rfl, ?_⟩
      rw [owned, Members.idsOf_ofFn (kind_mem_of_readMembers readMembers entry inLists),
        show id + (offset + 1) = id + 1 + offset by omega]
      exact mem_numbered_of_getElem? kinds (by decide) here

/-- Packages in a row own the members that were read with them. -/
theorem readPackages_owned {nodes : List Node} {id position : Nat} {entries whole : List Entry}
    (read : readPackages id position nodes = .ok entries) (stands : entries <+: whole.drop id)
    {offset : Nat} {entry : Entry} (here : entries[offset]? = some entry) :
    entry.OwnedIn whole (id + offset) := by
  induction nodes generalizing id position entries offset with
  | nil =>
      cases read
      cases here
  | cons node rest ih =>
      simp only [readPackages, bind_eq_ok_iff, pure_eq_ok_iff] at read
      obtain ⟨first, readFirst, later, readLater, rfl⟩ := read
      obtain ⟨standsFirst, standsLater⟩ := prefix_drop_append stands
      by_cases inFirst : offset < first.length
      · rw [List.getElem?_append_left inFirst] at here
        exact readPackage_owned readFirst standsFirst here
      · rw [List.getElem?_append_right (by omega)] at here
        have owned := ih readLater standsLater here
        rwa [show id + first.length + (offset - first.length) = id + offset by omega] at owned

/-- Packages and members of a document agree. -/
theorem ownedIn_of_ofDocument {document : Node} {entries : List Entry}
    (reserved : ofDocument document = .ok entries) {id : Nat} {entry : Entry}
    (here : entries[id]? = some entry) : entry.OwnedIn entries id := by
  simp only [ofDocument, bind_eq_ok_iff, pure_eq_ok_iff] at reserved
  obtain ⟨lists, readLists, packages, -, packaged, readPackages, rfl⟩ := reserved
  by_cases inTypes : id < lists.flatten.length
  · rw [List.getElem?_append_left inTypes] at here
    obtain ⟨list, inLists, member⟩ := List.mem_flatten.mp (List.mem_of_getElem? here)
    obtain ⟨⟨field, kind⟩, -, readList⟩ := exists_item_of_mapM readLists inLists
    rw [OwnedIn, placement_of_readList readList entry member]
    trivial
  · rw [List.getElem?_append_right (by omega)] at here
    have stands : packaged <+: (lists.flatten ++ packaged).drop lists.flatten.length :=
      ⟨[], by rw [List.drop_left, List.append_nil]⟩
    have owned := readPackages_owned readPackages stands here
    rwa [show lists.flatten.length + (id - lists.flatten.length) = id by omega] at owned

section Packages

/-- The sizes of the member lists of a package. -/
def memberSizes (package : Node) : List (Kind × Nat) :=
  (package.stretchesOf Allocation.memberLists).map fun stretch =>
    (stretch.kind, stretch.nodes.length)

/-- A package has as many entries as its lists have items, and one of its own. -/
theorem length_of_readPackage {id : Nat} {path : Path} {node : Node} {entries : List Entry}
    (read : readPackage id path node = .ok entries) :
    entries.length = Stretch.total node.packageStretches := by
  obtain ⟨-, reserved⟩ := reservedFor_of_readPackage read
  rw [← Stretch.length_flatMap_items, Node.packageStretches, List.flatMap_cons,
    Node.flatMap_stretchesOf]
  simpa [Stretch.items, Nat.add_comm] using congrArg List.length reserved.items

/-- The first entry of a package is the package, and what it owns is numbered behind it. -/
theorem package_of_readPackage {id : Nat} {path : Path} {node : Node} {entries : List Entry}
    (read : readPackage id path node = .ok entries) {offset : Nat} {entry : Entry}
    {members : Members} (here : entries[offset]? = some entry)
    (packaged : entry.placement = .package members) :
    offset = 0 ∧ entry.node = node ∧ members = .ofFn (numbered (id + 1) (memberSizes node)) := by
  simp only [readPackage, bind_eq_ok_iff, pure_eq_ok_iff] at read
  obtain ⟨package, readFirst, lists, readMembers, rfl⟩ := read
  cases offset with
  | zero =>
      cases here
      cases packaged
      rw [owned, lengths_of_readMembers readMembers]
      exact ⟨rfl, (ofNode_eq_ok readFirst).2.2.2, rfl⟩
  | succ offset =>
      have here : lists.flatten[offset]? = some entry := here
      have placed := placement_of_readMembers readMembers entry (List.mem_of_getElem? here)
      cases placed.symm.trans packaged

/-- An entry that owns members is one of the packages, and its members are numbered behind it. -/
theorem package_of_readPackages {nodes : List Node} {id position : Nat} {entries : List Entry}
    (read : readPackages id position nodes = .ok entries) {offset : Nat} {entry : Entry}
    {members : Members} (here : entries[offset]? = some entry)
    (packaged : entry.placement = .package members) :
    ∃ before package after, nodes = before ++ package :: after ∧
      offset = Stretch.total (before.flatMap Node.packageStretches) ∧ entry.node = package ∧
      members = .ofFn (numbered (id + offset + 1) (memberSizes package)) := by
  induction nodes generalizing id position entries offset with
  | nil =>
      cases read
      cases here
  | cons node rest ih =>
      simp only [readPackages, bind_eq_ok_iff, pure_eq_ok_iff] at read
      obtain ⟨first, readFirst, later, readLater, rfl⟩ := read
      by_cases inFirst : offset < first.length
      · rw [List.getElem?_append_left inFirst] at here
        obtain ⟨rfl, same, rfl⟩ := package_of_readPackage readFirst here packaged
        exact ⟨[], node, rest, rfl, rfl, same, rfl⟩
      · rw [List.getElem?_append_right (by omega)] at here
        obtain ⟨before, package, after, rfl, place, same, rfl⟩ := ih readLater here
        have length := length_of_readPackage readFirst
        refine ⟨node :: before, package, after, rfl, ?_, same, ?_⟩
        · rw [List.flatMap_cons, Stretch.total_append, ← length]
          omega
        · rw [show id + first.length + (offset - first.length) = id + offset by omega]

/-- A package stands behind the types and the packages before it, and what it owns is numbered
behind it. -/
theorem package_of_ofDocument {document : Node} {entries : List Entry}
    (reserved : ofDocument document = .ok entries) {id : Nat} {entry : Entry} {members : Members}
    (here : entries[id]? = some entry) (packaged : entry.placement = .package members) :
    ∃ before package after, document.listed "packages" = before ++ package :: after ∧
      id = Stretch.total
        (document.stretchesOf Allocation.typeLists ++ before.flatMap Node.packageStretches) ∧
      entry.node = package ∧ members = .ofFn (numbered (id + 1) (memberSizes package)) := by
  simp only [ofDocument, bind_eq_ok_iff, pure_eq_ok_iff] at reserved
  obtain ⟨lists, readLists, packages, readArray, packages, readPackages, rfl⟩ := reserved
  obtain ⟨-, rfl⟩ := listed_of_readArrayOrEmpty (mapError_eq_ok_iff.mp readArray)
  obtain ⟨-, types⟩ := reservedFor_of_readLists readLists
  have length :
      lists.flatten.length = Stretch.total (document.stretchesOf Allocation.typeLists) := by
    rw [← Stretch.length_flatMap_items, Node.flatMap_stretchesOf, ← types.items, List.length_map]
  by_cases inTypes : id < lists.flatten.length
  · rw [List.getElem?_append_left inTypes] at here
    obtain ⟨list, inLists, member⟩ := List.mem_flatten.mp (List.mem_of_getElem? here)
    obtain ⟨⟨field, kind⟩, -, readList⟩ := exists_item_of_mapM readLists inLists
    cases (placement_of_readList readList entry member).symm.trans packaged
  · rw [List.getElem?_append_right (by omega)] at here
    obtain ⟨before, package, after, split, place, same, rfl⟩ :=
      package_of_readPackages readPackages here packaged
    refine ⟨before, package, after, split, ?_, same, ?_⟩
    · rw [Stretch.total_append, ← length]
      omega
    · rw [show lists.flatten.length + (id - lists.flatten.length) = id by omega]

/-- The ids for a kind follow those of the lists before. -/
theorem numbered_memberSizes {earlier later : List (String × Kind)} {field : String} {kind : Kind}
    (split : Allocation.memberLists = earlier ++ (field, kind) :: later) (first : Nat)
    (package : Node) :
    numbered first (memberSizes package) kind =
      List.range' (first + Stretch.total (package.stretchesOf earlier))
        (package.listed field).length := by
  have distinct : (Allocation.memberLists.map Prod.snd).Nodup := by decide
  rw [split, List.map_append, List.map_cons, List.nodup_middle, List.nodup_cons,
    List.mem_append, not_or] at distinct
  have fresh : kind ∉ ((package.stretchesOf earlier).map fun stretch =>
      (stretch.kind, stretch.nodes.length)).map Prod.fst := by
    simpa [Node.stretchesOf, Function.comp_def] using distinct.1.1
  rw [memberSizes, split, Node.stretchesOf, List.map_append, List.map_append, List.map_cons,
    List.map_cons]
  refine (numbered_append fresh first).trans ?_
  rw [Stretch.total, List.map_map]
  rfl

end Packages

end Entry

/-- A member list of a package stands behind the packages before and the lists before. -/
theorem Node.stretches_eq_of_split {document package : Node} {before after : List Node}
    {earlier later : List (String × Kind)} {field : String} {kind : Kind}
    (packages : document.listed "packages" = before ++ package :: after)
    (lists : Allocation.memberLists = earlier ++ (field, kind) :: later) :
    document.stretches =
      (document.stretchesOf Allocation.typeLists ++ before.flatMap packageStretches ++
        ⟨.package, [package]⟩ :: package.stretchesOf earlier) ++
      ⟨kind, package.listed field⟩ ::
        (package.stretchesOf later ++ after.flatMap packageStretches) := by
  have members : package.stretchesOf Allocation.memberLists = package.stretchesOf earlier ++
      ⟨kind, package.listed field⟩ :: package.stretchesOf later := by
    rw [lists, stretchesOf, List.map_append, List.map_cons]
    rfl
  rw [stretches, packages, List.flatMap_append, List.flatMap_cons, packageStretches, members]
  simp

namespace Construct

/-- The package that a declaration or a value says it belongs to. -/
def owner? : Construct → Option PackageRef
  | value item => some item.package
  | construct => construct.header?.map DeclHeader.package

@[simp]
theorem owner?_withInstances (ids : List Nat) (construct : Construct) :
    (construct.withInstances ids).owner? = construct.owner? := by
  cases construct <;> rfl

variable {draft : Draft} {kind : Kind} {placement : Placement} {node : Node}
  {construct : Construct} (read : ofNode draft kind placement node = .ok construct)
include read

/-- Only members say that they belong to a package, and they say it of their own. -/
theorem placement_of_owner? {owner : PackageRef} (belongs : construct.owner? = some owner) :
    placement = .member owner := by
  cases kind_of_ofNode read
  cases placement with
  | topLevel => cases construct <;> simp_all [ofNode, ofTypeNode, kind, owner?, header?]
  | package members => cases construct <;> simp_all [ofNode, ofPackageNode, kind, owner?, header?]
  | member other =>
      cases construct <;>
        simp only [ofNode, ofMemberNode, kind, bind_eq_ok_iff, pure_eq_ok_iff, throw_ne_ok,
          DeclHeader.ofNode, owner?, header?] at read belongs <;> grind

/-- A package owns what the place of its entry says. -/
theorem exists_package_of_ofNode {members : Members} (placed : placement = .package members) :
    ∃ pack, construct = .package pack ∧ pack.members = members := by
  subst placed
  cases kind <;>
    simp only [ofNode, ofPackageNode, bind_eq_ok_iff, pure_eq_ok_iff, throw_ne_ok] at read
  obtain ⟨name, -, imports, -, rfl⟩ := read
  exact ⟨_, rfl, rfl⟩

/-- What a package owns is what its entry was given. -/
theorem placement_of_package {pack : Package} (same : construct = .package pack) :
    placement = .package pack.members := by
  cases kind_of_ofNode read
  subst same
  cases placement with
  | package members =>
      obtain ⟨other, same, rfl⟩ := exists_package_of_ofNode read rfl
      cases same
      rfl
  | _ => simp [ofNode, ofTypeNode, ofMemberNode, kind] at read

end Construct

namespace Project

/-- A package has an id on its list for a kind. -/
def Owns (project : Project) (owner id : Nat) (kind : Kind) : Prop :=
  ∃ pack, project.construct? owner = some (.package pack) ∧ id ∈ pack.members.idsOf kind

section Loaded

variable {document : Node} {entries : List Entry} {constructs : List Construct}
  (reserved : Entry.ofDocument document = .ok entries)
  (read : entries.mapM (Entry.construct (Draft.ofEntries entries)) = .ok constructs)
include reserved read

omit reserved in
/-- Behind each construct of a loaded project stands the entry that spells it. -/
theorem exists_entry_of_construct? {id : Nat} {construct : Construct}
    (here : (ofConstructs document entries constructs).construct? id = some construct) :
    ∃ entry, entries[id]? = some entry ∧ construct.kind = entry.kind ∧
      Construct.ofNode (.ofEntries entries) entry.kind entry.placement entry.node =
        .ok (construct.withInstances []) := by
  have kind := kinds_of_construct? (linkable_ofConstructs read) here
  rw [Entry.kinds, List.getElem?_map, Option.map_eq_some_iff] at kind
  obtain ⟨entry, present, same⟩ := kind
  obtain ⟨other, there, spelled⟩ := exists_construct?_of_entry read present
  cases here.symm.trans there
  exact ⟨entry, present, same.symm, spelled⟩

/-- The lists of the packages hold what stands as a member. -/
theorem owns_iff {owner id : Nat} {kind : Kind} :
    (ofConstructs document entries constructs).Owns owner id kind ↔
      ∃ entry, entries[id]? = some entry ∧ entry.kind = kind ∧
        entry.placement = .member ⟨owner⟩ := by
  constructor
  · intro owns
    obtain ⟨pack, here, listed⟩ := owns
    obtain ⟨package, present, -, spelled⟩ := exists_entry_of_construct? read here
    have owned := Entry.ownedIn_of_ofDocument reserved present
    rw [Entry.OwnedIn, Construct.placement_of_package spelled rfl] at owned
    exact owned kind id listed
  · intro stands
    obtain ⟨entry, present, rfl, placed⟩ := stands
    have owned := Entry.ownedIn_of_ofDocument reserved present
    rw [Entry.OwnedIn, placed] at owned
    obtain ⟨package, members, packaged, owns, listed⟩ := owned
    obtain ⟨construct, here, spelled⟩ := exists_construct?_of_entry read packaged
    obtain ⟨pack, same, rfl⟩ := Construct.exists_package_of_ofNode spelled owns
    cases construct <;> cases same
    exact ⟨pack, here, listed⟩

/-- An id is owned by one package, and as one kind. -/
theorem owns_unique {owner other id : Nat} {kind otherKind : Kind}
    (owns : (ofConstructs document entries constructs).Owns owner id kind)
    (ownsToo : (ofConstructs document entries constructs).Owns other id otherKind) :
    other = owner ∧ otherKind = kind := by
  obtain ⟨entry, present, rfl, placed⟩ := (owns_iff reserved read).mp owns
  obtain ⟨same, presentToo, rfl, placedToo⟩ := (owns_iff reserved read).mp ownsToo
  cases present.symm.trans presentToo
  cases placed.symm.trans placedToo
  exact ⟨rfl, rfl⟩

/-- What is of a kind that packages own is a member of one of them. -/
theorem exists_owner_of_construct? {id : Nat} {construct : Construct}
    (here : (ofConstructs document entries constructs).construct? id = some construct)
    (member : construct.kind ∈ Allocation.memberLists.map Prod.snd) :
    ∃ owner, (ofConstructs document entries constructs).Owns owner id construct.kind := by
  obtain ⟨entry, present, same, -⟩ := exists_entry_of_construct? read here
  have suits := (Entry.standsIn_of_ofDocument reserved entry (List.mem_of_getElem? present)).suits
  rw [← same] at suits
  cases placed : entry.placement with
  | member owner =>
      exact ⟨owner.id, (owns_iff reserved read).mpr ⟨entry, present, same.symm, placed⟩⟩
  | topLevel =>
      rw [placed] at suits
      revert member suits
      cases construct.kind <;> simp [Placement.Suits, Allocation.memberLists, Allocation.typeLists]
  | package members =>
      rw [placed] at suits
      have unowned : Kind.package ∉ Allocation.memberLists.map Prod.snd := by decide
      exact absurd (suits ▸ member) unowned

end Loaded

/-- **Packages and members agree.** Each package was read from one of the packages of the document,
and its list for a kind holds the consecutive ids of the constructs that were read, in order, from
the list for the kind in that package. Every construct of a kind that packages own is once on one
list for its kind and on no other list of any package. And a declaration or a value that says it
belongs to a package is listed by that package alone. -/
theorem ownership_of_load {document : Node} {project : Project}
    (loaded : load document = .ok project) :
    (∀ id pack, project.construct? id = some (.package pack) →
      ∃ before package after, document.listed "packages" = before ++ package :: after ∧
        id = Stretch.total (document.stretchesOf Allocation.typeLists ++
          before.flatMap Node.packageStretches) ∧
        project.ReadFrom document id .package package ∧
        ∀ earlier field kind later, Allocation.memberLists = earlier ++ (field, kind) :: later →
          pack.members.idsOf kind =
            List.range' (id + 1 + Stretch.total (package.stretchesOf earlier))
              (package.listed field).length ∧
          ∀ (position : Nat) (node : Node), (package.listed field)[position]? = some node →
            project.ReadFrom document
              (id + 1 + Stretch.total (package.stretchesOf earlier) + position) kind node) ∧
    (∀ id construct, project.construct? id = some construct →
      construct.kind ∈ Allocation.memberLists.map Prod.snd →
      ∃ owner pack, project.construct? owner = some (.package pack) ∧
        (pack.members.idsOf construct.kind).count id = 1 ∧
        ∀ other kind, project.Owns other id kind → other = owner ∧ kind = construct.kind) ∧
    ∀ id construct owner, project.construct? id = some construct →
      construct.owner? = some owner →
      ∀ other kind, project.Owns other id kind ↔ other = owner.id ∧ kind = construct.kind := by
  obtain ⟨entries, constructs, -, reserved, read, rfl⟩ := load_eq_ok_iff.mp loaded
  obtain ⟨-, -, -, catalogued⟩ := Entry.reservedFor_of_ofDocument reserved
  have lists (id : Nat) (pack : Package)
      (here : (ofConstructs document entries constructs).construct? id = some (.package pack)) :
      ∃ before package after, document.listed "packages" = before ++ package :: after ∧
        id = Stretch.total (document.stretchesOf Allocation.typeLists ++
          before.flatMap Node.packageStretches) ∧
        (ofConstructs document entries constructs).ReadFrom document id .package package ∧
        pack.members = .ofFn (Entry.numbered (id + 1) (Entry.memberSizes package)) := by
    obtain ⟨entry, present, packaged, spelled⟩ := exists_entry_of_construct? read here
    have placed := Construct.placement_of_package spelled rfl
    obtain ⟨before, package, after, split, place, rfl, members⟩ :=
      Entry.package_of_ofDocument reserved present placed
    have source := readFrom_of_entry reserved read present
    rw [← packaged] at source
    exact ⟨before, entry.node, after, split, place, source, members⟩
  refine ⟨?_, ?_, ?_⟩
  · intro id pack here
    obtain ⟨before, package, after, split, place, source, members⟩ := lists id pack here
    refine ⟨before, package, after, split, place, source, ?_⟩
    intro earlier field kind later fields
    have member : kind ∈ Allocation.memberLists.map Prod.snd := by simp [fields]
    constructor
    · rw [members, Members.idsOf_ofFn member, Entry.numbered_memberSizes fields]
    · intro position node listed
      obtain ⟨entry, present, rfl, rfl⟩ := Entry.exists_of_stretch catalogued
        (Node.stretches_eq_of_split split fields) listed
      rw [Stretch.total_append, ← place, Stretch.total_cons, List.length_singleton,
        ← Nat.add_assoc] at present
      exact readFrom_of_entry reserved read present
  · intro id construct here member
    obtain ⟨owner, pack, owns, listed⟩ := exists_owner_of_construct? reserved read here member
    refine ⟨owner, pack, owns, ?_, ?_⟩
    · obtain ⟨before, package, after, -, -, -, members⟩ := lists owner pack owns
      rw [members, Members.idsOf_ofFn member] at listed ⊢
      obtain ⟨⟨field, kind⟩, inLists, same⟩ := List.mem_map.mp member
      obtain ⟨earlier, later, fields⟩ := List.append_of_mem inLists
      rw [← same, Entry.numbered_memberSizes fields] at listed ⊢
      exact List.count_eq_one_of_mem List.nodup_range' listed
    · exact fun other kind => owns_unique reserved read ⟨pack, owns, listed⟩
  · intro id construct owner here belongs other kind
    obtain ⟨entry, present, same, spelled⟩ := exists_entry_of_construct? read here
    rw [← Construct.owner?_withInstances []] at belongs
    have placed := Construct.placement_of_owner? spelled belongs
    have owns : (ofConstructs document entries constructs).Owns owner.id id construct.kind :=
      (owns_iff reserved read).mpr ⟨entry, present, same.symm, placed⟩
    constructor
    · exact owns_unique reserved read owns
    · rintro ⟨rfl, rfl⟩
      exact owns

/-- In the second package, the value comes behind one instance and lists that are empty, absent or
null. It says that it belongs to that package, which alone lists it. -/
theorem ownership_of_load_sample :
    load Sample.clients = .ok Sample.clientsProject ∧
      [8] = List.range' (6 + 1 + Stretch.total (Sample.client.stretchesOf
        (Allocation.memberLists.take 6))) (Sample.client.listed "values").length ∧
      Sample.clientsProject.ReadFrom Sample.clients 8 .value Sample.emptyList ∧
      ∀ other kind, Sample.clientsProject.Owns other 8 kind ↔ other = 6 ∧ kind = .value := by
  obtain ⟨lists, -, owners⟩ := ownership_of_load Sample.load_clients
  obtain ⟨before, package, after, split, place, -, members⟩ := lists 6 _ rfl
  have split : [Sample.package, Sample.client] = before ++ package :: after := split
  obtain ⟨listed, source⟩ := members (Allocation.memberLists.take 6) "values" .value [] rfl
  obtain ⟨rfl⟩ : Sample.client = package := by
    rcases before with _ | ⟨first, _ | ⟨second, rest⟩⟩
    · cases place
    · cases split
      rfl
    · simp at split
  exact ⟨Sample.load_clients, listed, source 0 Sample.emptyList rfl,
    owners 8 _ ⟨6⟩ rfl rfl⟩

end Project

end CodeGraph

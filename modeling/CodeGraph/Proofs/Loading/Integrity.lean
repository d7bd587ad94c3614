import CodeGraph.Proofs.Loading.Places
import CodeGraph.Proofs.Loading.TwoPasses

/-! # The references of a loaded project

Three mechanisms put references into a project: indices and keys resolve while entries are read,
the members of a package are numbered while they are reserved, and instances are added to their
declarations at the end. All of them keep to targets that are there and can play their roles, so a
loaded project is coherent (`CodeGraph.Project.coherent_of_load`).
-/

namespace CodeGraph

namespace Entry

section

variable {owner : Node} {outer : Path} {placement : Placement} {field : String} {kind : Kind}
variable {entries : List Entry} (read : readList owner outer placement field kind = .ok entries)
include read

/-- The entries of a list have the kind of the list. -/
theorem kind_of_readList : ∀ entry ∈ entries, entry.kind = kind := by
  intro entry member
  obtain ⟨items, position, node, -, -, readItem⟩ := exists_item_of_readList read entry member
  exact (ofNode_eq_ok readItem).1

/-- The entries of a list are placed alike. -/
theorem placement_of_readList : ∀ entry ∈ entries, entry.placement = placement := by
  intro entry member
  obtain ⟨items, position, node, -, -, readItem⟩ := exists_item_of_readList read entry member
  exact (ofNode_eq_ok readItem).2.1

end

/-- Of two lists that stand in a row, the second stands where the first one ends. -/
theorem prefix_drop_append {first second whole : List Entry} {start : Nat}
    (stands : first ++ second <+: whole.drop start) :
    first <+: whole.drop start ∧ second <+: whole.drop (start + first.length) := by
  obtain ⟨after, split⟩ := stands
  rw [List.append_assoc] at split
  constructor
  · exact ⟨second ++ after, split⟩
  · refine ⟨after, ?_⟩
    rw [← List.drop_drop, ← split, List.drop_left]

/-- Entries in a row from an id on have the ids that follow it. -/
theorem getElem?_of_prefix_drop {entries whole : List Entry} {id offset : Nat} {entry : Entry}
    (stands : entries <+: whole.drop id) (here : entries[offset]? = some entry) :
    whole[id + offset]? = some entry := by
  rw [← List.getElem?_drop]
  exact getElem?_of_grown stands here

/-- A reference to one of the entries in a row fits, if its role accepts the entry. -/
theorem fits_of_prefix_drop {entries whole : List Entry} {id offset : Nat} {entry : Entry}
    {ref : AnyRef} (stands : entries <+: whole.drop id) (same : ref.id = id + offset)
    (here : entries[offset]? = some entry) (accepts : ref.role.accepts entry.kind = true) :
    ref.Fits (kinds whole) := by
  refine ⟨entry.kind, ?_, accepts⟩
  rw [kinds, List.getElem?_map, same, getElem?_of_prefix_drop stands here, Option.map_some]

section Numbered

variable {kinds : List Kind} {lists : List (List Entry)}
  (same : List.Forall₂ (fun kind list => ∀ entry ∈ list, entry.kind = kind) kinds lists)
include same

/-- Under the numbers for a kind stand entries of the kind. -/
theorem exists_of_mem_numbered {first id : Nat} {kind : Kind}
    (member : id ∈ numbered first (kinds.zip (lists.map List.length)) kind) :
    ∃ offset entry, id = first + offset ∧ lists.flatten[offset]? = some entry ∧
      entry.kind = kind := by
  induction same generalizing first with
  | nil => cases member
  | @cons listKind list kinds lists atFirst _ ih =>
      rw [List.map_cons, List.zip_cons_cons, numbered] at member
      by_cases asked : listKind = kind
      · rw [if_pos asked, List.mem_range'_1] at member
        have inside : id - first < list.length := by omega
        refine ⟨id - first, list[id - first], by omega, ?_, ?_⟩
        · rw [List.flatten_cons, List.getElem?_append_left inside,
            List.getElem?_eq_getElem inside]
        · exact (atFirst _ (List.getElem_mem inside)).trans asked
      · rw [if_neg asked] at member
        obtain ⟨offset, entry, rfl, here, kind⟩ := ih member
        refine ⟨list.length + offset, entry, by omega, ?_, kind⟩
        rw [List.flatten_cons, List.getElem?_append_right (Nat.le_add_right _ _),
          Nat.add_sub_cancel_left, here]

end Numbered

section Members

variable {node : Node} {path : Path} {id : Nat} {lists : List (List Entry)}
  (read : Allocation.memberLists.mapM
    (fun (field, kind) => readList node path (.member ⟨id⟩) field kind) = .ok lists)
include read

/-- The members of each list have the kind of the list. -/
theorem kinds_of_readMembers :
    List.Forall₂ (fun kind list => ∀ entry ∈ list, entry.kind = kind)
      (Allocation.memberLists.map Prod.snd) lists :=
  List.forall₂_map_left_iff.mpr ((mapM_eq_ok_iff.mp read).imp fun _ _ => kind_of_readList)

/-- All members say that they belong to their package. -/
theorem placement_of_readMembers :
    ∀ entry ∈ lists.flatten, entry.placement = .member ⟨id⟩ := by
  intro entry member
  obtain ⟨list, inLists, member⟩ := List.mem_flatten.mp member
  obtain ⟨⟨field, kind⟩, -, readList⟩ := exists_item_of_mapM read inLists
  exact placement_of_readList readList entry member

end Members

/-- The references to numbered members are to the ids for their kinds. -/
theorem exists_kind_of_mem_refs {ids : Kind → List Nat} {ref : AnyRef}
    (listed : ref ∈ (Members.ofFn ids).refs) :
    ∃ kind, ref.role.accepts kind = true ∧ ref.id ∈ ids kind := by
  simp only [Members.refs, Members.ofFn, List.map_map, List.mem_append, List.mem_map] at listed
  rcases listed with (((((⟨id, listed, rfl⟩ | ⟨id, listed, rfl⟩) | ⟨id, listed, rfl⟩) |
    ⟨id, listed, rfl⟩) | ⟨id, listed, rfl⟩) | ⟨id, listed, rfl⟩) | ⟨id, listed, rfl⟩
  all_goals exact ⟨_, rfl, listed⟩

/-- The entries of a package and its members know where they stand: the members are the package's
own and the package's lists lead to them. -/
theorem readPackage_placed {id : Nat} {path : Path} {node : Node} {entries whole : List Entry}
    (read : readPackage id path node = .ok entries) (stands : entries <+: whole.drop id) :
    ∀ entry ∈ entries, ∀ ref ∈ entry.placement.refs, ref.Fits (kinds whole) := by
  simp only [readPackage, bind_eq_ok_iff, pure_eq_ok_iff] at read
  obtain ⟨package, readFirst, lists, readMembers, rfl⟩ := read
  intro entry member ref listed
  rcases List.mem_cons.mp member with rfl | member
  · obtain ⟨kind, accepts, numbered⟩ := exists_kind_of_mem_refs listed
    obtain ⟨offset, target, same, here, rfl⟩ :=
      exists_of_mem_numbered (kinds_of_readMembers readMembers) numbered
    have next : ref.id = id + (offset + 1) := by omega
    exact fits_of_prefix_drop stands next here accepts
  · rw [placement_of_readMembers readMembers entry member] at listed
    simp only [Placement.refs, List.mem_singleton] at listed
    subst listed
    have itself : (Role.only .package).accepts package.kind = true := by
      rw [(ofNode_eq_ok readFirst).1]
      rfl
    exact fits_of_prefix_drop stands (Nat.add_zero id).symm rfl itself

/-- What packages own, and what members belong to, fits the entries. -/
theorem readPackages_placed {nodes : List Node} {id position : Nat} {entries whole : List Entry}
    (read : readPackages id position nodes = .ok entries) (stands : entries <+: whole.drop id) :
    ∀ entry ∈ entries, ∀ ref ∈ entry.placement.refs, ref.Fits (kinds whole) := by
  induction nodes generalizing id position entries with
  | nil =>
      cases read
      simp
  | cons node rest ih =>
      simp only [readPackages, bind_eq_ok_iff, pure_eq_ok_iff] at read
      obtain ⟨first, readFirst, later, readLater, rfl⟩ := read
      obtain ⟨standsFirst, standsLater⟩ := prefix_drop_append stands
      intro entry member
      rcases List.mem_append.mp member with member | member
      · exact readPackage_placed readFirst standsFirst entry member
      · exact ih readLater standsLater entry member

/-- The references that the entries of a document get from where they stand fit the entries. -/
theorem placement_refs_fit {document : Node} {entries : List Entry}
    (reserved : ofDocument document = .ok entries) :
    ∀ entry ∈ entries, ∀ ref ∈ entry.placement.refs, ref.Fits (kinds entries) := by
  simp only [ofDocument, bind_eq_ok_iff, pure_eq_ok_iff] at reserved
  obtain ⟨lists, readLists, packages, -, owned, readOwned, rfl⟩ := reserved
  intro entry member
  rcases List.mem_append.mp member with member | member
  · obtain ⟨list, inLists, member⟩ := List.mem_flatten.mp member
    obtain ⟨⟨field, kind⟩, -, readList⟩ := exists_item_of_mapM readLists inLists
    rw [placement_of_readList readList entry member]
    simp [Placement.refs]
  · apply readPackages_placed readOwned _ entry member
    exact ⟨[], by rw [List.drop_left, List.append_nil]⟩

end Entry

/-- Constructs in a row every reference of which fits their kinds. -/
def Coherent (constructs : List Construct) : Prop :=
  ∀ construct ∈ constructs, ∀ ref ∈ construct.refs, ref.Fits (constructs.map Construct.kind)

namespace Construct

/-- What an instance points back to is one of its references. -/
theorem mem_refs_of_decl? {construct : Construct} {ref : AnyRef}
    (points : construct.decl? = some ref) : ref ∈ construct.refs := by
  cases construct <;> simp_all [decl?, refs]

/-- The one reference that a declaration gets with a new instance is that to the instance. -/
theorem mem_refs_addInstance {construct : Construct} {id : Nat} {ref : AnyRef}
    (stored : ref ∈ (construct.addInstance id).refs) :
    ref ∈ construct.refs ∨
      ∃ kind, construct.kind.instanceKind? = some kind ∧ ref = ⟨.only kind, id⟩ := by
  cases construct <;>
    simp_all [addInstance, withInstances, instanceIds, refs, kind, Kind.instanceKind?, Ref.any,
      Function.comp_def, ← or_assoc]

end Construct

section Link

variable {constructs : List Construct}

/-- Linking one id keeps the kinds and the references fitting. -/
theorem Project.linkInstance_coherent (coherent : Coherent constructs) (id : Nat) :
    (linkInstance constructs id).map Construct.kind = constructs.map Construct.kind ∧
      Coherent (linkInstance constructs id) := by
  unfold linkInstance
  cases pointed : declIdOf constructs id with
  | none => exact ⟨rfl, coherent⟩
  | some decl =>
      obtain ⟨inst, back, here, points, rfl⟩ := declIdOf_eq_some_iff.mp pointed
      have kept : (constructs.modify back.id (.addInstance id)).map Construct.kind =
          constructs.map Construct.kind :=
        map_kind_modify (fun construct => Construct.kind_withInstances _ construct) _ _
      refine ⟨kept, ?_⟩
      intro construct member ref stored
      rw [Option.elim_some, kept]
      obtain ⟨position, changed⟩ := List.getElem?_of_mem member
      rw [Option.elim_some, List.getElem?_modify] at changed
      obtain ⟨original, before, rfl⟩ := Option.map_eq_some_iff.mp changed
      have inArena := List.mem_of_getElem? before
      split at stored
      · rename_i same
        rcases Construct.mem_refs_addInstance stored with old | ⟨kind, generic, rfl⟩
        · exact coherent original inArena ref old
        · have fits := coherent inst (List.mem_of_getElem? here) back
            (Construct.mem_refs_of_decl? points)
          have there : (constructs.map Construct.kind)[back.id]? = some original.kind := by
            rw [List.getElem?_map, same, before, Option.map_some]
          have sort := Construct.instanceKind?_of_fits points fits there
          rw [generic, Option.some.injEq] at sort
          refine ⟨inst.kind, by rw [List.getElem?_map, here, Option.map_some], ?_⟩
          simp [Role.accepts, sort]
      · exact coherent original inArena ref stored

/-- Linking keeps the kinds of the constructs and keeps them coherent. -/
theorem Project.link_coherent (coherent : Coherent constructs) (tables : Tables (List Nat)) :
    (link tables constructs).map Construct.kind = constructs.map Construct.kind ∧
      Coherent (link tables constructs) := by
  unfold link
  induction tables.types ++ tables.methodInsts generalizing constructs with
  | nil => exact ⟨rfl, coherent⟩
  | cons id rest ih =>
      obtain ⟨kinds, linked⟩ := linkInstance_coherent coherent id
      obtain ⟨laterKinds, laterLinked⟩ := ih linked
      exact ⟨laterKinds.trans kinds, laterLinked⟩

end Link

namespace Project

/-- The kinds of the constructs of a project. -/
def kinds (project : Project) : List Kind := project.constructs.map Construct.kind

/-- A construct is found where the arena has one. -/
theorem construct_eq_ok_iff {project : Project} {id : Nat} {construct : Construct} :
    project.construct id = .ok construct ↔ project.construct? id = some construct :=
  entryAt_eq_ok_iff

/-- An id has the kind of its construct. -/
theorem kinds_eq_some_iff {project : Project} {id : Nat} {kind : Kind} :
    project.kinds[id]? = some kind ↔
      ∃ construct, project.construct? id = some construct ∧ construct.kind = kind := by
  rw [kinds, List.getElem?_map, Option.map_eq_some_iff]
  rfl

/-- An id with a construct is inside the arena. -/
theorem lt_size_of_construct? {project : Project} {id : Nat} {construct : Construct}
    (here : project.construct? id = some construct) : id < project.size :=
  (List.getElem?_eq_some_iff.mp here).choose

/-- A reference of a coherent project leads to a construct that can play its role. -/
theorem exists_target {project : Project} (coherent : Coherent project.constructs)
    {construct : Construct} (member : construct ∈ project.constructs) {ref : AnyRef}
    (stored : ref ∈ construct.refs) :
    ∃ target, project.construct? ref.id = some target ∧ ref.role.accepts target.kind = true := by
  obtain ⟨kind, present, accepts⟩ := coherent construct member ref stored
  obtain ⟨target, here, rfl⟩ := kinds_eq_some_iff.mp present
  exact ⟨target, here, accepts⟩

/-- A document that loads is an object whose entries can be reserved. -/
theorem exists_entries_of_load {document : Node} {project : Project}
    (loaded : load document = .ok project) :
    ∃ entries, document.shape = .object ∧ Entry.ofDocument document = .ok entries := by
  cases document with
  | object fields =>
      simp only [load, loadInOrder_by_entries, bind_eq_ok_iff] at loaded
      obtain ⟨-, -, entries, reserved, -⟩ := loaded
      exact ⟨entries, rfl, reserved⟩
  | _ => cases loaded

/-- A loaded project is made of the constructs that the entries of its document spell while no slot
is filled. -/
theorem load_eq_ok_iff {document : Node} {project : Project} :
    load document = .ok project ↔
      ∃ entries constructs, document.shape = .object ∧ Entry.ofDocument document = .ok entries ∧
        entries.mapM (Entry.construct (Draft.ofEntries entries)) = .ok constructs ∧
        ofConstructs document entries constructs = project := by
  constructor
  · intro loaded
    obtain ⟨entries, object, reserved⟩ := exists_entries_of_load loaded
    obtain ⟨-, constructs, read, made⟩ :=
      (loadInOrder_eq_ok_iff object reserved (by simp) (by simp)).mp loaded
    exact ⟨entries, constructs, object, reserved, read, made⟩
  · intro spelled
    rcases spelled with ⟨entries, constructs, object, reserved, read, made⟩
    exact (loadInOrder_eq_ok_iff object reserved (by simp) (by simp)).mpr
      ⟨.refl _, constructs, read, made⟩

/-- Constructs read from entries have the kinds of the entries and refer to each other only. -/
theorem coherent_of_mapM {document : Node} {entries : List Entry} {constructs : List Construct}
    (reserved : Entry.ofDocument document = .ok entries)
    (read : entries.mapM (Entry.construct (Draft.ofEntries entries)) = .ok constructs) :
    constructs.map Construct.kind = Entry.kinds entries ∧ Coherent constructs := by
  have kinds := Draft.kind_eq_of_mapM read
  refine ⟨kinds, ?_⟩
  intro construct member
  obtain ⟨entry, inEntries, spelled⟩ := exists_item_of_mapM read member
  simp only [Entry.construct, LoadResult.within_eq_ok_iff] at spelled
  rw [kinds, ← Draft.kinds_ofEntries]
  apply Construct.refs_of_ofNode ?_ spelled
  rw [Draft.kinds_ofEntries]
  exact Entry.placement_refs_fit reserved entry inEntries

/-- **A loaded project is coherent.** Every reference that one of its constructs stores leads to a
construct that can play the role, and every table lists constructs that belong there. -/
theorem coherent_of_load {document : Node} {project : Project}
    (loaded : load document = .ok project) :
    Coherent project.constructs ∧
      ∀ table, ∀ id ∈ project.table table,
        ∃ kind, project.kinds[id]? = some kind ∧ kind.table = table := by
  obtain ⟨entries, constructs, -, reserved, read, rfl⟩ := load_eq_ok_iff.mp loaded
  obtain ⟨kinds, coherent⟩ := coherent_of_mapM reserved read
  obtain ⟨linkedKinds, linked⟩ := link_coherent coherent (Draft.ofEntries entries).tables
  refine ⟨linked, ?_⟩
  intro table id listed
  have listed : id ∈ Entry.idsIn entries table := by
    simpa [Project.table, ofConstructs, Draft.ofEntries, Draft.compose] using listed
  simpa only [Project.kinds, ofConstructs, linkedKinds, kinds] using Entry.mem_idsIn_iff.mp listed

end Project

end CodeGraph

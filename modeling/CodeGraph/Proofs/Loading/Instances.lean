import CodeGraph.Proofs.Loading.Integrity
import Mathlib.Data.List.Induction
import Mathlib.Data.List.Nodup

/-! # The instances of declarations

Linking touches the lists of instances and nothing else. A declaration ends up with the instances
it had, followed by those among the linked ids that point back to it
(`CodeGraph.Project.getElem?_foldl_linkInstance`). Entries spell declarations without instances, so
in a loaded project the two directions agree (`CodeGraph.Project.linked_of_load`).
-/

namespace CodeGraph

namespace Construct

@[simp]
theorem withInstances_withInstances (ids before : List Nat) (construct : Construct) :
    (construct.withInstances before).withInstances ids = construct.withInstances ids := by
  cases construct <;> rfl

@[simp]
theorem withInstances_instanceIds (construct : Construct) :
    construct.withInstances construct.instanceIds = construct := by
  cases construct <;> simp [withInstances, instanceIds, Function.comp_def]

/-- An instance is added behind the others. -/
theorem addInstance_withInstances (id : Nat) (ids : List Nat) (construct : Construct) :
    (construct.withInstances ids).addInstance id = construct.withInstances (ids ++ [id]) := by
  cases construct <;> simp [addInstance, withInstances, instanceIds, Function.comp_def]

/-- A declaration has the instances that it was given. -/
theorem instanceIds_withInstances {construct : Construct}
    (generic : construct.kind.instanceKind?.isSome = true) (ids : List Nat) :
    (construct.withInstances ids).instanceIds = ids := by
  cases construct <;>
    simp_all [kind, Kind.instanceKind?, withInstances, instanceIds, Function.comp_def]

/-- What cannot have instances has none. -/
theorem instanceIds_eq_nil {construct : Construct}
    (other : construct.kind.instanceKind? = none) : construct.instanceIds = [] := by
  cases construct <;> simp_all [kind, Kind.instanceKind?, instanceIds]

/-- Entries spell declarations without instances. -/
theorem instanceIds_of_ofNode {draft : Draft} {kind : Kind} {placement : Placement} {node : Node}
    {construct : Construct} (read : ofNode draft kind placement node = .ok construct) :
    construct.instanceIds = [] := by
  cases kind_of_ofNode read
  cases construct with
  | interfaceDecl decl =>
      obtain ⟨owner, read⟩ := exists_owner_of_ofNode read (by simp [kind])
      simp only [ofMemberNode, kind, bind_eq_ok_iff, pure_eq_ok_iff] at read
      obtain ⟨header, -, interface, -, spelled⟩ := read
      cases spelled
      rfl
  | objectDecl decl =>
      obtain ⟨owner, read⟩ := exists_owner_of_ofNode read (by simp [kind])
      simp only [ofMemberNode, kind, bind_eq_ok_iff, pure_eq_ok_iff] at read
      obtain ⟨header, -, data, -, methods, -, spelled⟩ := read
      cases spelled
      rfl
  | methodDecl decl =>
      obtain ⟨owner, read⟩ := exists_owner_of_ofNode read (by simp [kind])
      simp only [ofMemberNode, kind, bind_eq_ok_iff, pure_eq_ok_iff] at read
      obtain ⟨header, -, signature, -, receiver, -, spelled⟩ := read
      cases spelled
      rfl
  | _ => rfl

end Construct

namespace Project

/-- **Linking many ids.** A declaration keeps the instances it has and gets those of the ids that
point back to it, in their order. Nothing else changes. -/
theorem getElem?_foldl_linkInstance (constructs : List Construct) (ids : List Nat)
    (position : Nat) :
    (ids.foldl linkInstance constructs)[position]? =
      constructs[position]?.map fun construct => construct.withInstances
        (construct.instanceIds ++ ids.filter fun id => declIdOf constructs id = some position) := by
  -- From the end of the list: the last id finds its declaration among constructs that are linked
  -- already, and linking does not change what they point back to.
  induction ids using List.reverseRecOn generalizing position with
  | nil => simp
  | append_singleton ids id ih =>
      have same : declIdOf (ids.foldl linkInstance constructs) id = declIdOf constructs id := by
        rw [declIdOf, declIdOf, ih]
        cases constructs[id]? <;> simp
      rw [List.foldl_append, List.foldl_cons, List.foldl_nil, linkInstance, same]
      cases pointed : declIdOf constructs id with
      | none => simp [ih, pointed]
      | some decl =>
          rw [Option.elim_some, List.getElem?_modify, ih, List.filter_append]
          by_cases here : decl = position
          · subst here
            simp [pointed, Construct.addInstance_withInstances, Function.comp_def]
          · simp [pointed, here]

end Project

/-- What points back to an id is of the kind that the construct there has instances of. -/
theorem Linkable.instanceKind?_of_declIdOf {kinds : List Kind} {constructs : List Construct}
    (linkable : Linkable kinds constructs) {id decl : Nat} {declKind : Kind}
    (pointed : declIdOf constructs id = some decl) (there : kinds[decl]? = some declKind) :
    ∃ construct, constructs[id]? = some construct ∧
      declKind.instanceKind? = some construct.kind := by
  obtain ⟨construct, ref, here, points, rfl⟩ := declIdOf_eq_some_iff.mp pointed
  have fits := linkable.declared construct (List.mem_of_getElem? here) ref points
  exact ⟨construct, here, Construct.instanceKind?_of_fits points fits there⟩

namespace Project

/-- Whether an id leads to an instance of a kind that points back to a declaration. -/
def isInstance (project : Project) (kind : Kind) (decl id : Nat) : Bool :=
  match project.construct? id with
  | some construct => construct.kind = kind ∧ construct.decl?.map AnyRef.id = some decl
  | none => false

/-- The instances that declarations list are those that point back to them. `filled` are the
constructs before they were linked. -/
structure Linked (project : Project) (filled : List Construct) : Prop where
  interfaceDecls : ∀ id decl, project.construct? id = some (.interfaceDecl decl) →
    decl.instances.map Ref.id =
        (project.table .types).filter (project.isInstance .interfaceInst id) ∧
      project.instancesOf id = .ok (decl.instances.map Ref.id)
  objectDecls : ∀ id decl, project.construct? id = some (.objectDecl decl) →
    decl.instances.map Ref.id = (project.table .types).filter (project.isInstance .objectInst id) ∧
      project.instancesOf id = .ok (decl.instances.map Ref.id)
  methodDecls : ∀ id decl, project.construct? id = some (.methodDecl decl) →
    decl.instances.map Ref.id =
        (project.table .methodInsts).filter (project.isInstance .methodInst id) ∧
      project.instancesOf id = .ok (decl.instances.map Ref.id)
  /-- Each instance is listed once, by its declaration. -/
  once : ∀ id construct ref, project.construct? id = some construct → construct.decl? = some ref →
    (∃ listed, project.instancesOf ref.id = .ok listed) ∧
      ∀ other listed, project.instancesOf other = .ok listed →
        listed.count id = if other = ref.id then 1 else 0
  /-- But for the lists of instances nothing has changed. -/
  frame : project.constructs.map (Construct.withInstances []) = filled

/-- The ids that are linked, in the order in which they are. -/
def linkedIds (entries : List Entry) : List Nat :=
  Entry.idsIn entries .types ++ Entry.idsIn entries .methodInsts

/-- Each id is linked once. -/
theorem nodup_linkedIds (entries : List Entry) : (linkedIds entries).Nodup := by
  have distinct (table : Table) : (Entry.idsIn entries table).Nodup :=
    (Entry.idsIn_ascending entries table).imp Nat.ne_of_lt
  refine List.nodup_append.mpr ⟨distinct .types, distinct .methodInsts, ?_⟩
  rintro id inTypes _ inMethodInsts rfl
  obtain ⟨kind, present, typed⟩ := Entry.mem_idsIn_iff.mp inTypes
  obtain ⟨same, presentToo, generic⟩ := Entry.mem_idsIn_iff.mp inMethodInsts
  cases present.symm.trans presentToo
  cases typed.symm.trans generic

/-- Every instance is linked. -/
theorem mem_linkedIds {entries : List Entry} {id : Nat} {kind declKind : Kind}
    (present : (Entry.kinds entries)[id]? = some kind)
    (generic : declKind.instanceKind? = some kind) : id ∈ linkedIds entries := by
  have listed : id ∈ Entry.idsIn entries kind.table :=
    Entry.mem_idsIn_iff.mpr ⟨kind, present, rfl⟩
  cases declKind <;> cases generic
  · exact List.mem_append_left _ listed
  · exact List.mem_append_left _ listed
  · exact List.mem_append_right _ listed

section Tables

variable {project : Project} {entries : List Entry}
  (linkable : Linkable (Entry.kinds entries) project.constructs)
include linkable

/-- Constructs have the kinds that their entries are reserved for. -/
theorem kinds_of_construct? {id : Nat} {construct : Construct}
    (here : project.construct? id = some construct) :
    (Entry.kinds entries)[id]? = some construct.kind := by
  rw [← linkable.kind_eq, List.getElem?_map]
  exact congrArg (Option.map Construct.kind) here

/-- What points back to a declaration are the instances of its kind that do. -/
theorem declIdOf_eq_iff {id inst : Nat} {construct : Construct} {kind : Kind}
    (here : project.construct? id = some construct)
    (generic : construct.kind.instanceKind? = some kind) :
    declIdOf project.constructs inst = some id ↔ project.isInstance kind id inst = true := by
  constructor
  · intro points
    obtain ⟨other, there, same⟩ :=
      linkable.instanceKind?_of_declIdOf points (kinds_of_construct? linkable here)
    have found : project.construct? inst = some other := there
    rw [generic, Option.some.injEq] at same
    rw [declIdOf, there, Option.bind_some] at points
    rw [isInstance, found]
    simp [same, points]
  · intro isOne
    unfold isInstance at isOne
    split at isOne
    · rename_i other found
      have there : project.constructs[inst]? = some other := found
      rw [declIdOf, there, Option.bind_some]
      exact (of_decide_eq_true isOne).2
    · cases isOne

/-- The instances of a kind are listed in the table of the kind alone. -/
theorem filter_isInstance_eq_nil {kind : Kind} {decl : Nat} (table : Table)
    (other : table ≠ kind.table) :
    (Entry.idsIn entries table).filter (project.isInstance kind decl) = [] := by
  rw [List.filter_eq_nil_iff]
  intro inst listed isOne
  obtain ⟨actual, present, typed⟩ := Entry.mem_idsIn_iff.mp listed
  obtain ⟨construct, here, rfl⟩ := linkable.exists_construct present
  have found : project.construct? inst = some construct := here
  rw [isInstance, found, decide_eq_true_eq] at isOne
  rw [isOne.1] at typed
  exact other typed.symm

/-- What points back to a declaration are the instances in one table that do. -/
theorem filter_declIdOf_eq {id : Nat} {construct : Construct} {kind : Kind}
    (here : project.construct? id = some construct)
    (generic : construct.kind.instanceKind? = some kind) :
    (linkedIds entries).filter (fun inst => declIdOf project.constructs inst = some id) =
      (Entry.idsIn entries kind.table).filter (project.isInstance kind id) := by
  have same : (fun inst => decide (declIdOf project.constructs inst = some id)) =
      project.isInstance kind id := by
    funext inst
    exact Bool.eq_iff_iff.mpr
      (decide_eq_true_iff.trans (declIdOf_eq_iff linkable here generic))
  rw [same, linkedIds, List.filter_append]
  cases declKind : construct.kind <;> rw [declKind] at generic <;> cases generic
  · rw [filter_isInstance_eq_nil linkable .methodInsts (by decide), List.append_nil]
    rfl
  · rw [filter_isInstance_eq_nil linkable .methodInsts (by decide), List.append_nil]
    rfl
  · rw [filter_isInstance_eq_nil linkable .types (by decide), List.nil_append]
    rfl

/-- Nothing points back to what cannot have instances. -/
theorem filter_declIdOf_eq_nil {id : Nat} {construct : Construct}
    (here : project.construct? id = some construct)
    (other : construct.kind.instanceKind? = none) :
    (linkedIds entries).filter (fun inst => declIdOf project.constructs inst = some id) = [] := by
  rw [List.filter_eq_nil_iff]
  intro inst _ points
  obtain ⟨_, -, same⟩ := linkable.instanceKind?_of_declIdOf (of_decide_eq_true points)
    (kinds_of_construct? linkable here)
  rw [other] at same
  cases same

end Tables

section Linked

variable {document : Node} {entries : List Entry} {constructs : List Construct}
  (read : entries.mapM (Entry.construct (Draft.ofEntries entries)) = .ok constructs)
include read

/-- What entries spell has no instances yet. -/
theorem instanceIds_of_mapM : ∀ construct ∈ constructs, construct.instanceIds = [] := by
  intro construct member
  obtain ⟨entry, -, spelled⟩ := exists_item_of_mapM read member
  exact Construct.instanceIds_of_ofNode (LoadResult.within_eq_ok_iff.mp spelled)

/-- A loaded project is fit for linking, and remains so. -/
theorem linkable_ofConstructs :
    Linkable (Entry.kinds entries) (ofConstructs document entries constructs).constructs :=
  (Draft.linkable_of_mapM read).foldl_linkInstance _

/-- In a loaded project a construct is what its entry spells, with the ids that point back to it as
its instances. -/
theorem construct?_ofConstructs (id : Nat) :
    (ofConstructs document entries constructs).construct? id =
      constructs[id]?.map fun construct => construct.withInstances
        ((linkedIds entries).filter fun inst => declIdOf constructs inst = some id) := by
  refine (getElem?_foldl_linkInstance constructs (linkedIds entries) id).trans ?_
  cases here : constructs[id]? with
  | none => rfl
  | some construct =>
      rw [Option.map_some, Option.map_some,
        instanceIds_of_mapM read construct (List.mem_of_getElem? here), List.nil_append]

/-- Linking does not change what an id points back to. -/
theorem declIdOf_ofConstructs (id : Nat) :
    declIdOf (ofConstructs document entries constructs).constructs id =
      declIdOf constructs id := by
  have here : (ofConstructs document entries constructs).constructs[id]? = _ :=
    construct?_ofConstructs read id
  rw [declIdOf, declIdOf, here]
  cases constructs[id]? <;> simp

/-- A construct lists the ids that point back to it. -/
theorem instanceIds_eq {id : Nat} {construct : Construct}
    (here : (ofConstructs document entries constructs).construct? id = some construct) :
    construct.instanceIds = (linkedIds entries).filter fun inst =>
      declIdOf (ofConstructs document entries constructs).constructs inst = some id := by
  cases generic : construct.kind.instanceKind? with
  | none =>
      rw [Construct.instanceIds_eq_nil generic,
        filter_declIdOf_eq_nil (linkable_ofConstructs read) here generic]
  | some kind =>
      simp only [declIdOf_ofConstructs read]
      rw [construct?_ofConstructs read, Option.map_eq_some_iff] at here
      obtain ⟨original, -, rfl⟩ := here
      apply Construct.instanceIds_withInstances
      rw [Construct.kind_withInstances] at generic
      simp [generic]

/-- A declaration lists the instances in one table that point back to it. -/
theorem instanceIds_eq_filter {id : Nat} {construct : Construct} {kind : Kind}
    (here : (ofConstructs document entries constructs).construct? id = some construct)
    (generic : construct.kind.instanceKind? = some kind) :
    construct.instanceIds = ((ofConstructs document entries constructs).table kind.table).filter
      ((ofConstructs document entries constructs).isInstance kind id) := by
  have inTable : (ofConstructs document entries constructs).table kind.table =
      Entry.idsIn entries kind.table := Draft.table_ofEntries entries kind.table
  rw [instanceIds_eq read here, inTable]
  exact filter_declIdOf_eq (linkable_ofConstructs read) here generic

/-- Forgetting the instances of declarations undoes linking. -/
theorem map_withInstances_ofConstructs :
    (ofConstructs document entries constructs).constructs.map (Construct.withInstances []) =
      constructs := by
  apply List.ext_getElem?
  intro id
  have here : (ofConstructs document entries constructs).constructs[id]? = _ :=
    construct?_ofConstructs read id
  rw [List.getElem?_map, here]
  cases there : constructs[id]? with
  | none => rfl
  | some construct =>
      have bare := instanceIds_of_mapM read construct (List.mem_of_getElem? there)
      rw [Option.map_some, Option.map_some, Construct.withInstances_withInstances, ← bare,
        Construct.withInstances_instanceIds]

omit read in
/-- The instances that can be asked for are those that the construct lists. -/
theorem instancesOf_eq {project : Project} {id : Nat} {construct : Construct}
    (here : project.construct? id = some construct) :
    project.instancesOf id = .ok construct.instanceIds := by
  rw [instancesOf, construct_eq_ok_iff.mpr here]
  cases construct <;> rfl

/-- An instance is listed once by its declaration and by nothing else. -/
theorem count_instancesOf {id other : Nat} {listed : List Nat} {construct : Construct}
    {ref : AnyRef}
    (here : (ofConstructs document entries constructs).construct? id = some construct)
    (points : construct.decl? = some ref)
    (asked : (ofConstructs document entries constructs).instancesOf other = .ok listed) :
    listed.count id = if other = ref.id then 1 else 0 := by
  have linkable : Linkable _ (ofConstructs document entries constructs).constructs :=
    linkable_ofConstructs read
  have pointed : declIdOf (ofConstructs document entries constructs).constructs id =
      some ref.id := by
    rw [declIdOf_of_getElem? here, points, Option.map_some]
  have list : listed = (linkedIds entries).filter fun inst =>
      declIdOf (ofConstructs document entries constructs).constructs inst = some other := by
    obtain ⟨target, found, -⟩ := bind_eq_ok_iff.mp asked
    have found := construct_eq_ok_iff.mp found
    cases asked.symm.trans (instancesOf_eq found)
    exact instanceIds_eq read found
  rw [list]
  split
  · rename_i same
    subst same
    rw [List.count_filter (by simp [pointed])]
    obtain ⟨declKind, -, generic⟩ := Construct.instanceKind?_of_decl? points
    exact List.count_eq_one_of_mem (nodup_linkedIds entries)
      (mem_linkedIds (kinds_of_construct? linkable here) generic)
  · rename_i different
    apply List.count_eq_zero.mpr
    intro member
    have points := of_decide_eq_true (List.mem_filter.mp member).2
    rw [pointed, Option.some.injEq] at points
    exact different points.symm

end Linked

/-- A declaration of a loaded project lists the instances in one table that point back to it. -/
theorem instanceIds_of_load {document : Node} {project : Project}
    (loaded : load document = .ok project) {id : Nat} {construct : Construct} {kind : Kind}
    (here : project.construct? id = some construct)
    (generic : construct.kind.instanceKind? = some kind) :
    construct.instanceIds = (project.table kind.table).filter (project.isInstance kind id) := by
  obtain ⟨entries, constructs, -, -, read, rfl⟩ := load_eq_ok_iff.mp loaded
  exact instanceIds_eq_filter read here generic

/-- **Declarations and instances agree in a loaded project.** Each declaration lists the instances
that point back to it, in the order of their table. But for these lists, the constructs are those
that the second pass filled in. -/
theorem linked_of_load {document : Node} {project : Project}
    (loaded : load document = .ok project) :
    ∃ allocation draft filled, Allocation.ofDocument document = .ok allocation ∧
      (List.range allocation.pending.length).foldlM (Draft.fillPending allocation.pending)
        allocation.compose = .ok draft ∧
      draft.slots = filled.map .filled ∧ project.Linked filled := by
  obtain ⟨entries, constructs, -, reserved, read, rfl⟩ := load_eq_ok_iff.mp loaded
  have allocated := Allocation.ofDocument_eq_ok_iff.mpr ⟨entries, reserved, rfl⟩
  have inside : ∀ position ∈ List.range entries.length, position < entries.length := by simp
  obtain ⟨values, readAll⟩ := exists_mapM_eq_ok fun position member =>
    Draft.exists_constructAt read (inside position member)
  obtain ⟨draft, run, filled⟩ := (Draft.Filled.empty entries).run_ok inside List.nodup_range
    (by simp) readAll
  obtain ⟨spelled, readAgain, slots⟩ := filled.slots_eq (by simp)
  cases read.symm.trans readAgain
  refine ⟨_, draft, constructs, allocated, by simpa using run, slots, ?_, ?_, ?_, ?_, ?_⟩
  · exact fun id decl here => ⟨instanceIds_eq_filter read here rfl, instancesOf_eq here⟩
  · exact fun id decl here => ⟨instanceIds_eq_filter read here rfl, instancesOf_eq here⟩
  · exact fun id decl here => ⟨instanceIds_eq_filter read here rfl, instancesOf_eq here⟩
  · intro id construct ref here points
    have linkable : Linkable _ (ofConstructs document entries constructs).constructs :=
      linkable_ofConstructs read
    obtain ⟨kind, present, -⟩ := linkable.declared construct (List.mem_of_getElem? here) ref points
    obtain ⟨target, there, -⟩ := linkable.exists_construct present
    exact ⟨⟨_, instancesOf_eq there⟩, fun other listed => count_instancesOf read here points⟩
  · exact map_withInstances_ofConstructs read

/-- The generic list of the sample lists its one instance, which no other declaration lists. -/
theorem linked_of_load_sample :
    load Sample.document = .ok Sample.project ∧
      [5] = (Sample.project.table .types).filter (Sample.project.isInstance .objectInst 4) ∧
      Sample.project.instancesOf 4 = .ok [5] ∧
      ∃ filled, Sample.project.Linked filled := by
  obtain ⟨-, -, filled, -, -, -, linked⟩ := linked_of_load Sample.load_document
  obtain ⟨listed, asked⟩ := linked.objectDecls 4 _ rfl
  exact ⟨Sample.load_document, listed, asked, filled, linked⟩

end Project

end CodeGraph

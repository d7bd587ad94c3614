import CodeGraph.Proofs.Loading.Arena

/-! # Linking instances to their declarations

The last step of loading visits the instances that the tables list and adds each of them to the
declaration that it points back to. It works on a draft whose slots are all filled, and asks for
data that might be missing or of another kind. Here the same step is a function on constructs
(`CodeGraph.Project.link`). Where the declarations of all instances are there, the draft's step
does not fail and does what the function does (`CodeGraph.Draft.link_filledWith`).
-/

namespace CodeGraph

/-- The kind of the instances of a declaration; no other construct has instances. -/
def Kind.instanceKind? : Kind → Option Kind
  | interfaceDecl => some .interfaceInst
  | objectDecl => some .objectInst
  | methodDecl => some .methodInst
  | _ => none

namespace Construct

/-- The reference from an instance back to its declaration. -/
def decl? : Construct → Option AnyRef
  | interfaceInst inst => some inst.decl.any
  | objectInst inst => some inst.decl.any
  | methodInst inst => some inst.decl.any
  | _ => none

/-- The ids of the instances that a declaration lists; nothing else lists instances. -/
def instanceIds : Construct → List Nat
  | interfaceDecl decl => decl.instances.map Ref.id
  | objectDecl decl => decl.instances.map Ref.id
  | methodDecl decl => decl.instances.map Ref.id
  | _ => []

/-- A declaration with other instances. -/
def withInstances (ids : List Nat) : Construct → Construct
  | interfaceDecl decl => interfaceDecl { decl with instances := ids.map Ref.mk }
  | objectDecl decl => objectDecl { decl with instances := ids.map Ref.mk }
  | methodDecl decl => methodDecl { decl with instances := ids.map Ref.mk }
  | construct => construct

/-- A declaration with one more instance. -/
def addInstance (id : Nat) (construct : Construct) : Construct :=
  construct.withInstances (construct.instanceIds ++ [id])

@[simp]
theorem kind_withInstances (ids : List Nat) (construct : Construct) :
    (construct.withInstances ids).kind = construct.kind := by
  cases construct <;> rfl

@[simp]
theorem decl?_withInstances (ids : List Nat) (construct : Construct) :
    (construct.withInstances ids).decl? = construct.decl? := by
  cases construct <;> rfl

/-- An instance is added to the list of an interface. -/
theorem addInstance_interfaceDecl (id : Nat) (decl : InterfaceDecl) :
    (interfaceDecl decl).addInstance id = interfaceDecl (decl.addInstance ⟨id⟩) := by
  simp [addInstance, withInstances, instanceIds, InterfaceDecl.addInstance, Function.comp_def]

/-- An instance is added to the list of an object. -/
theorem addInstance_objectDecl (id : Nat) (decl : ObjectDecl) :
    (objectDecl decl).addInstance id = objectDecl (decl.addInstance ⟨id⟩) := by
  simp [addInstance, withInstances, instanceIds, ObjectDecl.addInstance, Function.comp_def]

/-- An instance is added to the list of a method. -/
theorem addInstance_methodDecl (id : Nat) (decl : MethodDecl) :
    (methodDecl decl).addInstance id = methodDecl (decl.addInstance ⟨id⟩) := by
  simp [addInstance, withInstances, instanceIds, MethodDecl.addInstance, Function.comp_def]

/-- An instance points back to a declaration of its own sort. -/
theorem instanceKind?_of_decl? {construct : Construct} {ref : AnyRef}
    (points : construct.decl? = some ref) :
    ∃ declKind, ref.role = .only declKind ∧ declKind.instanceKind? = some construct.kind := by
  cases construct with
  | interfaceInst inst =>
      cases points
      exact ⟨.interfaceDecl, rfl, rfl⟩
  | objectInst inst =>
      cases points
      exact ⟨.objectDecl, rfl, rfl⟩
  | methodInst inst =>
      cases points
      exact ⟨.methodDecl, rfl, rfl⟩
  | _ => cases points

/-- What an instance points back to has instances of its kind, if the reference fits. -/
theorem instanceKind?_of_fits {construct : Construct} {ref : AnyRef} {kinds : List Kind}
    {declKind : Kind} (points : construct.decl? = some ref) (fits : ref.Fits kinds)
    (there : kinds[ref.id]? = some declKind) :
    declKind.instanceKind? = some construct.kind := by
  obtain ⟨kind, present, accepts⟩ := fits
  obtain ⟨expected, role, generic⟩ := instanceKind?_of_decl? points
  cases there.symm.trans present
  rw [role, Role.accepts, decide_eq_true_eq] at accepts
  rw [accepts, generic]

/-- A construct of a kind holds data of that kind. -/
theorem exists_data_of_kind {construct : Construct} {kind : Kind} (same : construct.kind = kind) :
    ∃ data, construct = ofData kind data := by
  subst same
  exact ⟨construct.data, construct.ofData_data.symm⟩

/-- What is a member of packages alone was read as the member of one. -/
theorem exists_owner_of_ofNode {draft : Draft} {kind : Kind} {placement : Placement} {node : Node}
    {construct : Construct} (read : ofNode draft kind placement node = .ok construct)
    (member : kind ∈ [.interfaceDecl, .interfaceInst, .objectDecl, .objectInst, .methodDecl,
      .methodInst, .value]) :
    ∃ owner, ofMemberNode draft kind owner node = .ok construct := by
  cases placement with
  | topLevel => cases kind <;> simp_all [ofNode, ofTypeNode]
  | member owner => exact ⟨owner, read⟩
  | package members => cases kind <;> simp_all [ofNode, ofPackageNode]

/-- An instance that is read over a draft points back to a declaration of its own sort. -/
theorem decl_fits_of_ofNode {draft : Draft} {kind : Kind} {placement : Placement} {node : Node}
    {construct : Construct} (read : ofNode draft kind placement node = .ok construct) :
    ∀ ref ∈ construct.decl?, ref.Fits draft.kinds := by
  intro ref pointed
  cases kind_of_ofNode read
  cases construct with
  | interfaceInst inst =>
      cases pointed
      obtain ⟨owner, read⟩ := exists_owner_of_ofNode read (by simp [kind])
      simp only [ofMemberNode, kind, bind_eq_ok_iff, pure_eq_ok_iff] at read
      obtain ⟨decl, readDecl, types, -, resolved, -, spelled⟩ := read
      cases spelled
      exact Draft.readIndex_fits readDecl
  | objectInst inst =>
      cases pointed
      obtain ⟨owner, read⟩ := exists_owner_of_ofNode read (by simp [kind])
      simp only [ofMemberNode, kind, bind_eq_ok_iff, pure_eq_ok_iff] at read
      obtain ⟨decl, readDecl, types, -, resolved, -, methods, -, spelled⟩ := read
      cases spelled
      exact Draft.readIndex_fits readDecl
  | methodInst inst =>
      cases pointed
      obtain ⟨owner, read⟩ := exists_owner_of_ofNode read (by simp [kind])
      simp only [ofMemberNode, kind, bind_eq_ok_iff, pure_eq_ok_iff] at read
      obtain ⟨decl, readDecl, types, -, resolved, -, receiver, -, spelled⟩ := read
      cases spelled
      exact Draft.readKey_fits readDecl
  | _ => cases pointed

end Construct

/-- Changing what stands at a position puts the changed item there. -/
theorem modify_of_getElem? {α : Type} {items : List α} {position : Nat} {item : α} {f : α → α}
    (here : items[position]? = some item) :
    items.modify position f = items.set position (f item) := by
  rw [List.modify_eq_set_getElem?, here]
  rfl

/-- A change that keeps kinds keeps those of a whole arena. -/
theorem map_kind_modify {change : Construct → Construct}
    (kind_eq : ∀ construct, (change construct).kind = construct.kind)
    (constructs : List Construct) (id : Nat) :
    (constructs.modify id change).map Construct.kind = constructs.map Construct.kind := by
  apply List.ext_getElem?
  intro position
  simp only [List.getElem?_map, List.getElem?_modify]
  split <;> cases constructs[position]? <;> simp [kind_eq]

/-- The id of the declaration that the construct with an id points back to, if it is an instance. -/
def declIdOf (constructs : List Construct) (id : Nat) : Option Nat :=
  (constructs[id]?.bind Construct.decl?).map AnyRef.id

/-- What an id points back to is told by its construct. -/
theorem declIdOf_of_getElem? {constructs : List Construct} {id : Nat} {construct : Construct}
    (here : constructs[id]? = some construct) :
    declIdOf constructs id = construct.decl?.map AnyRef.id := by
  rw [declIdOf, here, Option.bind_some]

/-- An id points back to a declaration if its construct has a reference to it. -/
theorem declIdOf_eq_some_iff {constructs : List Construct} {id decl : Nat} :
    declIdOf constructs id = some decl ↔
      ∃ construct ref, constructs[id]? = some construct ∧ construct.decl? = some ref ∧
        ref.id = decl := by
  simp only [declIdOf, Option.map_eq_some_iff, Option.bind_eq_some_iff]
  constructor
  · rintro ⟨ref, ⟨construct, here, points⟩, same⟩
    exact ⟨construct, ref, here, points, same⟩
  · rintro ⟨construct, ref, here, points, same⟩
    exact ⟨ref, ⟨construct, here, points⟩, same⟩

namespace Project

/-- Adds the construct with an id to its declaration, if it is an instance. -/
def linkInstance (constructs : List Construct) (id : Nat) : List Construct :=
  (declIdOf constructs id).elim constructs fun decl => constructs.modify decl (.addInstance id)

/-- Adds every instance that the tables list to its declaration. -/
def link (tables : Tables (List Nat)) (constructs : List Construct) : List Construct :=
  (tables.types ++ tables.methodInsts).foldl linkInstance constructs

end Project

/-- Constructs of the given kinds whose instances point back to declarations of their own sort. -/
structure Linkable (kinds : List Kind) (constructs : List Construct) : Prop where
  kind_eq : constructs.map Construct.kind = kinds
  declared : ∀ construct ∈ constructs, ∀ ref ∈ construct.decl?, ref.Fits kinds

namespace Linkable

variable {kinds : List Kind} {constructs : List Construct} (linkable : Linkable kinds constructs)
include linkable

/-- There is a construct behind each kind. -/
theorem exists_construct {kind : Kind} {id : Nat} (present : kinds[id]? = some kind) :
    ∃ construct, constructs[id]? = some construct ∧ construct.kind = kind := by
  rwa [← linkable.kind_eq, List.getElem?_map, Option.map_eq_some_iff] at present

/-- The declaration that an instance points back to is there. -/
theorem exists_decl {id declId : Nat} {declKind : Kind} {construct : Construct}
    (here : constructs[id]? = some construct)
    (pointed : construct.decl? = some ⟨.only declKind, declId⟩) :
    ∃ decl, constructs[declId]? = some (.ofData declKind decl) := by
  obtain ⟨kind, present, accepts⟩ :=
    linkable.declared construct (List.mem_of_getElem? here) _ pointed
  obtain ⟨decl, there, rfl⟩ := linkable.exists_construct present
  have same : decl.kind = declKind := by simpa [Role.accepts] using accepts
  obtain ⟨data, rfl⟩ := Construct.exists_data_of_kind same
  exact ⟨data, there⟩

/-- A change that keeps kinds and leaves instances with their declarations. -/
theorem modify {change : Construct → Construct}
    (kind_eq : ∀ construct, (change construct).kind = construct.kind)
    (decl_eq : ∀ construct, (change construct).decl? = construct.decl?) (id : Nat) :
    Linkable kinds (constructs.modify id change) where
  kind_eq := by
    rw [map_kind_modify kind_eq, linkable.kind_eq]
  declared := by
    intro construct member
    obtain ⟨position, here⟩ := List.getElem?_of_mem member
    rw [List.getElem?_modify] at here
    obtain ⟨original, there, rfl⟩ := Option.map_eq_some_iff.mp here
    have declared := linkable.declared original (List.mem_of_getElem? there)
    split
    · simpa only [decl_eq] using declared
    · exact declared

/-- Linking one id keeps constructs fit for linking. -/
theorem linkInstance (id : Nat) : Linkable kinds (Project.linkInstance constructs id) := by
  unfold Project.linkInstance
  cases declIdOf constructs id with
  | none => exact linkable
  | some decl =>
      exact linkable.modify (fun _ => Construct.kind_withInstances _ _)
        (fun _ => Construct.decl?_withInstances _ _) decl

/-- Linking many ids keeps constructs fit for linking. -/
theorem foldl_linkInstance (ids : List Nat) :
    Linkable kinds (ids.foldl Project.linkInstance constructs) := by
  induction ids generalizing constructs with
  | nil => exact linkable
  | cons id rest ih => exact ih (linkable.linkInstance id)

end Linkable

namespace Draft

variable {draft : Draft} {kinds : List Kind} {constructs : List Construct}

/-- A draft whose slots are filled with the given constructs. -/
def filledWith (draft : Draft) (constructs : List Construct) : Draft :=
  { draft with slots := constructs.map .filled }

/-- A filled draft has the kinds of its constructs. -/
theorem kinds_filledWith : (draft.filledWith constructs).kinds = constructs.map Construct.kind := by
  simp [filledWith, Draft.kinds, Function.comp_def, Slot.kind]

/-- A filled draft holds the data of its constructs. -/
theorem data_filledWith {kind : Kind} {ref : Ref (.only kind)} {data : kind.Data}
    (here : constructs[ref.id]? = some (.ofData kind data)) :
    (draft.filledWith constructs).data ref = .ok data := by
  have slot :
      (draft.filledWith constructs).slots[ref.id]? = some (.filled (.ofData kind data)) := by
    simp [filledWith, here]
  simp only [Draft.data, construct, entryAt_eq_ok_iff.mpr slot, LoadResult.liftBounds_ok, ok_bind]
  simp [pure, Except.pure, Construct.data?_ofData]

/-- Changing data in a filled draft changes its construct. -/
theorem update_filledWith {kind : Kind} {ref : Ref (.only kind)} {data : kind.Data}
    (here : constructs[ref.id]? = some (.ofData kind data)) (change : kind.Data → kind.Data) :
    (draft.filledWith constructs).update ref change =
      .ok (draft.filledWith (constructs.set ref.id (.ofData kind (change data)))) := by
  rw [update, data_filledWith here]
  simp [filledWith, pure, Except.pure, List.map_set]

/-- Linking an instance looks it up, follows it to its declaration and adds it there. -/
theorem linkTo_filledWith (linkable : Linkable kinds constructs) {instKind declKind : Kind}
    {inst : Ref (.only instKind)} {declOf : instKind.Data → Ref (.only declKind)}
    {addInstance : Ref (.only instKind) → declKind.Data → declKind.Data} {data : instKind.Data}
    (here : constructs[inst.id]? = some (.ofData instKind data))
    (points : (Construct.ofData instKind data).decl? = some (declOf data).any)
    (adds : ∀ decl, (Construct.ofData declKind decl).addInstance inst.id =
      .ofData declKind (addInstance inst decl)) :
    (draft.filledWith constructs).linkTo inst declOf addInstance =
      .ok (draft.filledWith (Project.linkInstance constructs inst.id)) := by
  obtain ⟨decl, there⟩ := linkable.exists_decl here points
  have linked : Project.linkInstance constructs inst.id =
      constructs.set (declOf data).id (.ofData declKind (addInstance inst decl)) := by
    rw [Project.linkInstance, declIdOf_of_getElem? here, points, Option.map_some, Option.elim_some,
      ← adds decl]
    exact modify_of_getElem? there
  rw [linkTo, data_filledWith here, ok_bind, update_filledWith there, linked]

/-- In a filled draft, linking an instance of a method adds it to its declaration. -/
theorem linkMethodInst_filledWith (linkable : Linkable kinds constructs) {id : Nat}
    {inst : MethodInst} (here : constructs[id]? = some (.methodInst inst)) :
    (draft.filledWith constructs).linkMethodInst ⟨id⟩ =
      .ok (draft.filledWith (Project.linkInstance constructs id)) :=
  linkTo_filledWith linkable here rfl (Construct.addInstance_methodDecl id)

/-- A draft whose slots are filled links a type as its constructs do. -/
theorem linkType_filledWith (linkable : Linkable kinds constructs) {id : Nat} {kind : Kind}
    (present : kinds[id]? = some kind) (typed : kind.table = .types) :
    (draft.filledWith constructs).linkType id =
      .ok (draft.filledWith (Project.linkInstance constructs id)) := by
  obtain ⟨construct, here, rfl⟩ := linkable.exists_construct present
  have known : (draft.filledWith constructs).kind id = .ok construct.kind := by
    rw [kind_eq_ok_iff, kinds_filledWith, List.getElem?_map, here, Option.map_some]
  rw [linkType, known, LoadResult.liftBounds_ok, ok_bind]
  cases construct with
  | interfaceInst inst =>
      exact linkTo_filledWith linkable here rfl (Construct.addInstance_interfaceDecl id)
  | objectInst inst =>
      exact linkTo_filledWith linkable here rfl (Construct.addInstance_objectDecl id)
  | methodInst inst => cases typed
  | _ =>
      rw [Project.linkInstance, declIdOf_of_getElem? here]
      rfl

/-- Steps that link one id each link all ids of a list. -/
theorem foldlM_filledWith (draft : Draft) (step : Draft → Nat → LoadResult Draft) {ids : List Nat}
    (steps : ∀ id ∈ ids, ∀ constructs, Linkable kinds constructs →
      step (draft.filledWith constructs) id =
        .ok (draft.filledWith (Project.linkInstance constructs id)))
    (linkable : Linkable kinds constructs) :
    ids.foldlM step (draft.filledWith constructs) =
      .ok (draft.filledWith (ids.foldl Project.linkInstance constructs)) := by
  induction ids generalizing constructs with
  | nil => rfl
  | cons id rest ih =>
      obtain ⟨first, later⟩ := List.forall_mem_cons.mp steps
      rw [List.foldlM_cons, first constructs linkable, ok_bind]
      exact ih later (linkable.linkInstance id)

/-- **Linking does not fail.** Over slots that are all filled, with tables that list constructs of
their own kinds and instances whose declarations are there, it does what `CodeGraph.Project.link`
does to the constructs. -/
theorem link_filledWith (linkable : Linkable kinds constructs)
    (listed : ∀ table, ∀ id ∈ draft.table table,
      ∃ kind, kinds[id]? = some kind ∧ kind.table = table) :
    (draft.filledWith constructs).link =
      .ok (draft.filledWith (Project.link draft.tables constructs)) := by
  have typeSteps : ∀ id ∈ draft.table .types, ∀ constructs, Linkable kinds constructs →
      (draft.filledWith constructs).linkType id =
        .ok (draft.filledWith (Project.linkInstance constructs id)) := by
    intro id member constructs linkable
    obtain ⟨kind, present, typed⟩ := listed .types id member
    exact linkType_filledWith linkable present typed
  have methodSteps : ∀ id ∈ draft.table .methodInsts, ∀ constructs, Linkable kinds constructs →
      (draft.filledWith constructs).linkMethodInst ⟨id⟩ =
        .ok (draft.filledWith (Project.linkInstance constructs id)) := by
    intro id member constructs linkable
    obtain ⟨kind, present, typed⟩ := listed .methodInsts id member
    obtain ⟨construct, here, rfl⟩ := linkable.exists_construct present
    cases construct with
    | methodInst inst => exact linkMethodInst_filledWith linkable here
    | _ => cases typed
  have types := foldlM_filledWith draft _ typeSteps linkable
  have methods := foldlM_filledWith draft (fun linked id => linked.linkMethodInst ⟨id⟩)
    methodSteps (linkable.foldl_linkInstance (draft.table .types))
  rw [link, show (draft.filledWith constructs).table .types = draft.table .types from rfl, types,
    ok_bind]
  exact methods.trans (by rw [Project.link, List.foldl_append]; rfl)

end Draft

end CodeGraph

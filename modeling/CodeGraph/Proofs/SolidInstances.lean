import CodeGraph.Proofs.Stub.Solids

/-! # The instance that a solid spells

The search for the instance of a solid goes through what its target lists. Linking has put there
all instances of the target, in the order of the table. So the search finds the first entry of the
table that is an instance of the target for the type arguments of the solid
(`CodeGraph.Project.instanceOfSolid_first`).
-/

namespace CodeGraph.Project

variable {document : Node} {project : Project} {expr : Solid}

/-- Whether an id leads to an instance, of an object or an interface, that applies what a solid
applies to the types that the solid applies it to. -/
def instantiates (project : Project) (expr : Solid) (id : Nat) : Bool :=
  match project.construct? id with
  | some (.objectInst inst) =>
    inst.decl.id = expr.target.id ∧ inst.instanceTypes = expr.typeArgs
  | some (.interfaceInst inst) =>
    inst.decl.id = expr.target.id ∧ inst.instanceTypes = expr.typeArgs
  | _ => false

/-- A construct of the right kind has data behind its reference. -/
theorem data?_of_construct? {kind : Kind} {ref : Ref (.only kind)} {data : kind.Data}
    (here : project.construct? ref.id = some (.ofData kind data)) :
    project.data? ref = .ok (some data) := by
  rw [data?, construct_eq_ok_iff.mpr here]
  exact congrArg Except.ok (Construct.data?_ofData kind data)

/-- A search through references whose types are known finds the first that has those asked for. -/
theorem firstInstance_eq_find? {kind : Kind} {types : List TypeRef}
    {typesOf : Ref (.only kind) → Except OutOfBounds (Option (List TypeRef))}
    {instances : List (Ref (.only kind))} {matched : Nat → Bool}
    (known : ∀ inst ∈ instances, ∃ given, typesOf inst = .ok given ∧
      (given = some types ↔ matched inst.id = true)) :
    firstInstance types typesOf instances =
      .ok (((instances.map Ref.id).find? matched).map Ref.mk) := by
  induction instances with
  | nil => rfl
  | cons inst rest ih =>
      obtain ⟨⟨given, asked, same⟩, later⟩ := List.forall_mem_cons.mp known
      rw [firstInstance, asked, ok_bind, List.map_cons]
      by_cases found : given = some types
      · rw [if_pos found, List.find?_cons_of_pos (same.mp found)]
        rfl
      · rw [if_neg found, List.find?_cons_of_neg (mt same.mpr found)]
        exact ih later

/-- What instantiates an expression is an instance of its target. -/
theorem exists_of_instantiates {id : Nat} (matched : project.instantiates expr id = true) :
    ∃ construct, project.construct? id = some construct ∧
      (construct.kind = .objectInst ∨ construct.kind = .interfaceInst) ∧
      construct.decl?.map AnyRef.id = some expr.target.id := by
  unfold instantiates at matched
  split at matched
  · rename_i inst here
    obtain ⟨same, -⟩ := of_decide_eq_true matched
    exact ⟨_, here, .inl rfl, congrArg some same⟩
  · rename_i inst here
    obtain ⟨same, -⟩ := of_decide_eq_true matched
    exact ⟨_, here, .inr rfl, congrArg some same⟩
  · cases matched

/-- What instantiates a solid is of the kind that the target of the solid has instances of. -/
theorem isInstance_of_instantiates (loaded : load document = .ok project) {id : Nat}
    (matched : project.instantiates expr id = true) :
    ∃ target kind, project.construct? expr.target.id = some target ∧
      target.kind.instanceKind? = some kind ∧ (kind = .objectInst ∨ kind = .interfaceInst) ∧
      project.isInstance kind expr.target.id id = true := by
  obtain ⟨entries, constructs, -, -, read, rfl⟩ := load_eq_ok_iff.mp loaded
  have linkable := @linkable_ofConstructs document entries constructs read
  obtain ⟨construct, here, typed, points⟩ := exists_of_instantiates matched
  have pointed : declIdOf (ofConstructs document entries constructs).constructs id =
      some expr.target.id := by
    rw [declIdOf_of_getElem? here, points]
  obtain ⟨ref, declared, same⟩ := Option.map_eq_some_iff.mp points
  obtain ⟨declKind, present, -⟩ :=
    linkable.declared construct (List.mem_of_getElem? here) ref declared
  rw [same] at present
  obtain ⟨other, hereToo, generic⟩ := linkable.instanceKind?_of_declIdOf pointed present
  cases here.symm.trans hereToo
  obtain ⟨target, there, rfl⟩ := linkable.exists_construct present
  exact ⟨target, construct.kind, there, generic, typed,
    (declIdOf_eq_iff linkable there generic).mp pointed⟩

/-- The search of a solid's target for its arguments finds the first entry of the table of types
that instantiates the solid. -/
theorem firstInstance_of_decl (loaded : load document = .ok project) {target : Construct}
    (there : project.construct? expr.target.id = some target) {kind : Kind}
    (generic : target.kind.instanceKind? = some kind) {typesOf : kind.Data → List TypeRef}
    {instances : List (Ref (.only kind))} (listed : target.instanceIds = instances.map Ref.id)
    (typed : kind.table = .types)
    (spelled : ∀ id, project.isInstance kind expr.target.id id = true →
      ∃ data, project.construct? id = some (.ofData kind data) ∧
        (typesOf data = expr.typeArgs ↔ project.instantiates expr id = true)) :
    firstInstance expr.typeArgs (fun inst => (project.data? inst).map (Option.map typesOf))
        instances =
      .ok (((project.table .types).find? (project.instantiates expr)).map Ref.mk) := by
  have linked : instances.map Ref.id =
      (project.table .types).filter (project.isInstance kind expr.target.id) := by
    rw [← listed, ← typed, instanceIds_of_load loaded there generic]
  have known : ∀ inst ∈ instances, ∃ given,
      (project.data? inst).map (Option.map typesOf) = .ok given ∧
        (given = some expr.typeArgs ↔ project.instantiates expr inst.id = true) := by
    intro inst among
    have member : inst.id ∈ instances.map Ref.id := List.mem_map_of_mem among
    rw [linked] at member
    obtain ⟨data, here, same⟩ := spelled _ (List.mem_filter.mp member).2
    refine ⟨some (typesOf data), ?_, by simpa using same⟩
    rw [data?_of_construct? here]
    rfl
  have only (id : Nat) (matched : project.instantiates expr id = true) :
      project.isInstance kind expr.target.id id = true := by
    obtain ⟨found, other, thereToo, same, -, points⟩ := isInstance_of_instantiates loaded matched
    cases there.symm.trans thereToo
    cases generic.symm.trans same
    exact points
  have kept : (fun id => decide (project.isInstance kind expr.target.id id = true ∧
      project.instantiates expr id = true)) = project.instantiates expr := by
    funext id
    exact Bool.eq_iff_iff.mpr (decide_eq_true_iff.trans (and_iff_right_of_imp (only id)))
  rw [firstInstance_eq_find? known, linked, List.find?_filter, kept]

/-- An instance of a kind has the data of that kind. -/
theorem exists_data_of_isInstance {kind : Kind} {decl id : Nat}
    (points : project.isInstance kind decl id = true) :
    ∃ data, project.construct? id = some (.ofData kind data) ∧
      (Construct.ofData kind data).decl?.map AnyRef.id = some decl := by
  unfold isInstance at points
  split at points
  · rename_i construct here
    obtain ⟨typed, same⟩ := of_decide_eq_true points
    obtain ⟨data, rfl⟩ := Construct.exists_data_of_kind typed
    exact ⟨data, here, same⟩
  · cases points

/-- Nothing instantiates a solid whose target is no declaration of an object or an interface. -/
theorem instantiates_eq_false (loaded : load document = .ok project)
    (notObject : ∀ decl, project.construct? expr.target.id ≠ some (.objectDecl decl))
    (notInterface : ∀ decl, project.construct? expr.target.id ≠ some (.interfaceDecl decl))
    (id : Nat) : project.instantiates expr id = false := by
  rw [← Bool.not_eq_true]
  intro matched
  obtain ⟨target, kind, there, generic, typed, -⟩ := isInstance_of_instantiates loaded matched
  cases target with
  | objectDecl decl => exact notObject decl there
  | interfaceDecl decl => exact notInterface decl there
  | methodDecl decl =>
      cases generic
      cases typed <;> contradiction
  | _ => cases generic

/-- What is no generic declaration has no instances. -/
theorem find?_instantiates_eq_none (loaded : load document = .ok project)
    (notObject : ∀ decl, project.construct? expr.target.id ≠ some (.objectDecl decl))
    (notInterface : ∀ decl, project.construct? expr.target.id ≠ some (.interfaceDecl decl)) :
    (project.table .types).find? (project.instantiates expr) = none := by
  rw [List.find?_eq_none]
  intro inst _
  rw [instantiates_eq_false loaded notObject notInterface inst]
  decide

/-- The instance of a solid is the first in the table of types. -/
theorem instanceOfSolid_eq_find? (loaded : load document = .ok project) {id : Nat}
    (here : project.construct? id = some (.solid expr)) :
    project.instanceOfSolid ⟨id⟩ =
      .ok (((project.table .types).find? (project.instantiates expr)).map Ref.mk) := by
  have coherent := (coherent_of_load loaded).1
  have stored : expr.target.any ∈ (Construct.solid expr).refs := List.mem_cons_self
  obtain ⟨target, there, -⟩ := exists_target coherent (List.mem_of_getElem? here) stored
  have there : project.construct? expr.target.id = some target := there
  have held : project.data? (⟨id⟩ : SolidRef) = .ok (some expr) := data?_of_construct? here
  have present : project.construct expr.target.id = .ok target := construct_eq_ok_iff.mpr there
  simp only [instanceOfSolid, held, present, ok_bind]
  cases target with
  | objectDecl decl =>
      apply firstInstance_of_decl loaded there rfl rfl rfl
      intro inst points
      obtain ⟨data, found, back⟩ := exists_data_of_isInstance points
      have found : project.construct? inst = some (.objectInst data) := found
      have same : data.decl.id = expr.target.id := Option.some.inj back
      exact ⟨data, found, by simp [instantiates, found, same]⟩
  | interfaceDecl decl =>
      apply firstInstance_of_decl loaded there rfl rfl rfl
      intro inst points
      obtain ⟨data, found, back⟩ := exists_data_of_isInstance points
      have found : project.construct? inst = some (.interfaceInst data) := found
      have same : data.decl.id = expr.target.id := Option.some.inj back
      exact ⟨data, found, by simp [instantiates, found, same]⟩
  | _ =>
      rw [find?_instantiates_eq_none loaded (by simp [there]) (by simp [there])]
      rfl

/-- **A solid spells the first of its instances.** In a loaded project the search for the instance
of a solid comes to an end. It finds the first entry of the table of types that is an instance of
the solid's target for the solid's type arguments, wherever it was declared, and finds nothing
exactly if no entry of the table is one, as where the target is not the declaration of an object or
an interface. -/
theorem instanceOfSolid_first (loaded : load document = .ok project) {id : Nat}
    (here : project.construct? id = some (.solid expr)) :
    (∃ found, project.instanceOfSolid ⟨id⟩ = .ok found) ∧
    (∀ inst : TypeRef, project.instanceOfSolid ⟨id⟩ = .ok (some inst) ↔
      ∃ before after, project.table .types = before ++ inst.id :: after ∧
        project.instantiates expr inst.id = true ∧
        ∀ earlier ∈ before, project.instantiates expr earlier = false) ∧
    (project.instanceOfSolid ⟨id⟩ = .ok none ↔
      ∀ inst ∈ project.table .types, project.instantiates expr inst = false) ∧
    ((∀ decl, project.construct? expr.target.id ≠ some (.objectDecl decl)) →
      (∀ decl, project.construct? expr.target.id ≠ some (.interfaceDecl decl)) →
      project.instanceOfSolid ⟨id⟩ = .ok none) := by
  rw [instanceOfSolid_eq_find? loaded here]
  refine ⟨⟨_, rfl⟩, ?_, by simp, ?_⟩
  · intro inst
    rw [Except.ok.injEq, Option.map_eq_some_iff]
    constructor
    · rintro ⟨first, found, rfl⟩
      obtain ⟨matched, before, after, table, none⟩ := List.find?_eq_some_iff_append.mp found
      exact ⟨before, after, table, matched, by simpa using none⟩
    · rintro ⟨before, after, table, matched, none⟩
      exact ⟨inst.id, List.find?_eq_some_iff_append.mpr
        ⟨matched, before, after, table, by simpa using none⟩, rfl⟩
  · intro notObject notInterface
    rw [find?_instantiates_eq_none loaded notObject notInterface]
    rfl

/-- The solid of the sample spells the one instance of its target, which is the last type of the
table. -/
theorem instanceOfSolid_first_sample :
    load Sample.chain = .ok Sample.chainProject ∧
      Sample.chainProject.construct? 2 = some (.solid ⟨⟨5⟩, [⟨0⟩]⟩) ∧
      Sample.chainProject.instanceOfSolid ⟨2⟩ = .ok (some ⟨6⟩) := by
  have here : Sample.chainProject.construct? 2 = some (.solid ⟨⟨5⟩, [⟨0⟩]⟩) := rfl
  obtain ⟨-, first, -⟩ := instanceOfSolid_first Sample.load_chain here
  refine ⟨Sample.load_chain, here, (first ⟨6⟩).mpr ⟨[0, 1, 2, 3, 5], [], rfl, by decide, ?_⟩⟩
  decide

end CodeGraph.Project

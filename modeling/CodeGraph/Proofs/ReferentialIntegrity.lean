import CodeGraph.Project.Graph
import CodeGraph.Proofs.Stub.Bodies

/-! # Nothing leads outside

A loaded project is coherent, so the questions about it that follow references never ask for an id
outside its arena (`CodeGraph.Project.references_of_load`). What follows no reference, such as the
placeholder for a signature that is something else, is never needed.
-/

namespace CodeGraph

namespace Construct

/-- The parts of a construct are targets of its references. -/
theorem exists_ref_of_part {construct : Construct} {part : Nat} (member : part ∈ construct.parts) :
    ∃ ref ∈ construct.refs, ref.id = part := by
  suffices parts : ∀ part ∈ construct.parts, part ∈ construct.refs.map AnyRef.id from
    List.mem_map.mp (parts part member)
  cases construct <;>
    simp only [Construct.parts, refs, Members.ids, Members.refs, Ref.any, List.map_append,
      List.map_cons, List.map_map, Option.toList_map, Function.comp_def] <;>
    grind

end Construct

namespace Project

variable {project : Project} (coherent : Coherent project.constructs)

include coherent

/-- A stored reference leads into the arena. -/
theorem lt_size_of_ref {construct : Construct} (member : construct ∈ project.constructs)
    {ref : AnyRef} (stored : ref ∈ construct.refs) : ref.id < project.size := by
  obtain ⟨target, here, -⟩ := exists_target coherent member stored
  exact lt_size_of_construct? here

/-- The target of a reference to a kind can be had as what that kind holds. -/
theorem exists_data {construct : Construct} (member : construct ∈ project.constructs) {kind : Kind}
    {id : Nat} (stored : ⟨.only kind, id⟩ ∈ construct.refs) :
    ∃ data, project.data? (⟨id⟩ : Ref (.only kind)) = .ok (some data) := by
  obtain ⟨target, here, accepts⟩ := exists_target coherent member stored
  have same : target.kind = kind := by simpa [Role.accepts] using accepts
  obtain ⟨data, held⟩ := Option.isSome_iff_exists.mp (Construct.data?_isSome_iff.mpr same)
  refine ⟨data, ?_⟩
  rw [data?, construct_eq_ok_iff.mpr here, ← held]
  rfl

/-- Every construct has parts inside the arena. -/
theorem exists_parts {id : Nat} (inside : id < project.size) :
    ∃ parts, project.parts id = .ok parts ∧ ∀ part ∈ parts, part < project.size := by
  obtain ⟨construct, here⟩ := exists_construct_of_inside inside
  refine ⟨construct.parts, ?_, ?_⟩
  · rw [Project.parts, construct_eq_ok_iff.mpr here]
    rfl
  · intro part member
    obtain ⟨ref, stored, rfl⟩ := Construct.exists_ref_of_part member
    exact lt_size_of_ref coherent (List.mem_of_getElem? here) stored

/-- A walk inside the arena stays there. -/
theorem exists_walk (unseen : Nat) {seen ahead : List Nat}
    (seenInside : ∀ id ∈ seen, id < project.size)
    (aheadInside : ∀ id ∈ ahead, id < project.size) :
    ∃ found, project.walk unseen seen ahead = .ok found ∧ ∀ id ∈ found, id < project.size := by
  induction unseen generalizing seen ahead with
  | zero => exact ⟨seen, rfl, seenInside⟩
  | succ unseen ih =>
      rw [walk]
      cases next : ahead.dropWhile seen.contains with
      | nil => exact ⟨seen, rfl, seenInside⟩
      | cons id rest =>
          have left : ∀ other ∈ id :: rest, other < project.size := by
            intro other member
            rw [← next] at member
            exact aheadInside other ((List.dropWhile_sublist _).subset member)
          obtain ⟨idInside, restInside⟩ := List.forall_mem_cons.mp left
          obtain ⟨parts, present, partsInside⟩ := exists_parts coherent idInside
          simp only [present, ok_bind]
          apply ih
          · exact List.forall_mem_append.mpr ⟨seenInside, by simpa using idInside⟩
          · exact List.forall_mem_append.mpr ⟨partsInside, restInside⟩

/-- Every construct can be asked for instances, and these are inside the arena. -/
theorem exists_instancesOf {id : Nat} (inside : id < project.size) :
    ∃ instances, project.instancesOf id = .ok instances ∧
      ∀ inst ∈ instances, inst < project.size := by
  obtain ⟨construct, here⟩ := exists_construct_of_inside inside
  have member := List.mem_of_getElem? here
  have listed {role : Role} {instances : List (Ref role)}
      (stored : instances.map Ref.any ⊆ construct.refs) :
      ∀ inst ∈ instances.map Ref.id, inst < project.size := by
    intro id present
    obtain ⟨inst, among, rfl⟩ := List.mem_map.mp present
    exact lt_size_of_ref coherent member (stored (List.mem_map_of_mem among))
  simp only [instancesOf, construct_eq_ok_iff.mpr here, ok_bind]
  cases construct with
  | interfaceDecl decl =>
      exact ⟨_, rfl, listed fun _ present =>
        List.mem_append_right _ (List.mem_cons_of_mem _ present)⟩
  | objectDecl decl => exact ⟨_, rfl, listed fun _ present => List.mem_append_right _ present⟩
  | methodDecl decl => exact ⟨_, rfl, listed fun _ present => List.mem_append_right _ present⟩
  | _ => exact ⟨[], rfl, by simp⟩

omit coherent in
/-- A search among instances ends, with one of them or with none. -/
theorem exists_firstInstance {kind : Kind} (types : List TypeRef)
    {typesOf : Ref (.only kind) → Except OutOfBounds (Option (List TypeRef))}
    {instances : List (Ref (.only kind))}
    (known : ∀ inst ∈ instances, ∃ given, typesOf inst = .ok given) :
    ∃ found, firstInstance types typesOf instances = .ok found ∧
      ∀ type ∈ found, ∃ inst ∈ instances, inst.toType = type := by
  induction instances with
  | nil => exact ⟨none, rfl, by simp⟩
  | cons inst rest ih =>
      obtain ⟨⟨given, first⟩, later⟩ := List.forall_mem_cons.mp known
      obtain ⟨found, searched, among⟩ := ih later
      by_cases same : given = some types
      · exact ⟨some inst.toType, by simp [firstInstance, first, same], by simp⟩
      · refine ⟨found, by simpa [firstInstance, first, same] using searched, ?_⟩
        intro type member
        obtain ⟨other, present, rfl⟩ := among type member
        exact ⟨other, List.mem_cons_of_mem _ present, rfl⟩

/-- A search through instances that a construct refers to stays inside the arena. -/
theorem exists_firstInstance_of_refs {construct : Construct}
    (member : construct ∈ project.constructs) {kind : Kind} (types : List TypeRef)
    {typesOf : kind.Data → List TypeRef} {instances : List (Ref (.only kind))}
    (stored : instances.map Ref.any ⊆ construct.refs) :
    ∃ found, firstInstance types
        (fun inst => (project.data? inst).map (Option.map typesOf)) instances = .ok found ∧
      ∀ type ∈ found, type.id < project.size := by
  have inRefs : ∀ inst ∈ instances, inst.any ∈ construct.refs := fun inst among =>
    stored (List.mem_map_of_mem among)
  have known : ∀ inst ∈ instances,
      ∃ given, (project.data? inst).map (Option.map typesOf) = .ok given := by
    intro inst among
    obtain ⟨data, held⟩ := exists_data coherent member (inRefs inst among)
    exact ⟨some (typesOf data), congrArg (Except.map (Option.map typesOf)) held⟩
  obtain ⟨found, searched, among⟩ := exists_firstInstance types known
  refine ⟨found, searched, ?_⟩
  intro type present
  obtain ⟨inst, listed, rfl⟩ := among type present
  exact lt_size_of_ref coherent member (inRefs inst listed)

/-- Every solid can be asked for its instance, which is inside the arena. -/
theorem exists_instanceOfSolid {id : Nat} (inside : id < project.size) :
    ∃ found, project.instanceOfSolid ⟨id⟩ = .ok found ∧
      ∀ type ∈ found, type.id < project.size := by
  obtain ⟨construct, here⟩ := exists_construct_of_inside inside
  have member := List.mem_of_getElem? here
  have held : project.data? (⟨id⟩ : SolidRef) = .ok (construct.data? .solid) := by
    rw [data?, construct_eq_ok_iff.mpr here]
    rfl
  simp only [instanceOfSolid, held, ok_bind]
  cases construct with
  | solid expr =>
      have stored : expr.target.any ∈ (Construct.solid expr).refs := List.mem_cons_self
      obtain ⟨target, there, -⟩ := exists_target coherent member stored
      have present : project.construct expr.target.id = .ok target :=
        construct_eq_ok_iff.mpr there
      have solid : (Construct.solid expr).data? .solid = some expr := rfl
      simp only [solid, present, ok_bind]
      have targetMember := List.mem_of_getElem? there
      cases target with
      | objectDecl decl =>
          exact exists_firstInstance_of_refs coherent targetMember _ fun _ among =>
            List.mem_append_right _ among
      | interfaceDecl decl =>
          exact exists_firstInstance_of_refs coherent targetMember _ fun _ among =>
            List.mem_append_right _ (List.mem_cons_of_mem _ among)
      | _ => exact ⟨none, rfl, by simp⟩
  | _ => exact ⟨none, rfl, by simp⟩

/-- No stub leaves the arena. -/
theorem stub_ne_outOfBounds {id : Nat} (inside : id < project.size) (options : StubOptions)
    (fault : OutOfBounds) : project.stub options id ≠ .error (.outOfBounds fault) := by
  intro failed
  rcases traverse_eq_error coherent (.start inside)
    ((stub_eq_error_iff coherent inside).mp failed) with ⟨deep, -⟩ | ⟨-, _, _, -, -, -, recursion⟩
  · cases deep
  · cases recursion

omit coherent in
/-- **Nothing in a loaded project leads outside.** Every reference that a construct stores, and
every id that a table lists, leads to a construct of the project that can play the role or belongs
in the table; and what a reference to a kind leads to can be had as what that kind holds. So, inside
the arena, parts, reachable constructs, instances and the instance of a solid are found, and found
inside the arena; no stub asks for an id outside; and no stub would notice what was written in place
of the call of a construct that is no signature. -/
theorem references_of_load {document : Node} (loaded : load document = .ok project) :
    (∀ construct ∈ project.constructs, ∀ ref ∈ construct.refs,
      ∃ target, project.construct? ref.id = some target ∧
        ref.role.accepts target.kind = true) ∧
    (∀ table, ∀ id ∈ project.table table,
      ∃ target, project.construct? id = some target ∧ target.kind.table = table) ∧
    (∀ construct ∈ project.constructs, ∀ kind id, ⟨.only kind, id⟩ ∈ construct.refs →
      ∃ data, project.data? (⟨id⟩ : Ref (.only kind)) = .ok (some data)) ∧
    ∀ id < project.size,
      (∃ parts, project.parts id = .ok parts ∧ ∀ part ∈ parts, part < project.size) ∧
      (∃ found, project.reachable id = .ok found ∧ ∀ other ∈ found, other < project.size) ∧
      (∃ instances, project.instancesOf id = .ok instances ∧
        ∀ inst ∈ instances, inst < project.size) ∧
      (∃ found, project.instanceOfSolid ⟨id⟩ = .ok found ∧
        ∀ type ∈ found, type.id < project.size) ∧
      (∀ options fault, project.stub options id ≠ .error (.outOfBounds fault)) ∧
      (∀ body : Stub.Body,
        (∀ visit form construct transcript,
          (∀ name, form = .callOf name → construct.kind = .signature) →
          body visit form construct transcript =
            Stub.writeConstruct visit form construct transcript) →
        ∀ options, project.stubBy body options id = project.stub options id) := by
  obtain ⟨coherent, tables⟩ := coherent_of_load loaded
  refine ⟨fun construct member ref => exists_target coherent member, ?_,
    fun construct member kind id => exists_data coherent member, fun id inside =>
    ⟨exists_parts coherent inside, ?_, exists_instancesOf coherent inside,
      exists_instanceOfSolid coherent inside, stub_ne_outOfBounds coherent inside, ?_⟩⟩
  · intro table id listed
    obtain ⟨kind, present, belongs⟩ := tables table id listed
    obtain ⟨target, here, rfl⟩ := kinds_eq_some_iff.mp present
    exact ⟨target, here, belongs⟩
  · exact exists_walk coherent _ (by simp) (by simpa using inside)
  · intro body same options
    apply stubBy_eq coherent _ inside
    intro visit form construct transcript begun
    obtain ⟨root, outer, -, here, suits⟩ := begun.here
    exact same visit form construct transcript (suits.construct here)

omit coherent in
/-- A project whose declaration, instance and package refer to each other loads, so nothing in it
leads outside. -/
theorem references_sample :
    load Sample.document = .ok Sample.project ∧ 3 < Sample.project.size ∧
      (∃ found, Sample.project.reachable 3 = .ok found ∧
        ∀ other ∈ found, other < Sample.project.size) ∧
      ∀ options fault, Sample.project.stub options 3 ≠ .error (.outOfBounds fault) := by
  have inside : 3 < Sample.project.size := by decide
  obtain ⟨-, found, -, -, bounded, -⟩ := (references_of_load Sample.load_document).2.2.2 3 inside
  exact ⟨Sample.load_document, inside, found, bounded⟩

end Project

end CodeGraph

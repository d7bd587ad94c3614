import CodeGraph.Proofs.Reachability
import CodeGraph.Proofs.Stub.Renumbering

/-! # Numbers of constructs carry no meaning

A walk through a renamed copy of a project goes through the copies in the order of the originals.
The copy may have more constructs, which gives the walk more steps, but it does not need them. So
stubs, reachability and concreteness depend on how constructs refer to each other alone
(`CodeGraph.Project.renumbered_of_load`).
-/

namespace CodeGraph

namespace Project

variable {project other : Project} {f : Nat → Nat}

/-- A walk that has a step for each construct it has not seen needs no more steps. -/
theorem walk_add (more : Nat) {unseen : Nat} {seen : List Nat} (ahead : List Nat)
    (inside : ∀ id ∈ seen, id < project.size) (distinct : seen.Nodup)
    (enough : project.size < unseen + seen.length) :
    project.walk (unseen + more) seen ahead = project.walk unseen seen ahead := by
  induction unseen generalizing seen ahead with
  | zero =>
      have bound := length_le_size distinct inside
      omega
  | succ unseen ih =>
      rw [Nat.succ_add, walk, walk]
      cases next : ahead.dropWhile seen.contains with
      | nil => rfl
      | cons id rest =>
          cases present : project.parts id with
          | error fault => simp only [present, error_bind]
          | ok parts =>
              obtain ⟨construct, here, -⟩ := parts_eq_ok_iff.mp present
              have fresh : id ∉ seen := by
                have turnsHere := List.head?_dropWhile_not seen.contains ahead
                rw [next] at turnsHere
                simpa using turnsHere
              simp only [present, ok_bind]
              apply ih
              · exact List.forall_mem_append.mpr
                  ⟨inside, by simpa using lt_size_of_construct? here⟩
              · simpa using List.nodup_concat seen id |>.mpr ⟨fresh, distinct⟩
              · rw [List.length_append, List.length_singleton]
                omega

/-- A walk may take more steps than it needs. -/
theorem reachable_eq_walk (more root : Nat) :
    project.reachable root = project.walk (project.size + 1 + more) [] [root] :=
  (walk_add more [root] (by simp) .nil (by simp)).symm

namespace Renumbered

variable (renumbered : Renumbered project other f)

include renumbered

/-- Parts are renumbered. -/
theorem parts {id : Nat} {parts : List Nat} (present : project.parts id = .ok parts) :
    other.parts (f id) = .ok (parts.map f) := by
  obtain ⟨construct, here, rfl⟩ := parts_eq_ok_iff.mp present
  obtain ⟨copy, there, bare⟩ := renumbered.renamed here
  refine parts_eq_ok_iff.mpr ⟨copy, there, ?_⟩
  rw [← copy.parts_bare, bare, Construct.parts_bare, Construct.parts_rename]

/-- What is ahead of a walk is dropped up to the copy of what is dropped up to. -/
theorem dropWhile_map {seen ahead : List Nat} (seenInside : ∀ id ∈ seen, id < project.size)
    (aheadInside : ∀ id ∈ ahead, id < project.size) :
    (ahead.map f).dropWhile (seen.map f).contains = (ahead.dropWhile seen.contains).map f := by
  induction ahead with
  | nil => rfl
  | cons id rest ih =>
      obtain ⟨idInside, restInside⟩ := List.forall_mem_cons.mp aheadInside
      have same : f id ∈ seen.map f ↔ id ∈ seen := by
        rw [List.mem_map]
        constructor
        · rintro ⟨found, member, equal⟩
          rwa [← renumbered.injective (seenInside found member) idInside equal]
        · intro member
          exact ⟨id, member, rfl⟩
      by_cases member : id ∈ seen
      · simpa [List.dropWhile_cons, member, same.mpr member] using ih restInside
      · simp [member, mt same.mp member]

/-- **A walk through a copy is the copy of a walk.** -/
theorem walk (coherent : Coherent project.constructs) (unseen : Nat) {seen ahead : List Nat}
    (seenInside : ∀ id ∈ seen, id < project.size)
    (aheadInside : ∀ id ∈ ahead, id < project.size) :
    other.walk unseen (seen.map f) (ahead.map f) =
      (project.walk unseen seen ahead).map (List.map f) := by
  induction unseen generalizing seen ahead with
  | zero => rfl
  | succ unseen ih =>
      rw [Project.walk, Project.walk, renumbered.dropWhile_map seenInside aheadInside]
      cases next : ahead.dropWhile seen.contains with
      | nil => rfl
      | cons id rest =>
          have left : ∀ other ∈ id :: rest, other < project.size := by
            intro other member
            rw [← next] at member
            exact aheadInside other ((List.dropWhile_sublist _).subset member)
          obtain ⟨idInside, restInside⟩ := List.forall_mem_cons.mp left
          obtain ⟨parts, present, partsInside⟩ := exists_parts coherent idInside
          have seenNow : ∀ other ∈ seen ++ [id], other < project.size :=
            List.forall_mem_append.mpr ⟨seenInside, by simpa using idInside⟩
          have later := ih seenNow (List.forall_mem_append.mpr ⟨partsInside, restInside⟩)
          rw [List.map_append, List.map_append] at later
          simp only [List.map_cons, present, renumbered.parts present, ok_bind]
          exact later

/-- What is reachable is renumbered, in the same order. -/
theorem reachable (coherent : Coherent project.constructs) {root : Nat}
    (inside : root < project.size) :
    other.reachable (f root) = (project.reachable root).map (List.map f) := by
  have start : ∀ id ∈ [root], id < project.size := by simpa using inside
  have steps : other.size + 1 + project.size = project.size + 1 + other.size := by omega
  have walked : other.walk (other.size + 1 + project.size) [] [f root] =
      (project.walk (other.size + 1 + project.size) [] [root]).map (List.map f) :=
    renumbered.walk coherent _ (List.forall_mem_nil _) start
  rw [reachable_eq_walk project.size, walked, steps, ← reachable_eq_walk]

end Renumbered

/-- **Numbers carry no meaning.** Let a loaded project have a renamed copy in another one. Under the
policy to fail at cycles the stub of a copy is that of the original in every mode and for every
limit, or it fails with the construct of the failure renamed. What can be reached from a copy is the
copy of what can be reached from the original, in the same order, and it is concrete if the original
is. -/
theorem renumbered_of_load {document : Node} (loaded : load document = .ok project)
    (renumbered : Renumbered project other f) {id : Nat} (inside : id < project.size) :
    (∀ mode limit, other.stub ⟨mode, .fail, limit⟩ (f id) =
      (project.stub ⟨mode, .fail, limit⟩ id).mapError (StubError.rename f)) ∧
    (∃ found, project.reachable id = .ok found ∧ other.reachable (f id) = .ok (found.map f)) ∧
    ∃ concrete, project.isConcrete id = .ok concrete ∧
      other.isConcrete (f id) = .ok concrete := by
  have coherent := (coherent_of_load loaded).1
  obtain ⟨found, reached, foundInside⟩ : ∃ found, project.reachable id = .ok found ∧
      ∀ other ∈ found, other < project.size :=
    exists_walk coherent _ (by simp) (by simpa using inside)
  have copyReached : other.reachable (f id) = .ok (found.map f) := by
    rw [renumbered.reachable coherent inside, reached]
    rfl
  obtain ⟨kinds, present⟩ : ∃ kinds, found.mapM project.kind = .ok kinds := by
    apply exists_mapM_eq_ok
    intro other member
    obtain ⟨construct, here⟩ := exists_construct_of_inside (foundInside other member)
    exact ⟨construct.kind, kind_eq_ok_iff.mpr ⟨construct, here, rfl⟩⟩
  have copyPresent : (found.map f).mapM other.kind = .ok kinds := by
    rw [List.mapM_map, ← present]
    apply mapM_congr
    intro other member
    obtain ⟨construct, here⟩ := exists_construct_of_inside (foundInside other member)
    have kind := kind_eq_ok_iff.mpr ⟨construct, here, rfl⟩
    rw [kind]
    exact renumbered.kind kind
  refine ⟨fun mode limit => renumbered.stub_eq coherent rfl inside, ⟨found, reached, copyReached⟩,
    kinds.all (· ≠ .named), ?_, ?_⟩
  · rw [isConcrete, reached, ok_bind, present]
    rfl
  · rw [isConcrete, copyReached, ok_bind, copyPresent]
    rfl

end Project

namespace Sample

/-- The generic list and its instance in a document that has one more type in front of them. -/
def behind : Node :=
  .object [("basics", .array [.string "bool", .string "int"]),
    ("named", .array [.object [("name", .string "T"), ("type", .number (.integer 2))]]),
    ("structDescs", .array [.object [("fields", .array [
      .object [("name", .string "value"), ("type", .number (.integer 3))],
      .object [("name", .string "next"), ("type", .number (.integer 4))]])]]),
    ("packages", .array [.object [("name", .string "lists"),
      ("objectDecls", .array [.object [("name", .string "List"), ("loc", .string "list.go"),
        ("typeParams", .array [.number (.integer 3)]), ("data", .number (.integer 4))]]),
      ("objectInsts", .array [.object [("decl", .number (.integer 5)),
        ("instanceTypes", .array [.number (.integer 2)]),
        ("resolved", .number (.integer 4))]])]])]

/-- The project that this document spells. -/
def behindProject : Project where
  language := ""
  constructs := [
    .basic ⟨"bool"⟩,
    .basic ⟨"int"⟩,
    .named ⟨"T", ⟨1⟩⟩,
    .structDesc ⟨[⟨"value", ⟨2⟩, false⟩, ⟨"next", ⟨3⟩, false⟩]⟩,
    .package ⟨"lists", "", [],
      { Members.empty with objectDecls := [⟨5⟩], objectInsts := [⟨6⟩] }⟩,
    .objectDecl ⟨⟨"List", "list.go", ⟨4⟩, [⟨2⟩]⟩, ⟨3⟩, [], [⟨6⟩]⟩,
    .objectInst ⟨⟨5⟩, [⟨1⟩], ⟨3⟩, []⟩]
  tables := ⟨[0, 1, 2, 3, 5, 6], [4], [], [], []⟩

theorem load_behind : Project.load behind = .ok behindProject := rfl

/-- A document behind another type is one renumbered by one. -/
theorem renumbered_behind : project.Renumbered behindProject (· + 1) where
  injective := fun _ _ same => Nat.succ.inj same
  renamed := by
    have copied : ∀ id (inside : id < project.size),
        ∃ copy, behindProject.construct? (id + 1) = some copy ∧
          copy.bare = ((project.constructs.get ⟨id, inside⟩).rename (· + 1)).bare := by
      intro id inside
      match id, inside with
      | 0, _ | 1, _ | 2, _ | 3, _ | 4, _ | 5, _ => exact ⟨_, rfl, rfl⟩
    intro id construct here
    obtain ⟨inside, rfl⟩ := List.getElem?_eq_some_iff.mp here
    exact copied id inside

end Sample

namespace Project

/-- The structure of the generic list mentions itself, so the stub of the instance fails, and that
of its copy fails with the number of the copied structure. -/
theorem renumbered_sample :
    load Sample.document = .ok Sample.project ∧ load Sample.behind = .ok Sample.behindProject ∧
      Sample.project.Renumbered Sample.behindProject (· + 1) ∧ 5 < Sample.project.size ∧
      Sample.project.stub ⟨.long, .fail, 9⟩ 5 = .error (.recursion 2 .structDesc .short) ∧
      Sample.behindProject.stub ⟨.long, .fail, 9⟩ 6 =
        .error (.recursion 3 .structDesc .short) := by
  have inside : 5 < Sample.project.size := by decide
  have failed : Sample.project.stub ⟨.long, .fail, 9⟩ 5 =
      .error (.recursion 2 .structDesc .short) :=
    (stub_eq_error_iff (coherent_of_load Sample.load_document).1 inside).mpr rfl
  obtain ⟨stubs, -⟩ := renumbered_of_load Sample.load_document Sample.renumbered_behind inside
  refine ⟨Sample.load_document, Sample.load_behind, Sample.renumbered_behind, inside, failed, ?_⟩
  rw [stubs .long 9, failed]
  rfl

end Project

end CodeGraph

import CodeGraph.Proofs.Outcome
import CodeGraph.Proofs.Stub.Nesting
import CodeGraph.Stub

/-! # The traversal behind a stub

Whether a stub is written, and what it fails with, depends on the mentions alone. `traverse` follows
them without writing anything. It fails for lack of room or at a cycle
(`CodeGraph.Project.traverse_eq_error`), and where it fails at cycles and succeeds there are none
(`CodeGraph.Project.not_transGen_of_traverse`).
-/

namespace CodeGraph

open Stub

namespace Project

/-- What comes of a construct that turned up within its own text. -/
def atCycle (project : Project) (options : StubOptions) (pair : Nat × Mode) :
    Except StubError Unit :=
  match project.kind pair.1, options.cycles with
  | .error fault, _ => .error (.outOfBounds fault)
  | .ok kind, .fail => .error (.recursion pair.1 kind pair.2)
  | .ok _, .mark => .ok ()

/-- Goes through everything that the text of a construct mentions, where there is room for `room`
constructs within each other and others are underway. -/
def traverse (project : Project) (options : StubOptions) :
    (room : Nat) → (underway : List (Nat × Mode)) → (pair : Nat × Mode) → Except StubError Unit
  | 0, underway, pair =>
    if pair ∈ underway then project.atCycle options pair
    else .error (.tooDeep options.maxDepth)
  | room + 1, underway, pair =>
    if pair ∈ underway then project.atCycle options pair
    else match project.construct pair.1 with
      | .error fault => .error (.outOfBounds fault)
      | .ok construct => (construct.mentions pair.2).forM fun mention =>
        traverse project options room (pair :: underway) mention.target

variable {project : Project} {options : StubOptions} {room : Nat} {underway : List (Nat × Mode)}
variable {pair : Nat × Mode}

/-- Inside the arena there are constructs. -/
theorem exists_construct_of_inside {id : Nat} (inside : id < project.size) :
    ∃ construct, project.construct? id = some construct :=
  ⟨_, List.getElem?_eq_getElem inside⟩

/-- A traversal that comes to what is underway is at a cycle. -/
theorem traverse_again (again : pair ∈ underway) :
    project.traverse options room underway pair = project.atCycle options pair := by
  cases room <;> exact if_pos again

/-- A traversal without room for what is new is too deep. -/
theorem traverse_zero (fresh : pair ∉ underway) :
    project.traverse options 0 underway pair = .error (.tooDeep options.maxDepth) :=
  if_neg fresh

/-- A traversal goes on with what a construct mentions. -/
theorem traverse_succ (fresh : pair ∉ underway) {target : Construct}
    (here : project.construct? pair.1 = some target) :
    project.traverse options (room + 1) underway pair =
      (target.mentions pair.2).forM fun mention =>
        project.traverse options room (pair :: underway) mention.target := by
  have present : project.construct pair.1 = .ok target := construct_eq_ok_iff.mpr here
  apply (if_neg fresh).trans
  rw [present]

/-- An id has the kind of its construct. -/
theorem kind_eq_ok_iff {id : Nat} {kind : Kind} :
    project.kind id = .ok kind ↔
      ∃ construct, project.construct? id = some construct ∧ construct.kind = kind := by
  unfold Project.kind Project.construct entryAt construct?
  cases project.constructs[id]? <;> simp [Except.map]

/-- A cycle fails only if cycles fail. -/
theorem atCycle_eq_error (inside : pair.1 < project.size) {error : StubError}
    (failed : project.atCycle options pair = .error error) :
    options.cycles = .fail ∧
      ∃ kind, project.kind pair.1 = .ok kind ∧ error = .recursion pair.1 kind pair.2 := by
  obtain ⟨construct, here⟩ := exists_construct_of_inside inside
  have kind : project.kind pair.1 = .ok construct.kind :=
    kind_eq_ok_iff.mpr ⟨construct, here, rfl⟩
  simp only [atCycle, kind] at failed
  cases policy : options.cycles with
  | fail =>
      rw [policy] at failed
      cases failed
      exact ⟨rfl, _, kind, rfl⟩
  | mark =>
      rw [policy] at failed
      cases failed

/-- A traversal fails for lack of room, or because it came back to a pair. With room for all
constructs and three more there is no lack of it. -/
theorem traverse_eq_error (coherent : Coherent project.constructs)
    (turn : project.Turn underway pair) {error : StubError}
    (failed : project.traverse options room underway pair = .error error) :
    error = .tooDeep options.maxDepth ∧ room + underway.length < project.size + 3 ∨
      options.cycles = .fail ∧ ∃ inner kind,
        Relation.ReflTransGen project.Writes pair inner ∧
        Relation.TransGen project.Writes inner inner ∧
        project.kind inner.1 = .ok kind ∧ error = .recursion inner.1 kind inner.2 := by
  induction room generalizing underway pair with
  | zero =>
      by_cases again : pair ∈ underway
      · rw [traverse_again again] at failed
        obtain ⟨fails, kind, present, rfl⟩ := atCycle_eq_error turn.inside failed
        exact .inr ⟨fails, pair, kind, .refl, turn.transGen again, present, rfl⟩
      · rw [traverse_zero again] at failed
        cases failed
        have bound := (turn.enter again).length_le coherent
        rw [List.length_cons] at bound
        exact .inl ⟨rfl, by omega⟩
  | succ room ih =>
      by_cases again : pair ∈ underway
      · rw [traverse_again again] at failed
        obtain ⟨fails, kind, present, rfl⟩ := atCycle_eq_error turn.inside failed
        exact .inr ⟨fails, pair, kind, .refl, turn.transGen again, present, rfl⟩
      · obtain ⟨construct, here⟩ := exists_construct_of_inside turn.inside
        rw [traverse_succ again here] at failed
        obtain ⟨mention, member, failed⟩ := exists_item_of_forM_error failed
        have writes : project.Writes pair mention.target := ⟨construct, here, mention, member, rfl⟩
        rcases ih (.next coherent (turn.enter again) writes) failed with
          ⟨deep, bound⟩ | ⟨fails, inner, kind, reaches, cycle, present, rfl⟩
        · rw [List.length_cons] at bound
          exact .inl ⟨deep, by omega⟩
        · exact .inr ⟨fails, inner, kind, .head writes reaches, cycle, present, rfl⟩

/-- A traversal that fails at cycles and succeeds has met nothing that was underway, and goes on to
everything that is written. -/
theorem traverse_eq_ok (fails : options.cycles = .fail)
    (passed : project.traverse options room underway pair = .ok ()) :
    pair ∉ underway ∧ ∀ inner, project.Writes pair inner →
      ∃ deeper, project.traverse options deeper (pair :: underway) inner = .ok () := by
  by_cases again : pair ∈ underway
  · rw [traverse_again again, atCycle, fails] at passed
    cases kind : project.kind pair.1 <;> rw [kind] at passed <;> cases passed
  · refine ⟨again, ?_⟩
    intro inner writes
    rcases writes with ⟨construct, here, mention, member, rfl⟩
    cases room with
    | zero =>
        rw [traverse_zero again] at passed
        cases passed
    | succ deeper =>
        rw [traverse_succ again here, forM_eq_ok_iff] at passed
        exact ⟨deeper, passed mention member⟩

/-- Whatever can be reached is traversed while no less is underway. -/
theorem exists_traverse_of_reaches (fails : options.cycles = .fail)
    (passed : project.traverse options room underway pair = .ok ())
    {inner : Nat × Mode} (reaches : Relation.ReflTransGen project.Writes pair inner) :
    ∃ deeper more, underway ⊆ more ∧ project.traverse options deeper more inner = .ok () := by
  induction reaches using Relation.ReflTransGen.head_induction_on generalizing room underway with
  | refl => exact ⟨room, underway, List.Subset.refl _, passed⟩
  | head writes _ ih =>
      obtain ⟨deeper, passed⟩ := (traverse_eq_ok fails passed).2 _ writes
      obtain ⟨deepest, more, includes, passed⟩ := ih passed
      exact ⟨deepest, more, fun _ member => includes (List.mem_cons_of_mem _ member), passed⟩

/-- A traversal that fails at cycles and succeeds has no cycle before it. -/
theorem not_transGen_of_traverse (fails : options.cycles = .fail)
    (passed : project.traverse options room underway pair = .ok ())
    {inner : Nat × Mode} (reaches : Relation.ReflTransGen project.Writes pair inner) :
    ¬ Relation.TransGen project.Writes inner inner := by
  intro cycle
  obtain ⟨deeper, more, -, passed⟩ := exists_traverse_of_reaches fails passed reaches
  obtain ⟨next, writes, back⟩ := Relation.TransGen.head'_iff.mp cycle
  obtain ⟨deepest, passed⟩ := (traverse_eq_ok fails passed).2 next writes
  obtain ⟨room, again, includes, passed⟩ := exists_traverse_of_reaches fails passed back
  exact (traverse_eq_ok fails passed).1 (includes List.mem_cons_self)

end Project

end CodeGraph

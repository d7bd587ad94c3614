import CodeGraph.Proofs.Stub.Simulation

/-! # Cycles

Where there is room for every construct and three more, a stub that fails at cycles fails exactly
when one can be reached (`CodeGraph.Project.stub_recursion_iff`). The pair that it reports lies on
such a cycle. A cycle never goes through long mode, since ranks fall along long steps, so it is made
of the shapes that are written inline.
-/

namespace CodeGraph

open Relation Stub

namespace Kind

/-- The kinds of types whose short text mentions others. -/
def inline : List Kind :=
  [signature, solid, structDesc, union, interfaceDesc, interfaceInst, objectInst]

end Kind

namespace Project

variable {project : Project} {pair : Nat × Mode}

/-- Along a way that ends in long mode the ranks fall. -/
theorem longRank_lt_of_transGen (coherent : Coherent project.constructs) {outer inner : Nat × Mode}
    (way : TransGen project.Writes outer inner) (long : inner.2 = .long) :
    outer.2 = .long ∧ project.longRank inner.1 < project.longRank outer.1 := by
  induction way with
  | single writes => exact writes.of_long coherent long
  | tail _ writes ih =>
      obtain ⟨longBefore, smaller⟩ := writes.of_long coherent long
      obtain ⟨longOuter, larger⟩ := ih longBefore
      exact ⟨longOuter, smaller.trans larger⟩

/-- A cycle stays in short mode. -/
theorem short_of_cycle (coherent : Coherent project.constructs)
    (cycle : TransGen project.Writes pair pair) : pair.2 = .short := by
  cases mode : pair.2 with
  | short => rfl
  | long => exact absurd (longRank_lt_of_transGen coherent cycle mode).2 (Nat.lt_irrefl _)

/-- What is written short mentions others only where it is spelled in line, or is an instance of a
method. -/
theorem inline_of_writes {inner : Nat × Mode} (writes : project.Writes pair inner)
    (short : pair.2 = .short) {construct : Construct}
    (here : project.construct? pair.1 = some construct) :
    construct.kind ∈ Kind.inline ∨ construct.kind = .methodInst := by
  obtain ⟨writer, there, mention, member, -⟩ := writes
  cases here.symm.trans there
  rw [short] at member
  cases construct with
  | basic | named | interfaceDecl | objectDecl | methodDecl | value | package => cases member
  | _ => simp [Construct.kind, Kind.inline]

/-- Nothing writes an instance of a method in short mode. -/
theorem kind_ne_methodInst (coherent : Coherent project.constructs) {outer : Nat × Mode}
    (writes : project.Writes outer pair) (short : pair.2 = .short) {construct : Construct}
    (here : project.construct? pair.1 = some construct) : construct.kind ≠ .methodInst := by
  obtain ⟨writer, there, mention, member, rfl⟩ := writes
  have other := (writer.mentions_proper outer.2 mention member).short short
  obtain ⟨target, found, accepts⟩ := exists_target_of_mention coherent there member
  cases here.symm.trans found
  intro method
  rw [method] at accepts
  cases role : mention.ref.role with
  | anyType =>
      rw [role] at accepts
      cases accepts
  | only expected =>
      rw [role, Role.accepts, decide_eq_true_iff] at accepts
      exact other (by rw [role, accepts])

/-- A cycle is made of inline shapes in short mode. -/
theorem inline_of_cycle (coherent : Coherent project.constructs)
    (cycle : TransGen project.Writes pair pair) {kind : Kind}
    (present : project.kind pair.1 = .ok kind) : pair.2 = .short ∧ kind ∈ Kind.inline := by
  have short := short_of_cycle coherent cycle
  refine ⟨short, ?_⟩
  obtain ⟨next, leaves, -⟩ := TransGen.head'_iff.mp cycle
  obtain ⟨last, -, enters⟩ := TransGen.tail'_iff.mp cycle
  obtain ⟨construct, here, rfl⟩ := kind_eq_ok_iff.mp present
  rcases inline_of_writes leaves short here with shape | method
  · exact shape
  · exact absurd method (kind_ne_methodInst coherent enters short here)

/-- **Cycles are found exactly.** Let a stub of a loaded project fail at cycles and have room for
every construct and three more. It fails with a recursion exactly when a cycle can be reached from
its construct; the recursion names a pair on such a cycle, an inline shape in short mode. Without a
cycle the stub is written. -/
theorem stub_recursion_iff {document : Node} (loaded : load document = .ok project) {id : Nat}
    (inside : id < project.size) {options : StubOptions} (fails : options.cycles = .fail)
    (room : project.size + 3 ≤ options.maxDepth) :
    ((∃ inner kind mode, project.stub options id = .error (.recursion inner kind mode)) ↔
      ∃ pair, ReflTransGen project.Writes (id, options.mode) pair ∧
        TransGen project.Writes pair pair) ∧
    (∀ inner kind mode, project.stub options id = .error (.recursion inner kind mode) →
      ReflTransGen project.Writes (id, options.mode) (inner, mode) ∧
        TransGen project.Writes (inner, mode) (inner, mode) ∧
        project.kind inner = .ok kind ∧ kind ∈ Kind.inline ∧ mode = .short) ∧
    ((¬ ∃ pair, ReflTransGen project.Writes (id, options.mode) pair ∧
        TransGen project.Writes pair pair) → ∃ text, project.stub options id = .ok text) := by
  have coherent := (coherent_of_load loaded).1
  -- With that much room, recursion is the only failure.
  have blamed : ∀ error, project.stub options id = .error error → ∃ pair kind,
      ReflTransGen project.Writes (id, options.mode) pair ∧ TransGen project.Writes pair pair ∧
        project.kind pair.1 = .ok kind ∧ error = .recursion pair.1 kind pair.2 := by
    intro error failed
    have failed := (stub_eq_error_iff coherent inside).mp failed
    rcases traverse_eq_error coherent (.start inside) failed with ⟨-, short⟩ | ⟨-, found⟩
    · rw [List.length_nil] at short
      omega
    · exact found
  have written (passed : ∃ text, project.stub options id = .ok text) (pair : Nat × Mode)
      (reaches : ReflTransGen project.Writes (id, options.mode) pair) :
      ¬ TransGen project.Writes pair pair :=
    not_transGen_of_traverse fails ((exists_stub_iff coherent inside).mp passed) reaches
  refine ⟨⟨?_, ?_⟩, ?_, ?_⟩
  · intro recursion
    rcases recursion with ⟨inner, kind, mode, failed⟩
    obtain ⟨pair, -, reaches, cycle, -⟩ := blamed _ failed
    exact ⟨pair, reaches, cycle⟩
  · intro reachable
    rcases reachable with ⟨pair, reaches, cycle⟩
    cases result : project.stub options id with
    | ok text => exact absurd cycle (written ⟨text, result⟩ pair reaches)
    | error error =>
        obtain ⟨inner, kind, -, -, -, rfl⟩ := blamed error result
        exact ⟨inner.1, kind, inner.2, rfl⟩
  · intro inner kind mode failed
    obtain ⟨pair, found, reaches, cycle, present, same⟩ := blamed _ failed
    cases same
    obtain ⟨short, shape⟩ := inline_of_cycle coherent cycle present
    exact ⟨reaches, cycle, present, shape, short⟩
  · intro acyclic
    cases result : project.stub options id with
    | ok text => exact ⟨text, rfl⟩
    | error error =>
        obtain ⟨pair, -, reaches, cycle, -⟩ := blamed error result
        exact absurd ⟨pair, reaches, cycle⟩ acyclic

/-- The structure that mentions itself is such a cycle. -/
theorem stub_recursion_sample :
    load Sample.document = .ok Sample.project ∧ 2 < Sample.project.size ∧
      StubOptions.standard.cycles = .fail ∧
      Sample.project.size + 3 ≤ StubOptions.standard.maxDepth ∧
      ∃ inner kind mode,
        Sample.project.stub .standard 2 = .error (.recursion inner kind mode) := by
  have inside : 2 < Sample.project.size := by decide
  have room : Sample.project.size + 3 ≤ StubOptions.standard.maxDepth := by decide
  have writes (mode : Mode) : Sample.project.Writes (2, mode) (2, .short) := by
    cases mode <;> exact ⟨_, rfl, .short (⟨2⟩ : TypeRef), by decide, rfl⟩
  refine ⟨Sample.load_document, inside, rfl, room, ?_⟩
  exact (stub_recursion_iff Sample.load_document inside rfl room).1.mpr
    ⟨(2, .short), .single (writes .long), .single (writes .short)⟩

end Project

end CodeGraph

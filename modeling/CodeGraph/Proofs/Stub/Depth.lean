import CodeGraph.Proofs.Stub.Bodies
import Mathlib.Data.Nat.Find

/-! # The depth of a stub

With more room a stub goes on where it stopped for lack of room, and does the same otherwise. So
every construct of a loaded project has a threshold, at most three more than there are constructs,
below which its stub is too deep and from which on nothing changes
(`CodeGraph.Project.stub_depth_threshold`).
-/

namespace CodeGraph

open Stub

/-- The transcript with a higher limit of depth. -/
def Transcript.raise (extra : Nat) (transcript : Transcript) : Transcript :=
  { transcript with
    options := { transcript.options with maxDepth := transcript.options.maxDepth + extra } }

/-- Text is written under any limit. -/
theorem Transcript.raise_write (extra : Nat) (text : String) (transcript : Transcript) :
    (transcript.raise extra).write text = (transcript.write text).raise extra := by
  unfold Transcript.write
  split
  · rfl
  · show (if transcript.atLineStart = true then _ else _) = _
    split <;> rfl

namespace Writer

/-- A writer does not stop for lack of room. -/
def Roomy (writer : Writer Unit) (transcript : Transcript) : Prop :=
  ∀ limit, (writer transcript).1 ≠ .error (.tooDeep limit)

/-- Where there is just so much room and the first writer does not stop for lack of it, the second
one does the same under a higher limit of depth. A first writer that succeeds keeps what decides how
writing goes on, so there is as much room behind it as before. -/
structure Deepens (room extra : Nat) (writer deeper : Writer Unit) : Prop where
  same : ∀ transcript, transcript.HasRoom room → writer.Roomy transcript →
    deeper (transcript.raise extra) =
      ((writer transcript).1, (writer transcript).2.raise extra)
  keeps : ∀ transcript, transcript.HasRoom room → (writer transcript).1 = .ok () →
    (writer transcript).2.control = transcript.control

/-- Deepening goes along with how texts are put together. -/
theorem deepens_congruent (room extra : Nat) : Congruent (Deepens room extra) where
  nothing := ⟨fun _ _ _ => rfl, fun _ _ _ => rfl⟩
  write text := by
    refine ⟨fun transcript _ _ => ?_, fun transcript _ _ => transcript.control_write text⟩
    show (_, _) = (_, _)
    rw [Transcript.raise_write]
    rfl
  newline := ⟨fun _ _ _ => rfl, fun _ _ _ => rfl⟩
  seq := by
    intro first same second alike here there
    have stopped {transcript : Transcript} {error : StubError}
        (outcome : (first transcript).1 = .error error) :
        (do first; second : Writer Unit) transcript = first transcript := by
      rw [seq_apply, outcome]
    have passed {transcript : Transcript} (outcome : (first transcript).1 = .ok ()) :
        (do first; second : Writer Unit) transcript = second (first transcript).2 := by
      rw [seq_apply, outcome]
    have sameRoom {transcript : Transcript} (ample : transcript.HasRoom room)
        (outcome : (first transcript).1 = .ok ()) : (first transcript).2.HasRoom room := by
      rw [Transcript.HasRoom, here.keeps transcript ample outcome]
      exact ample
    constructor
    · intro transcript ample roomy
      cases outcome : (first transcript).1 with
      | error error =>
          have sameStep := here.same transcript ample fun limit => by
            rw [← stopped outcome]
            exact roomy limit
          rw [seq_apply, sameStep, outcome, stopped outcome, outcome]
      | ok value =>
          have sameStep := here.same transcript ample fun limit => by
            simp [outcome]
          rw [seq_apply, sameStep, outcome, passed outcome]
          apply there.same _ (sameRoom ample outcome)
          intro limit
          rw [← passed outcome]
          exact roomy limit
    · intro transcript ample succeeded
      cases outcome : (first transcript).1 with
      | error error =>
          rw [stopped outcome, outcome] at succeeded
          cases succeeded
      | ok value =>
          rw [passed outcome] at succeeded ⊢
          exact (there.keeps _ (sameRoom ample outcome) succeeded).trans
            (here.keeps transcript ample outcome)
  indented := by
    intro body same here
    constructor
    · intro transcript ample roomy
      have inner := here.same { transcript with indent := transcript.indent + 1 } ample roomy
      exact congrArg (fun run => (run.1, { run.2 with indent := run.2.indent - 1 })) inner
    · intro transcript ample succeeded
      exact here.keeps { transcript with indent := transcript.indent + 1 } ample succeeded

namespace Deepens

variable {room extra : Nat} {body same : Writer Unit}

/-- A change of mode deepens if its body does. -/
theorem inMode (here : Deepens room extra body same) (mode : Mode) :
    Deepens room extra (Writer.inMode mode body) (Writer.inMode mode same) := by
  constructor
  · intro transcript ample roomy
    have inner := here.same { transcript with mode } ample roomy
    exact congrArg (fun run => (run.1, { run.2 with mode := transcript.mode })) inner
  · intro transcript ample succeeded
    have kept := here.keeps { transcript with mode } ample succeeded
    exact congrArg (fun control => { control with mode := transcript.mode }) kept

/-- A construct deepens if what is written within it does. -/
theorem underway (here : Deepens room extra body same) (id : Nat) :
    Deepens (room + 1) extra (Writer.underway id body) (Writer.underway id same) := by
  constructor
  · intro transcript ample roomy
    have inner := here.same (transcript.within id) (ample.within id) roomy
    exact congrArg (fun run =>
      (run.1, { run.2 with depth := run.2.depth - 1 }.remove (id, transcript.mode))) inner
  · intro transcript ample succeeded
    exact underway_control (here.keeps (transcript.within id) (ample.within id) succeeded)

end Deepens

end Writer

namespace Stub

open Writer

variable {project : Project}

/-- What stands in for a cycle does not depend on the limit. -/
theorem writeCycle_raise (extra id : Nat) (transcript : Transcript) :
    writeCycle project id (transcript.raise extra) =
      ((writeCycle project id transcript).1,
        (writeCycle project id transcript).2.raise extra) := by
  cases kind : project.kind id with
  | error fault => simp only [writeCycle, kind]
  | ok kind =>
      cases policy : transcript.options.cycles with
      | fail =>
          have same : (transcript.raise extra).options.cycles = .fail := policy
          simp only [writeCycle, kind, policy, same]
          rfl
      | mark =>
          have same : (transcript.raise extra).options.cycles = .mark := policy
          simp only [writeCycle, kind, policy, same, Transcript.raise_write]
          rfl

/-- A construct that is underway is treated alike whatever the room, so only fresh ones matter. -/
theorem deepens_of_fresh {room extra : Nat} {form : Form} {id : Nat}
    (fresh : ∀ transcript, transcript.HasRoom room → (id, transcript.mode) ∉ transcript.underway →
      (Roomy (writeWithin project room form id) transcript →
        writeWithin project (room + extra) form id (transcript.raise extra) =
          ((writeWithin project room form id transcript).1,
            (writeWithin project room form id transcript).2.raise extra)) ∧
      ((writeWithin project room form id transcript).1 = .ok () →
        (writeWithin project room form id transcript).2.control = transcript.control)) :
    Deepens room extra (writeWithin project room form id)
      (writeWithin project (room + extra) form id) := by
  constructor
  · intro transcript ample
    by_cases again : (id, transcript.mode) ∈ transcript.underway
    · intro _
      have againHigher : (id, (transcript.raise extra).mode) ∈ (transcript.raise extra).underway :=
        again
      rw [writeWithin_again again, writeWithin_again againHigher]
      exact writeCycle_raise extra id transcript
    · exact (fresh transcript ample again).1
  · intro transcript ample
    by_cases again : (id, transcript.mode) ∈ transcript.underway
    · rw [writeWithin_again again]
      exact (writeCycle_outcome transcript.control id).keeps transcript rfl
    · exact (fresh transcript ample again).2

/-- Where a stub does not stop for lack of room, more room changes nothing. -/
theorem writeWithin_deepens (room extra : Nat) (form : Form) (id : Nat) :
    Deepens room extra (writeWithin project room form id)
      (writeWithin project (room + extra) form id) := by
  induction room generalizing form id with
  | zero =>
      apply deepens_of_fresh
      intro transcript ample again
      have stopped := @writeWithin_full project id transcript again (Nat.le_of_eq ample.symm) 0 form
      refine ⟨fun roomy => absurd (congrArg Prod.fst stopped) (roomy _), fun succeeded => ?_⟩
      rw [stopped] at succeeded
      cases succeeded
  | succ room ih =>
      apply deepens_of_fresh
      intro transcript ample again
      have below := ample.depth_lt
      have belowHigher :
          (transcript.raise extra).depth < (transcript.raise extra).options.maxDepth :=
        Nat.lt_add_right extra below
      rw [Nat.add_right_comm]
      cases present : project.construct id with
      | error fault =>
          have outside (room : Nat) {entry : Transcript} (fresh : (id, entry.mode) ∉ entry.underway)
              (below : entry.depth < entry.options.maxDepth) :
              writeWithin project (room + 1) form id entry =
                (.error (.outOfBounds fault), entry.within id) :=
            guarded_outside fresh below present _
          rw [outside room again below,
            @outside (room + extra) (transcript.raise extra) again belowHigher]
          exact ⟨fun _ => rfl, nofun⟩
      | ok construct =>
          have here : project.construct? id = some construct :=
            Project.construct_eq_ok_iff.mp present
          obtain ⟨mentions, text, spelled, equal⟩ := exists_spells transcript.mode form construct
          have deepens : Deepens room extra (text (writeWithin project room))
              (text (writeWithin project (room + extra))) := by
            apply spelled.related (deepens_congruent room extra)
            intro mention _
            exact (ih mention.form mention.ref.id).inMode mention.mode
          have entered (room : Nat) {entry : Transcript} (same : entry.mode = transcript.mode)
              (fresh : (id, entry.mode) ∉ entry.underway)
              (below : entry.depth < entry.options.maxDepth) :
              writeWithin project (room + 1) form id entry =
                underway id (text (writeWithin project room)) entry :=
            (guarded_fresh fresh below here _).trans (underway_congr (equal _ _ same))
          have shallow := entered room rfl again below
          have deep := @entered (room + extra) (transcript.raise extra) rfl again belowHigher
          rw [Roomy, shallow, deep]
          exact ⟨(deepens.underway id).same transcript ample,
            (deepens.underway id).keeps transcript ample⟩

end Stub

namespace Project

variable {project : Project} {mode : Mode} {cycles : CyclePolicy} {id : Nat}

/-- Raising the limit changes no stub but those that are too deep. -/
theorem stub_raise {limit higher : Nat} (raised : limit ≤ higher)
    (roomy : ∀ other, project.stub ⟨mode, cycles, limit⟩ id ≠ .error (.tooDeep other)) :
    project.stub ⟨mode, cycles, higher⟩ id = project.stub ⟨mode, cycles, limit⟩ id := by
  obtain ⟨extra, rfl⟩ := Nat.exists_eq_add_of_le raised
  have written :
      writeWithin project (limit + extra) .whole id (.start ⟨mode, cycles, limit + extra⟩) = _ :=
    (writeWithin_deepens limit extra .whole id).same (.start ⟨mode, cycles, limit⟩)
      (Transcript.hasRoom_start _) ?_
  · rw [stub_eq, stub_eq, written]
    rfl
  · intro other failed
    apply roomy other
    rw [stub_eq, failed]
    rfl

/-- A stub fails for lack of room only below the number of constructs and three more, and for no
other reason where cycles are marked. -/
theorem stub_eq_error (coherent : Coherent project.constructs) (inside : id < project.size)
    {limit : Nat} {error : StubError}
    (failed : project.stub ⟨mode, cycles, limit⟩ id = .error error) :
    error = .tooDeep limit ∧ limit < project.size + 3 ∨
      cycles = .fail ∧ ∀ other, error ≠ .tooDeep other := by
  have failed := (stub_eq_error_iff coherent inside).mp failed
  rcases traverse_eq_error coherent (.start inside) failed with
    ⟨deep, bound⟩ | ⟨fails, pair, kind, -, -, -, rfl⟩
  · exact .inl ⟨deep, bound⟩
  · exact .inr ⟨fails, nofun⟩

/-- Without any depth nothing can be written. -/
theorem stub_zero (coherent : Coherent project.constructs) (inside : id < project.size) :
    project.stub ⟨mode, cycles, 0⟩ id = .error (.tooDeep 0) :=
  (stub_eq_error_iff coherent inside).mpr (traverse_zero List.not_mem_nil)

/-- **The depth of a stub has a threshold.** For every construct of a loaded project there is a
depth, at least one and at most three more than there are constructs, below which its stub is too
deep and from which on it is one and the same: never too deep, and written where cycles are marked.
Raising the limit never changes a stub that is written. No chain of texts within texts holds more
than three long ones, and a stub would not notice what its texts did if there were more. -/
theorem stub_depth_threshold {document : Node} (loaded : load document = .ok project)
    (inside : id < project.size) (mode : Mode) (cycles : CyclePolicy) :
    (∃ depth result, 1 ≤ depth ∧ depth ≤ project.size + 3 ∧
      (∀ limit < depth, project.stub ⟨mode, cycles, limit⟩ id = .error (.tooDeep limit)) ∧
      (∀ limit, depth ≤ limit → project.stub ⟨mode, cycles, limit⟩ id = result) ∧
      (∀ limit, result ≠ .error (.tooDeep limit)) ∧
      (cycles = .mark → ∃ text, result = .ok text)) ∧
    (∀ limit higher text, limit ≤ higher → project.stub ⟨mode, cycles, limit⟩ id = .ok text →
      project.stub ⟨mode, cycles, higher⟩ id = .ok text) ∧
    (∀ chain : List (Nat × Mode), chain.IsChain (fun inner outer => project.Writes outer inner) →
      chain.countP (·.2 = .long) ≤ 3) ∧
    (∀ body : Body,
      (∀ visit form construct transcript, transcript.underway.countP (·.2 = .long) ≤ 3 →
        body visit form construct transcript = writeConstruct visit form construct transcript) →
      ∀ limit, project.stubBy body ⟨mode, cycles, limit⟩ id =
        project.stub ⟨mode, cycles, limit⟩ id) := by
  have coherent := (coherent_of_load loaded).1
  refine ⟨?_, ?_, ?_, ?_⟩
  · classical
    have ample (other : Nat) :
        project.stub ⟨mode, cycles, project.size + 3⟩ id ≠ .error (.tooDeep other) := by
      intro failed
      rcases stub_eq_error coherent inside failed with ⟨-, bound⟩ | ⟨-, different⟩
      · exact absurd bound (Nat.lt_irrefl _)
      · exact different other rfl
    have enough : ∃ depth, ∀ other,
        project.stub ⟨mode, cycles, depth⟩ id ≠ .error (.tooDeep other) := ⟨_, ample⟩
    have roomy := Nat.find_spec enough
    refine ⟨Nat.find enough, project.stub ⟨mode, cycles, Nat.find enough⟩ id,
      ?_, Nat.find_min' enough ample, ?_, ?_, roomy, ?_⟩
    · apply Nat.one_le_iff_ne_zero.mpr
      intro zero
      rw [zero] at roomy
      exact roomy 0 (stub_zero coherent inside)
    · intro limit below
      obtain ⟨other, failed⟩ := not_forall_not.mp (Nat.find_min enough below)
      rcases stub_eq_error coherent inside failed with ⟨deep, -⟩ | ⟨-, different⟩
      · rw [failed, deep]
      · exact absurd rfl (different other)
    · intro limit above
      exact stub_raise above roomy
    · rintro rfl
      cases result : project.stub ⟨mode, .mark, Nat.find enough⟩ id with
      | ok text => exact ⟨text, rfl⟩
      | error error =>
          rcases stub_eq_error coherent inside result with ⟨rfl, -⟩ | ⟨impossible, -⟩
          · exact absurd result (roomy _)
          · cases impossible
  · intro limit higher text raised written
    rw [← written]
    apply stub_raise raised
    intro other failed
    cases written.symm.trans failed
  · intro chain linked
    exact countP_long_le coherent linked
  · intro body same limit
    apply stubBy_eq coherent _ inside
    intro visit form construct transcript begun
    exact same visit form construct transcript (countP_long_le coherent begun.nested.linked)

/-- The declaration of a generic list goes through a cycle, and is written all the same from some
depth on where cycles are marked. -/
theorem stub_depth_sample :
    load Sample.document = .ok Sample.project ∧ 4 < Sample.project.size ∧
      ∃ depth text, depth ≤ Sample.project.size + 3 ∧
        ∀ limit, depth ≤ limit → Sample.project.stub ⟨.long, .mark, limit⟩ 4 = .ok text := by
  have inside : 4 < Sample.project.size := by decide
  refine ⟨Sample.load_document, inside, ?_⟩
  obtain ⟨depth, result, -, bound, -, same, -, written⟩ :=
    (stub_depth_threshold Sample.load_document inside .long .mark).1
  obtain ⟨text, rfl⟩ := written rfl
  exact ⟨depth, text, bound, same⟩

end Project

end CodeGraph

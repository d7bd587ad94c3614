import CodeGraph.Proofs.Stub.Bodies
import CodeGraph.Proofs.Stub.Renaming

/-! # Stubs of renumbered constructs

A project may hold a renamed copy of another one (`CodeGraph.Project.Renumbered`). Under the policy
to fail at cycles no text shows an id, so the writer of a copy echoes that of the original: it adds
the same text, or fails with the renamed failure (`CodeGraph.Stub.writeWithin_echoes`). What was
underway before only counts as far as it can be reached.
-/

namespace CodeGraph

open Relation Stub

namespace StubError

/-- The failure with its construct renamed. -/
def rename (f : Nat → Nat) : StubError → StubError
  | recursion id kind mode => recursion (f id) kind mode
  | tooDeep limit => tooDeep limit
  | outOfBounds fault => outOfBounds fault

end StubError

namespace Transcript

/-- The transcript with its text, as it goes on under a control. -/
def under (control : Control) (transcript : Transcript) : Transcript :=
  { transcript with
    options := control.options
    mode := control.mode
    underway := control.underway
    depth := control.depth }

/-- Text is written under any control. -/
theorem under_write (control : Control) (text : String) (transcript : Transcript) :
    (transcript.write text).under control = (transcript.under control).write text := by
  unfold write under
  split
  · rfl
  · split <;> rfl

/-- What comes behind the text of a construct goes on under the control before. -/
theorem under_leave {id echoId : Nat} {mode : Mode} (other : Control) (transcript : Transcript) :
    { transcript.under (other.within echoId) with
        depth := (transcript.under (other.within echoId)).depth - 1 }.remove (echoId, other.mode) =
      ({ transcript with depth := transcript.depth - 1 }.remove (id, mode)).under other := by
  simp only [remove, under, Control.within, List.erase_cons_head, Nat.add_sub_cancel]

end Transcript

namespace Writer

/-- Under its control, `echo` adds the text that `writer` adds under its own, and fails as `cause`
makes of the failure of `writer`. -/
structure Echoes (control other : Control) (cause : StubError → StubError)
    (writer echo : Writer Unit) : Prop where
  outcome : ∃ result, Outcome control writer result
  same : ∀ transcript, transcript.control = control →
    echo (transcript.under other) =
      ((writer transcript).1.mapError cause, (writer transcript).2.under other)

variable {control other : Control} {cause : StubError → StubError}

/-- Echoes go along with how texts are put together. -/
theorem echoes_congruent (control other : Control) (cause : StubError → StubError) :
    Congruent (Echoes control other cause) where
  nothing := ⟨⟨_, .nothing⟩, fun _ _ => rfl⟩
  write text := ⟨⟨_, .write text⟩, fun transcript _ =>
    congrArg (Prod.mk _) (transcript.under_write other text).symm⟩
  newline := ⟨⟨_, .newline⟩, fun _ _ => rfl⟩
  seq := by
    intro first firstEcho second secondEcho firstEchoes secondEchoes
    rcases firstEchoes with ⟨⟨result, here⟩, same⟩
    rcases secondEchoes with ⟨⟨later, there⟩, laterSame⟩
    refine ⟨⟨_, here.seq there⟩, ?_⟩
    intro transcript controlled
    rw [seq_apply, seq_apply, same transcript controlled]
    cases outcome : (first transcript).1 with
    | error error => simp only [outcome, Except.mapError]
    | ok value => exact laterSame _ (here.keeps transcript controlled outcome)
  indented := by
    intro body echo echoes
    rcases echoes with ⟨⟨result, here⟩, same⟩
    refine ⟨⟨_, here.indented⟩, ?_⟩
    rintro transcript rfl
    have alike := same { transcript with indent := transcript.indent + 1 } rfl
    exact congrArg (fun run => (run.1, { run.2 with indent := run.2.indent - 1 })) alike

namespace Echoes

theorem of_eq {writer simpler echo simplerEcho : Writer Unit}
    (echoes : Echoes control other cause simpler simplerEcho)
    (equal : ∀ transcript, transcript.control = control → writer transcript = simpler transcript)
    (echoEqual : ∀ transcript, transcript.control = other →
      echo transcript = simplerEcho transcript) :
    Echoes control other cause writer echo := by
  obtain ⟨⟨result, here⟩, same⟩ := echoes
  refine ⟨⟨result, here.of_eq equal⟩, ?_⟩
  intro transcript controlled
  rw [equal transcript controlled, echoEqual (transcript.under other) rfl]
  exact same transcript controlled

/-- A change of mode echoes if its body does. -/
theorem inMode {mode : Mode} {body echo : Writer Unit}
    (echoes : Echoes { control with mode } { other with mode } cause body echo) :
    Echoes control other cause (Writer.inMode mode body) (Writer.inMode mode echo) := by
  obtain ⟨⟨result, here⟩, same⟩ := echoes
  refine ⟨⟨result, here.inMode⟩, ?_⟩
  rintro transcript rfl
  have alike := same { transcript with mode } rfl
  exact congrArg (fun run => (run.1, { run.2 with mode := other.mode })) alike

/-- A construct echoes if what is written within it does. -/
theorem underway {id echoId : Nat} {body echo : Writer Unit}
    (echoes : Echoes (control.within id) (other.within echoId) cause body echo) :
    Echoes control other cause (Writer.underway id body) (Writer.underway echoId echo) := by
  obtain ⟨⟨result, here⟩, same⟩ := echoes
  refine ⟨⟨result, here.underway⟩, ?_⟩
  rintro transcript rfl
  have alike := same (transcript.within id) rfl
  have left := congrArg (fun run =>
    (run.1, { run.2 with depth := run.2.depth - 1 }.remove (echoId, other.mode))) alike
  exact left.trans (congrArg (Prod.mk _) (Transcript.under_leave other _))

end Echoes

end Writer

namespace Project

/-- The project `other` holds a copy of each construct of `project`, with its references renamed.
Where declarations stand, who owns them and what instances they have is left open. -/
structure Renumbered (project other : Project) (f : Nat → Nat) : Prop where
  injective : ∀ {first second : Nat}, first < project.size → second < project.size →
    f first = f second → first = second
  renamed : ∀ {id : Nat} {construct : Construct}, project.construct? id = some construct →
    ∃ copy, other.construct? (f id) = some copy ∧ copy.bare = (construct.rename f).bare

namespace Renumbered

variable {project other : Project} {f : Nat → Nat} (renumbered : Renumbered project other f)

include renumbered

/-- Renumbered ids have the same kinds. -/
theorem kind {id : Nat} {kind : Kind} (present : project.kind id = .ok kind) :
    other.kind (f id) = .ok kind := by
  obtain ⟨construct, here, rfl⟩ := kind_eq_ok_iff.mp present
  obtain ⟨copy, there, bare⟩ := renumbered.renamed here
  refine kind_eq_ok_iff.mpr ⟨copy, there, ?_⟩
  rw [← copy.kind_bare, bare, Construct.kind_bare, Construct.kind_rename]

/-- The text of a copy visits the copies of what the text of the original visits. -/
theorem writeConstruct {id : Nat} {construct : Construct}
    (here : project.construct? id = some construct) :
    ∃ copy, other.construct? (f id) = some copy ∧ ∀ visit form,
      Stub.writeConstruct visit form copy =
        Stub.writeConstruct (visitRenamed visit f) form construct := by
  obtain ⟨copy, there, bare⟩ := renumbered.renamed here
  refine ⟨copy, there, fun visit form => ?_⟩
  rw [← writeConstruct_bare, bare, writeConstruct_bare, writeConstruct_rename]

/-- Inside the arena, no two constructs in a mode are renumbered alike. -/
theorem pair_inj {first second : Nat × Mode} (firstInside : first.1 < project.size)
    (secondInside : second.1 < project.size) :
    (f first.1, first.2) = (f second.1, second.2) ↔ first = second := by
  simp only [Prod.ext_iff]
  exact and_congr_left fun _ =>
    ⟨renumbered.injective firstInside secondInside, fun same => congrArg f same⟩

end Renumbered

/-- A project is itself renumbered by nothing. -/
theorem Renumbered.refl (project : Project) : project.Renumbered project id where
  injective := fun _ _ same => same
  renamed := fun {_ construct} here => ⟨construct, here, by rw [construct.rename_id]⟩

/-- What is reached from inside the arena is inside. -/
theorem inside_of_reaches {project : Project} (coherent : Coherent project.constructs)
    {outer inner : Nat × Mode} (inside : outer.1 < project.size)
    (reaches : ReflTransGen project.Writes outer inner) : inner.1 < project.size := by
  cases reaches with
  | refl => exact inside
  | tail _ writes => exact writes.inside coherent

end Project

namespace Stub

open Writer

variable {project other : Project} {f : Nat → Nat}

/-- Two controls decide alike for a construct and its copy. Cycles make both stubs fail, and what
can be reached is underway in both or in neither. -/
structure Beside (project : Project) (f : Nat → Nat) (id : Nat) (control copied : Control) :
    Prop where
  mode : copied.mode = control.mode
  depth : copied.depth = control.depth
  limit : copied.options.maxDepth = control.options.maxDepth
  fails : control.options.cycles = .fail
  copyFails : copied.options.cycles = .fail
  alike : ∀ pair, ReflTransGen project.Writes (id, control.mode) pair →
    (pair ∈ control.underway ↔ (f pair.1, pair.2) ∈ copied.underway)

namespace Beside

variable {id : Nat} {control copied : Control} (beside : Beside project f id control copied)

include beside

/-- A construct is underway exactly if its copy is. -/
theorem again_iff :
    (id, control.mode) ∈ control.underway ↔ (f id, copied.mode) ∈ copied.underway := by
  rw [beside.mode]
  exact beside.alike _ .refl

/-- Two controls still decide alike within the construct and its copy. -/
theorem next (coherent : Coherent project.constructs) (renumbered : project.Renumbered other f)
    (inside : id < project.size) {inner : Nat} {mode : Mode}
    (writes : project.Writes (id, control.mode) (inner, mode)) :
    Beside project f inner { control.within id with mode } { copied.within (f id) with mode } where
  mode := rfl
  depth := congrArg (· + 1) beside.depth
  limit := beside.limit
  fails := beside.fails
  copyFails := beside.copyFails
  alike := by
    intro pair reaches
    have pairInside := Project.inside_of_reaches coherent (writes.inside coherent) reaches
    have entered : _ ↔ pair = (id, control.mode) := renumbered.pair_inj pairInside inside
    simp only [Control.within]
    rw [List.mem_cons, List.mem_cons, beside.mode, beside.alike pair (.head writes reaches),
      ← entered]

end Beside

/-- Where both are underway, both fail at a cycle. -/
theorem writeWithin_echoes_again (renumbered : project.Renumbered other f) {id : Nat}
    (inside : id < project.size) {control copied : Control}
    (beside : Beside project f id control copied)
    (again : (id, control.mode) ∈ control.underway) (room : Nat) (form : Form) :
    Echoes control copied (StubError.rename f) (writeWithin project room form id)
      (writeWithin other room form (f id)) := by
  have cycle : Echoes control copied (StubError.rename f) (writeCycle project id)
      (writeCycle other (f id)) := by
    refine ⟨⟨_, writeCycle_outcome control id⟩, ?_⟩
    rintro transcript rfl
    obtain ⟨construct, here⟩ := Project.exists_construct_of_inside inside
    have kind : project.kind id = .ok construct.kind :=
      Project.kind_eq_ok_iff.mpr ⟨construct, here, rfl⟩
    have policy : transcript.options.cycles = .fail := beside.fails
    have copyPolicy : (transcript.under copied).options.cycles = .fail := beside.copyFails
    have mode : (transcript.under copied).mode = transcript.mode := beside.mode
    simp only [writeCycle, kind, renumbered.kind kind, policy, copyPolicy, mode]
    rfl
  apply cycle.of_eq
  · rintro transcript rfl
    exact writeWithin_again again room form
  · rintro transcript rfl
    exact writeWithin_again (beside.again_iff.mp again) room form

/-- Where neither is underway and there is no room, both fail for lack of it. -/
theorem writeWithin_echoes_zero (coherent : Coherent project.constructs) {id : Nat}
    (inside : id < project.size) {control copied : Control}
    (beside : Beside project f id control copied) (ample : control.HasRoom 0) {form : Form}
    (suits : Suits project (id, control.mode) form)
    (fresh : (id, control.mode) ∉ control.underway) :
    Echoes control copied (StubError.rename f) (writeWithin project 0 form id)
      (writeWithin other 0 form (f id)) := by
  refine ⟨⟨_, writeWithin_outcome coherent ample inside suits⟩, ?_⟩
  rintro transcript rfl
  have copyFresh : (f id, (transcript.under copied).mode) ∉ (transcript.under copied).underway :=
    fun copyAgain => fresh (beside.again_iff.mpr copyAgain)
  have limit : (transcript.under copied).options.maxDepth = transcript.options.maxDepth :=
    beside.limit
  have full : transcript.options.maxDepth ≤ transcript.depth := Nat.le_of_eq ample.symm
  have copyFull : (transcript.under copied).options.maxDepth ≤ (transcript.under copied).depth := by
    show copied.options.maxDepth ≤ copied.depth
    rw [beside.limit, beside.depth]
    exact full
  rw [writeWithin_full fresh full, writeWithin_full copyFresh copyFull, limit]
  rfl

/-- **A copy is written as its original.** Where two controls decide alike, the writer of a copy
echoes that of the original, with failures renamed. -/
theorem writeWithin_echoes (coherent : Coherent project.constructs)
    (renumbered : project.Renumbered other f) {room : Nat} {form : Form} {id : Nat}
    {control copied : Control} (inside : id < project.size)
    (suits : Suits project (id, control.mode) form)
    (beside : Beside project f id control copied) (ample : control.HasRoom room) :
    Echoes control copied (StubError.rename f) (writeWithin project room form id)
      (writeWithin other room form (f id)) := by
  induction room generalizing form id control copied with
  | zero =>
      by_cases again : (id, control.mode) ∈ control.underway
      · exact writeWithin_echoes_again renumbered inside beside again 0 form
      · exact writeWithin_echoes_zero coherent inside beside ample suits again
  | succ room ih =>
      by_cases again : (id, control.mode) ∈ control.underway
      · exact writeWithin_echoes_again renumbered inside beside again (room + 1) form
      · obtain ⟨construct, here⟩ := Project.exists_construct_of_inside inside
        obtain ⟨copy, there, visits⟩ := renumbered.writeConstruct here
        obtain ⟨text, spelled, equal⟩ := suits.spells here
        have echoes : Echoes (control.within id) (copied.within (f id)) (StubError.rename f)
            (text (writeWithin project room))
            (text (visitRenamed (writeWithin other room) f)) := by
          apply spelled.related (echoes_congruent _ _ _)
          intro mention member
          have writes : project.Writes (id, control.mode) mention.target :=
            ⟨construct, here, mention, member, rfl⟩
          exact (ih (writes.inside coherent) (suits_of_mention coherent here member)
            (beside.next coherent renumbered inside writes) (ample.within id)).inMode
        apply echoes.underway.of_eq
        · rintro transcript rfl
          exact (guarded_fresh again ample.depth_lt here _).trans
            (underway_congr (equal _ _ rfl))
        · rintro transcript rfl
          have fresh : (f id, transcript.mode) ∉ transcript.underway := fun copyAgain =>
            again (beside.again_iff.mpr copyAgain)
          have below : transcript.depth < transcript.options.maxDepth := by
            have room : control.depth < control.options.maxDepth := ample.depth_lt
            rw [← beside.depth, ← beside.limit] at room
            exact room
          apply (guarded_fresh fresh below there _).trans
          rw [visits]
          exact underway_congr (equal _ _ beside.mode)

end Stub

namespace Project

variable {project other : Project} {f : Nat → Nat}

/-- The stub of a copy is that of the original, with failures renamed. -/
theorem Renumbered.stub_eq (coherent : Coherent project.constructs)
    (renumbered : project.Renumbered other f) {options : StubOptions}
    (fails : options.cycles = .fail) {id : Nat} (inside : id < project.size) :
    other.stub options (f id) = (project.stub options id).mapError (StubError.rename f) := by
  let control : Control := (Transcript.start options).control
  have beside : Beside project f id control control :=
    ⟨rfl, rfl, rfl, fails, fails, by simp [control, Transcript.control, Transcript.start]⟩
  have echoes : Writer.Echoes control control (StubError.rename f)
      (writeWithin project options.maxDepth .whole id)
      (writeWithin other options.maxDepth .whole (f id)) :=
    writeWithin_echoes coherent renumbered inside trivial beside (Transcript.hasRoom_start options)
  have written : writeWithin other options.maxDepth .whole (f id) (.start options) = _ :=
    echoes.same (.start options) rfl
  rw [Project.stub_eq, Project.stub_eq, written]
  cases (writeWithin project options.maxDepth .whole id (.start options)).1 <;> rfl

end Project

end CodeGraph

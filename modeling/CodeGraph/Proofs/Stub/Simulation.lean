import CodeGraph.Proofs.Stub.Layout
import CodeGraph.Proofs.Stub.Traversal

/-! # Stubs follow their traversals

In a coherent project the writer of a construct comes to what the traversal from the construct comes
to (`CodeGraph.Stub.writeWithin_outcome`), so a stub succeeds and fails as its traversal does. The
invariant is that a writer that succeeds leaves what decides how writing goes on as it was.
-/

namespace CodeGraph

open Stub

/-- What decides how writing goes on, but for the indentation. -/
structure Control where
  options : StubOptions
  mode : Mode
  underway : List (Nat × Mode)
  depth : Nat

namespace Control

/-- The control within the text of a construct. -/
def within (id : Nat) (control : Control) : Control :=
  { control with
    underway := (id, control.mode) :: control.underway
    depth := control.depth + 1 }

/-- There is room for just so many constructs more within each other. -/
def HasRoom (control : Control) (room : Nat) : Prop :=
  control.depth + room = control.options.maxDepth

/-- Within a construct there is room for one level less. -/
theorem HasRoom.within {control : Control} {room : Nat} (ample : control.HasRoom (room + 1))
    (id : Nat) : (control.within id).HasRoom room := by
  simp only [HasRoom, Control.within] at ample ⊢
  omega

/-- Where there is room, the depth is below its limit. -/
theorem HasRoom.depth_lt {control : Control} {room : Nat} (ample : control.HasRoom (room + 1)) :
    control.depth < control.options.maxDepth := by
  simp only [HasRoom] at ample
  omega

end Control

namespace Transcript

/-- What decides how writing to a transcript goes on. -/
def control (transcript : Transcript) : Control :=
  ⟨transcript.options, transcript.mode, transcript.underway, transcript.depth⟩

/-- The transcript within the text of a construct that begins in its mode. -/
def within (id : Nat) (transcript : Transcript) : Transcript :=
  { transcript with
    underway := (id, transcript.mode) :: transcript.underway
    depth := transcript.depth + 1 }

/-- There is room for just so many constructs more within each other. -/
abbrev HasRoom (transcript : Transcript) (room : Nat) : Prop := transcript.control.HasRoom room

/-- At the start there is room for the whole depth. -/
theorem hasRoom_start (options : StubOptions) :
    (Transcript.start options).HasRoom options.maxDepth := Nat.zero_add _

@[simp]
theorem control_write (text : String) (transcript : Transcript) :
    (transcript.write text).control = transcript.control := by
  unfold Transcript.write
  split
  · rfl
  · split <;> rfl

end Transcript

namespace Writer

/-- Writes what stands within a construct: it is put underway, one level deeper, and both is taken
back behind it. -/
def underway (id : Nat) (body : Writer Unit) : Writer Unit := fun transcript =>
  let (result, after) := body (transcript.within id)
  (result, { after with depth := after.depth - 1 }.remove (id, transcript.mode))

/-- Two texts are written one after the other, up to a failure of the first. -/
theorem seq_apply (first second : Writer Unit) (transcript : Transcript) :
    (do first; second : Writer Unit) transcript =
      match (first transcript).1 with
      | .ok () => second (first transcript).2
      | .error _ => first transcript := by
  simp only [bind, ExceptT.bind, ExceptT.mk, StateT.bind]
  rcases first transcript with ⟨_ | _, after⟩ <;> rfl

/-- What is written within a construct matters only from there on. -/
theorem underway_congr {id : Nat} {body other : Writer Unit} {transcript : Transcript}
    (same : body (transcript.within id) = other (transcript.within id)) :
    underway id body transcript = underway id other transcript := by
  simp only [underway, same]

/-- A text that leaves the construct underway and the depth as it found them leaves, behind the
construct, what was there before. -/
theorem underway_control {id : Nat} {body : Writer Unit} {transcript : Transcript}
    (kept : (body (transcript.within id)).2.control = transcript.control.within id) :
    (underway id body transcript).2.control = transcript.control := by
  have left := congrArg (fun control : Control => { control with
    underway := control.underway.erase (id, transcript.mode)
    depth := control.depth - 1 }) kept
  refine left.trans ?_
  simp only [Control.within, Transcript.control, List.erase_cons_head, Nat.add_sub_cancel]

/-- Under a control, a writer comes to a result and keeps the control if it succeeds. -/
structure Outcome (control : Control) (writer : Writer Unit) (result : Except StubError Unit) :
    Prop where
  result : ∀ transcript, transcript.control = control → (writer transcript).1 = result
  keeps : ∀ transcript, transcript.control = control → (writer transcript).1 = .ok () →
    (writer transcript).2.control = control

namespace Outcome

variable {control : Control}

theorem of_eq {writer other : Writer Unit} {result : Except StubError Unit}
    (here : Outcome control other result)
    (equal : ∀ transcript, transcript.control = control → writer transcript = other transcript) :
    Outcome control writer result := by
  constructor
  · intro transcript same
    rw [equal transcript same]
    exact here.result transcript same
  · intro transcript same
    rw [equal transcript same]
    exact here.keeps transcript same

theorem nothing : Outcome control (pure ()) (.ok ()) :=
  ⟨fun _ _ => rfl, fun _ same _ => same⟩

theorem write (text : String) : Outcome control (Writer.write text) (.ok ()) :=
  ⟨fun _ _ => rfl, fun transcript same _ => (transcript.control_write text).trans same⟩

theorem newline : Outcome control Writer.newline (.ok ()) :=
  ⟨fun _ _ => rfl, fun _ same _ => same⟩

/-- Two texts fail with the first failure. -/
theorem seq {first second : Writer Unit} {result later : Except StubError Unit}
    (here : Outcome control first result) (there : Outcome control second later) :
    Outcome control (do first; second) (result >>= fun _ => later) := by
  cases result with
  | error error =>
      have failed (transcript : Transcript) (same : transcript.control = control) :
          (do first; second : Writer Unit) transcript = first transcript := by
        rw [seq_apply, here.result transcript same]
      constructor
      · intro transcript same
        rw [failed transcript same, here.result transcript same]
        rfl
      · intro transcript same succeeded
        rw [failed transcript same, here.result transcript same] at succeeded
        cases succeeded
  | ok value =>
      have passed (transcript : Transcript) (same : transcript.control = control) :
          (do first; second : Writer Unit) transcript = second (first transcript).2 := by
        rw [seq_apply, here.result transcript same]
      constructor
      · intro transcript same
        rw [passed transcript same]
        exact there.result _ (here.keeps transcript same (here.result transcript same))
      · intro transcript same succeeded
        rw [passed transcript same] at succeeded ⊢
        exact there.keeps _ (here.keeps transcript same (here.result transcript same)) succeeded

/-- A block fails as its body does. -/
theorem indented {body : Writer Unit} {result : Except StubError Unit}
    (here : Outcome control body result) : Outcome control (Writer.indented body) result where
  result transcript same := here.result { transcript with indent := transcript.indent + 1 } same
  keeps transcript same succeeded :=
    here.keeps { transcript with indent := transcript.indent + 1 } same succeeded

/-- A change of mode fails as its body does in this mode. -/
theorem inMode {mode : Mode} {body : Writer Unit} {result : Except StubError Unit}
    (here : Outcome { control with mode } body result) :
    Outcome control (Writer.inMode mode body) result := by
  constructor
  · rintro transcript rfl
    exact here.result { transcript with mode } rfl
  · rintro transcript rfl succeeded
    have kept := here.keeps { transcript with mode } rfl succeeded
    simp only [Transcript.control, Control.mk.injEq] at kept ⊢
    exact ⟨kept.1, rfl, kept.2.2⟩

/-- A construct fails as what is written within it does. -/
theorem underway {id : Nat} {body : Writer Unit} {result : Except StubError Unit}
    (here : Outcome (control.within id) body result) :
    Outcome control (Writer.underway id body) result := by
  constructor
  · rintro transcript rfl
    exact here.result (transcript.within id) rfl
  · rintro transcript rfl succeeded
    exact underway_control (here.keeps (transcript.within id) rfl succeeded)

end Outcome

end Writer

namespace Stub

open Writer

variable {project : Project}

/-- A text comes to what its mentions come to, one after the other. -/
theorem Spells.outcome {control : Control} {visit : Visit} {text : Visit → Writer Unit}
    {mentions : List Mention} {result : Mention → Except StubError Unit}
    (spelled : Spells text mentions)
    (visits : ∀ mention ∈ mentions, Outcome { control with mode := mention.mode }
      (visit mention.form mention.ref.id) (result mention)) :
    Outcome control (text visit) (mentions.forM result) := by
  induction spelled with
  | nothing => exact .nothing
  | write text => exact .write text
  | newline => exact .newline
  | visit mention =>
      have visited := (visits mention List.mem_cons_self).inMode
      simpa using visited
  | seq _ _ first second =>
      simp only [List.forM_eq_forM, List.forM_append]
      exact (first fun mention member => visits mention (List.mem_append_left _ member)).seq
        (second fun mention member => visits mention (List.mem_append_right _ member))
  | indented _ ih => exact (ih visits).indented

/-- The forms in which the construct of a pair may be written: the call of a signature suits
signatures only. -/
def Suits (project : Project) (pair : Nat × Mode) : Form → Prop
  | .whole => True
  | .callOf _ => pair.2 = .short ∧ ∃ sig, project.construct? pair.1 = some (.signature sig)

/-- What a text mentions suits the form in which it is mentioned. -/
theorem suits_of_mention (coherent : Coherent project.constructs) {id : Nat} {mode : Mode}
    {construct : Construct} (here : project.construct? id = some construct) {mention : Mention}
    (member : mention ∈ construct.mentions mode) : Suits project mention.target mention.form := by
  cases form : mention.form with
  | whole => trivial
  | callOf name =>
      obtain ⟨short, role⟩ := (construct.mentions_proper mode mention member).call name form
      obtain ⟨target, there, accepts⟩ := Project.exists_target_of_mention coherent here member
      rw [role, Role.accepts, decide_eq_true_iff] at accepts
      cases target <;> cases accepts
      exact ⟨short, _, there⟩

/-- In a form that suits it, a construct visits what it mentions in its mode. -/
theorem Suits.spells {pair : Nat × Mode} {form : Form} (suits : Suits project pair form)
    {construct : Construct} (here : project.construct? pair.1 = some construct) :
    SpellsIn pair.2 (fun visit => writeConstruct visit form construct)
      (construct.mentions pair.2) := by
  cases form with
  | whole => exact writeConstruct_spells pair.2 construct
  | callOf name =>
      obtain ⟨short, sig, there⟩ := suits
      cases here.symm.trans there
      rw [short]
      exact writeConstruct_callOf_spells .short name sig

/-- What stands in for a cycle fails as the policy says. -/
theorem writeCycle_outcome (control : Control) (id : Nat) :
    Outcome control (writeCycle project id)
      (project.atCycle control.options (id, control.mode)) := by
  constructor
  · rintro transcript rfl
    simp only [writeCycle, Project.atCycle, Transcript.control]
    cases project.kind id <;> cases transcript.options.cycles <;> rfl
  · rintro transcript rfl succeeded
    simp only [writeCycle] at succeeded ⊢
    split at succeeded <;> simp_all

section Guarded

variable {id : Nat} {transcript : Transcript}

/-- The guard stops at what is underway already. -/
theorem guarded_again (again : (id, transcript.mode) ∈ transcript.underway)
    (body : Construct → Writer Unit) :
    guarded project id body transcript = writeCycle project id transcript :=
  if_pos again

/-- Without room the guard fails, and has taken back what it put underway. -/
theorem guarded_full (fresh : (id, transcript.mode) ∉ transcript.underway)
    (full : transcript.options.maxDepth ≤ transcript.depth) (body : Construct → Writer Unit) :
    guarded project id body transcript =
      (.error (.tooDeep transcript.options.maxDepth), transcript) := by
  have stops : (transcript.insert (id, transcript.mode)).options.maxDepth ≤
      (transcript.insert (id, transcript.mode)).depth := full
  have taken : (transcript.insert (id, transcript.mode)).remove (id, transcript.mode) =
      transcript := by
    simp only [Transcript.insert, Transcript.remove, List.erase_cons_head]
  simp only [guarded, if_neg fresh, if_pos stops, taken]
  rfl

/-- Where there is room, what stands within the construct is written. -/
theorem guarded_fresh (fresh : (id, transcript.mode) ∉ transcript.underway)
    (room : transcript.depth < transcript.options.maxDepth) {construct : Construct}
    (here : project.construct? id = some construct) (body : Construct → Writer Unit) :
    guarded project id body transcript = Writer.underway id (body construct) transcript := by
  have goes : ¬ (transcript.insert (id, transcript.mode)).options.maxDepth ≤
      (transcript.insert (id, transcript.mode)).depth := Nat.not_le.mpr room
  simp only [guarded, if_neg fresh, if_neg goes, Project.construct_eq_ok_iff.mpr here]
  rfl

/-- An id outside the project is noticed within, and stays underway. -/
theorem guarded_outside (fresh : (id, transcript.mode) ∉ transcript.underway)
    (room : transcript.depth < transcript.options.maxDepth) {fault : OutOfBounds}
    (outside : project.construct id = .error fault) (body : Construct → Writer Unit) :
    guarded project id body transcript = (.error (.outOfBounds fault), transcript.within id) := by
  have goes : ¬ (transcript.insert (id, transcript.mode)).options.maxDepth ≤
      (transcript.insert (id, transcript.mode)).depth := Nat.not_le.mpr room
  simp only [guarded, if_neg fresh, if_neg goes, outside]
  rfl

/-- What is underway already is replaced by what stands in for a cycle. -/
theorem writeWithin_again (again : (id, transcript.mode) ∈ transcript.underway) (room : Nat)
    (form : Form) :
    writeWithin project room form id transcript = writeCycle project id transcript := by
  cases room with
  | zero => exact guarded_again again _
  | succ room => exact guarded_again again _

/-- What does not fit into the depth fails and changes nothing. -/
theorem writeWithin_full (fresh : (id, transcript.mode) ∉ transcript.underway)
    (full : transcript.options.maxDepth ≤ transcript.depth) (room : Nat) (form : Form) :
    writeWithin project room form id transcript =
      (.error (.tooDeep transcript.options.maxDepth), transcript) := by
  cases room with
  | zero => exact guarded_full fresh full _
  | succ room => exact guarded_full fresh full _

end Guarded

/-- **A stub comes to what its traversal comes to.** In a coherent project, the writer of a
construct inside the arena fails as the traversal from the construct does, and otherwise leaves what
decides how writing goes on as it was. -/
theorem writeWithin_outcome (coherent : Coherent project.constructs) {room : Nat} {form : Form}
    {id : Nat} {control : Control} (ample : control.HasRoom room) (inside : id < project.size)
    (suits : Suits project (id, control.mode) form) :
    Outcome control (writeWithin project room form id)
      (project.traverse control.options room control.underway (id, control.mode)) := by
  induction room generalizing form id control with
  | zero =>
      by_cases again : (id, control.mode) ∈ control.underway
      · rw [Project.traverse_again again]
        apply (writeCycle_outcome control id).of_eq
        rintro transcript rfl
        exact writeWithin_again again 0 form
      · rw [Project.traverse_zero again]
        have stops (transcript : Transcript) (same : transcript.control = control) :
            writeWithin project 0 form id transcript =
              (.error (.tooDeep transcript.options.maxDepth), transcript) := by
          subst same
          exact writeWithin_full again (Nat.le_of_eq ample.symm) 0 form
        constructor
        · rintro transcript rfl
          exact congrArg Prod.fst (stops transcript rfl)
        · rintro transcript rfl succeeded
          rw [stops transcript rfl] at succeeded
          cases succeeded
  | succ room ih =>
      by_cases again : (id, control.mode) ∈ control.underway
      · rw [Project.traverse_again again]
        apply (writeCycle_outcome control id).of_eq
        rintro transcript rfl
        exact writeWithin_again again (room + 1) form
      · obtain ⟨construct, here⟩ := Project.exists_construct_of_inside inside
        obtain ⟨text, spelled, equal⟩ := suits.spells here
        have visits : ∀ mention ∈ construct.mentions control.mode, Outcome
            { control.within id with mode := mention.mode }
            (writeWithin project room mention.form mention.ref.id)
            (project.traverse control.options room ((id, control.mode) :: control.underway)
              mention.target) := by
          intro mention member
          have writes : project.Writes (id, control.mode) mention.target :=
            ⟨construct, here, mention, member, rfl⟩
          exact ih (ample.within id) (writes.inside coherent)
            (suits_of_mention coherent here member)
        rw [Project.traverse_succ again here]
        apply (Outcome.underway (spelled.outcome visits)).of_eq
        rintro transcript rfl
        exact (guarded_fresh again ample.depth_lt here _).trans
          (underway_congr (equal _ _ rfl))

end Stub

namespace Project

variable {project : Project} {options : StubOptions}

/-- A stub is the text that its construct leaves on an empty transcript. -/
theorem stub_eq (options : StubOptions) (id : Nat) :
    project.stub options id =
      (Stub.writeWithin project options.maxDepth .whole id (.start options)).1.map fun _ =>
        (Stub.writeWithin project options.maxDepth .whole id (.start options)).2.text :=
  rfl

/-- There is a stub where writing succeeds. -/
theorem stub_eq_ok_iff {id : Nat} {text : String} :
    project.stub options id = .ok text ↔
      (Stub.writeWithin project options.maxDepth .whole id (.start options)).1 = .ok () ∧
        (Stub.writeWithin project options.maxDepth .whole id (.start options)).2.text = text := by
  rw [stub_eq]
  cases (Stub.writeWithin project options.maxDepth .whole id (.start options)).1 <;>
    simp [Except.map]

/-- There is no stub where writing fails. -/
theorem stub_eq_error_iff_fst {id : Nat} {error : StubError} :
    project.stub options id = .error error ↔
      (Stub.writeWithin project options.maxDepth .whole id (.start options)).1 = .error error := by
  rw [stub_eq]
  cases (Stub.writeWithin project options.maxDepth .whole id (.start options)).1 <;>
    simp [Except.map]

/-- The stub of a construct inside the arena comes to what the traversal comes to. -/
theorem map_stub (coherent : Coherent project.constructs) {id : Nat} (inside : id < project.size) :
    (project.stub options id).map (fun _ => ()) =
      project.traverse options options.maxDepth [] (id, options.mode) := by
  have outcome : Writer.Outcome (Transcript.start options).control
      (Stub.writeWithin project options.maxDepth .whole id)
      (project.traverse options options.maxDepth [] (id, options.mode)) :=
    Stub.writeWithin_outcome coherent (Transcript.hasRoom_start options) inside trivial
  rw [← outcome.result (.start options) rfl, stub_eq]
  cases (Stub.writeWithin project options.maxDepth .whole id (.start options)).1 <;> rfl

/-- Stubs fail as traversals do. -/
theorem stub_eq_error_iff (coherent : Coherent project.constructs) {id : Nat}
    (inside : id < project.size) {error : StubError} :
    project.stub options id = .error error ↔
      project.traverse options options.maxDepth [] (id, options.mode) = .error error := by
  rw [← map_stub coherent inside]
  cases project.stub options id <;> simp [Except.map]

/-- There is a stub where there is a traversal. -/
theorem exists_stub_iff (coherent : Coherent project.constructs) {id : Nat}
    (inside : id < project.size) :
    (∃ text, project.stub options id = .ok text) ↔
      project.traverse options options.maxDepth [] (id, options.mode) = .ok () := by
  rw [← map_stub coherent inside]
  cases project.stub options id <;> simp [Except.map]

end Project

end CodeGraph

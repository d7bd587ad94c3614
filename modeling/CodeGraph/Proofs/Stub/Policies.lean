import CodeGraph.Proofs.Loading.TwoPasses
import CodeGraph.Proofs.Stub.Composition
import CodeGraph.Proofs.Stub.Depth

/-! # Failing at cycles and marking them

A stub that fails at cycles and one that marks them are the same up to the first cycle
(`CodeGraph.Project.stub_mark_of_fail`). There the one fails, and the other writes its marker right
behind the text so far.
-/

namespace CodeGraph

open Stub

namespace Transcript

/-- The transcript with cycles marked. -/
def marking (transcript : Transcript) : Transcript :=
  { transcript with options := { transcript.options with cycles := .mark } }

/-- Text is written under either policy. -/
theorem marking_write (text : String) (transcript : Transcript) :
    transcript.marking.write text = (transcript.write text).marking := by
  unfold Transcript.write
  split
  · rfl
  · show (if transcript.atLineStart = true then _ else _) = _
    split <;> rfl

end Transcript

namespace Writer

/-- A writer that fails at cycles does the same where they are marked, up to the first cycle. There
the marker follows the text so far. -/
structure Marks (writer : Writer Unit) (transcript : Transcript) : Prop where
  same : (∀ id kind mode, (writer transcript).1 ≠ .error (.recursion id kind mode)) →
    writer transcript.marking = ((writer transcript).1, (writer transcript).2.marking)
  marked : ∀ id kind mode, (writer transcript).1 = .error (.recursion id kind mode) →
    ∃ rest, (writer transcript.marking).2.text = (writer transcript).2.text ++
      s!"<recursion: {kind.name}{idLabel id} {mode.name}>" ++ rest

/-- A tidy writer adds text. -/
theorem Tidy.exists_text {α : Type} {writer : Writer α} (tidy : Tidy writer)
    (transcript : Transcript) :
    ∃ added, (writer transcript).2.text = transcript.text ++ added := by
  obtain ⟨result, added, line, -, runs⟩ := tidy transcript
  have ran : writer transcript = _ := runs transcript.text
  rw [ran]
  exact ⟨added, rfl⟩

/-- What comes second only adds text. -/
theorem exists_text_seq {first second : Writer Unit} (tidy : Tidy second)
    (transcript : Transcript) :
    ∃ added, ((do first; second : Writer Unit) transcript).2.text =
      (first transcript).2.text ++ added := by
  rw [seq_apply]
  cases (first transcript).1 with
  | error error => exact ⟨"", (String.append_empty).symm⟩
  | ok value => exact tidy.exists_text _

namespace Marks

variable {transcript : Transcript}

/-- A writer that passes marks if the marking one does the same. -/
theorem of_ok {writer : Writer Unit} (passed : (writer transcript).1 = .ok ())
    (equal : writer transcript.marking = (.ok (), (writer transcript).2.marking)) :
    writer.Marks transcript where
  same _ := by rw [equal, passed]
  marked id kind mode failed := by cases passed.symm.trans failed

/-- Two texts in a row mark if each of them does. -/
theorem seq {first second : Writer Unit} (tidy : Tidy second) (here : first.Marks transcript)
    (there : (first transcript).1 = .ok () → second.Marks (first transcript).2) :
    Marks (do first; second) transcript := by
  cases result : (first transcript).1 with
  | error error =>
      have stopped : (do first; second : Writer Unit) transcript = first transcript := by
        rw [seq_apply, result]
      constructor
      · intro other
        rw [stopped] at other ⊢
        have equal := here.same other
        rw [seq_apply, equal, result]
      · -- Where the first part marks its cycle, the second goes on behind the marker.
        intro id kind mode failed
        rw [stopped] at failed ⊢
        obtain ⟨rest, text⟩ := here.marked id kind mode failed
        obtain ⟨more, extended⟩ := @exists_text_seq first second tidy transcript.marking
        exact ⟨rest ++ more, by rw [extended, text, String.append_assoc]⟩
  | ok value =>
      have passed : (do first; second : Writer Unit) transcript = second (first transcript).2 := by
        rw [seq_apply, result]
      have marking : (do first; second : Writer Unit) transcript.marking =
          second (first transcript).2.marking := by
        rw [seq_apply, here.same (by rw [result]; exact nofun), result]
      have later := there result
      constructor
      · rw [passed, marking]
        exact later.same
      · rw [passed, marking]
        exact later.marked

/-- A writer that sets the transcript up for its body and puts it back afterwards. -/
theorem around {writer body : Writer Unit} {inner : Transcript}
    (restore : Transcript → Transcript)
    (commutes : ∀ after, (restore after).marking = restore after.marking)
    (text : ∀ after, (restore after).text = after.text)
    (ran : writer transcript = ((body inner).1, restore (body inner).2))
    (ranMarking : writer transcript.marking =
      ((body inner.marking).1, restore (body inner.marking).2))
    (here : body.Marks inner) : writer.Marks transcript := by
  constructor
  · intro other
    rw [ran] at other ⊢
    rw [ranMarking, here.same other, commutes]
  · intro id kind mode failed
    rw [ran] at failed ⊢
    rw [ranMarking, text, text]
    exact here.marked id kind mode failed

end Marks

/-- What fails at a cycle marks it where cycles are marked. -/
theorem marks_compositional (project : Project) (plain : String → Prop) :
    Compositional project plain fun writer transcript =>
      transcript.options.cycles = .fail → writer.Marks transcript where
  nothing _ _ := .of_ok rfl rfl
  write _ _ _ := .of_ok rfl (congrArg (Prod.mk _) (Transcript.marking_write _ _))
  endLine _ _ _ _ := by
    apply Marks.of_ok rfl
    exact congrArg (fun after => (_, Transcript.newline after)) (Transcript.marking_write _ _)
  seq := by
    intro first second transcript tidyFirst tidySecond here there fails
    refine .seq tidySecond (here fails) fun passed => there passed ?_
    obtain ⟨result, added, line, -, runs⟩ := tidyFirst transcript
    have ran : first transcript = _ := runs transcript.text
    rw [ran]
    exact fails
  inMode := by
    intro mode body transcript here fails
    let restore (after : Transcript) : Transcript := { after with mode := transcript.mode }
    exact .around restore (fun _ => rfl) (fun _ => rfl) rfl rfl (here fails)
  indented := by
    intro body transcript _ here fails
    let restore (after : Transcript) : Transcript := { after with indent := after.indent - 1 }
    exact .around restore (fun _ => rfl) (fun _ => rfl) rfl rfl (here fails)
  again := by
    intro id writer transcript settled turn again equal fails
    obtain ⟨construct, here⟩ := Project.exists_construct_of_inside turn.inside
    have kind : project.kind id = .ok construct.kind :=
      Project.kind_eq_ok_iff.mpr ⟨construct, here, rfl⟩
    have failed := (equal transcript again).trans (writeCycle_of_fail kind fails)
    have marking := (equal transcript.marking again).trans (writeCycle_of_mark kind rfl)
    constructor
    · intro other
      rw [failed] at other
      exact absurd rfl (other _ _ _)
    · intro inner shape mode same
      rw [failed] at same ⊢
      cases same
      have settled : transcript.marking.Settled := settled
      rw [marking, settled.text_write]
      exact ⟨"", (String.append_empty).symm⟩
  full := by
    intro id writer transcript fresh full equal _
    have failed := equal transcript fresh full
    constructor
    · intro _
      rw [failed, equal transcript.marking fresh full]
      rfl
    · intro _ _ _ same
      rw [failed] at same
      cases same
  enter := by
    intro id writer body transcript _ fresh below equal _ here fails
    let restore (after : Transcript) : Transcript :=
      { after with depth := after.depth - 1 }.remove (id, transcript.mode)
    exact .around restore (fun _ => rfl) (fun _ => rfl) (equal transcript rfl fresh below)
      (equal transcript.marking rfl fresh below) (here fails)

end Writer

namespace Project

variable {project : Project}

/-- **The policies agree up to the first cycle.** For every construct of a loaded project, let one
stub fail at cycles and another one mark them, in the same mode and with the same limit. What the
first one comes to without meeting a cycle is what the second one comes to. Where the first one
fails with a recursion, the second one is too deep, or it begins with what the first one had written
and the marker of that recursion. The second one never fails with a recursion. -/
theorem stub_mark_of_fail {document : Node} (loaded : load document = .ok project) {id : Nat}
    (inside : id < project.size) (mode : Mode) (limit : Nat) :
    (∀ text, project.stub ⟨mode, .fail, limit⟩ id = .ok text →
      project.stub ⟨mode, .mark, limit⟩ id = .ok text) ∧
    (∀ depth, project.stub ⟨mode, .fail, limit⟩ id = .error (.tooDeep depth) →
      project.stub ⟨mode, .mark, limit⟩ id = .error (.tooDeep depth)) ∧
    (∀ inner kind turn, project.stub ⟨mode, .fail, limit⟩ id = .error (.recursion inner kind turn) →
      (∃ depth, project.stub ⟨mode, .mark, limit⟩ id = .error (.tooDeep depth)) ∨
        ∃ rest, project.stub ⟨mode, .mark, limit⟩ id =
          .ok (((Writer.construct project id).run (.start ⟨mode, .fail, limit⟩)).2.text ++
            s!"<recursion: {kind.name}{idLabel inner} {turn.name}>" ++ rest)) ∧
    ∀ inner kind turn,
      project.stub ⟨mode, .mark, limit⟩ id ≠ .error (.recursion inner kind turn) := by
  have coherent := (coherent_of_load loaded).1
  let start : Transcript := .start ⟨mode, .fail, limit⟩
  have turn : project.Turn start.underway (id, start.mode) := .start inside
  have settled : start.Settled := fun _ => rfl
  let run : Writer Unit := writeWithin project limit .whole id
  have marks : run.Marks start := by
    have holds : Holds _ run start :=
      writeWithin_holds (Writer.marks_compositional project fun _ => True) coherent
        (fun _ _ => trivial) (fun _ _ _ _ => trivial) (Transcript.hasRoom_start _) turn trivial
        nofun
        (.inl settled)
    exact holds.good rfl
  have agree (other : ∀ inner kind turn, (run start).1 ≠ .error (.recursion inner kind turn)) :
      project.stub ⟨mode, .mark, limit⟩ id = project.stub ⟨mode, .fail, limit⟩ id := by
    show ((run start.marking).1.map fun _ => (run start.marking).2.text) =
      (run start).1.map fun _ => (run start).2.text
    rw [marks.same other]
    rfl
  have never : ∀ inner kind turn,
      project.stub ⟨mode, .mark, limit⟩ id ≠ .error (.recursion inner kind turn) := by
    intro inner kind turn failed
    rcases stub_eq_error coherent inside failed with ⟨deep, -⟩ | ⟨impossible, -⟩
    · cases deep
    · cases impossible
  refine ⟨?_, ?_, ?_, never⟩
  · intro text written
    have passed : (run start).1 = .ok () := (stub_eq_ok_iff.mp written).1
    rw [agree, written]
    rw [passed]
    exact nofun
  · intro depth deep
    have failed : (run start).1 = .error (.tooDeep depth) := stub_eq_error_iff_fst.mp deep
    rw [agree, deep]
    rw [failed]
    exact nofun
  · intro inner kind turn recursion
    have failed : (run start).1 = .error (.recursion inner kind turn) :=
      stub_eq_error_iff_fst.mp recursion
    obtain ⟨rest, text⟩ := marks.marked inner kind turn failed
    cases result : project.stub ⟨mode, .mark, limit⟩ id with
    | error error =>
        rcases stub_eq_error coherent inside result with ⟨rfl, -⟩ | ⟨impossible, -⟩
        · exact .inl ⟨limit, rfl⟩
        · cases impossible
    | ok marked =>
        have same : (run start.marking).2.text = marked := (stub_eq_ok_iff.mp result).2
        exact .inr ⟨rest, congrArg Except.ok (same.symm.trans text)⟩

/-- A structure that mentions itself fails at itself, or is written with its marker. -/
theorem stub_mark_of_fail_sample :
    load Sample.document = .ok Sample.project ∧ 2 < Sample.project.size ∧
      Sample.project.stub ⟨.long, .fail, 256⟩ 2 = .error (.recursion 2 .structDesc .short) ∧
      ∃ front rest, Sample.project.stub ⟨.long, .mark, 256⟩ 2 =
        .ok (front ++ "<recursion: structDesc#2 short>" ++ rest) := by
  have inside : 2 < Sample.project.size := by decide
  have coherent := (coherent_of_load Sample.load_document).1
  have recursion : Sample.project.stub ⟨.long, .fail, 256⟩ 2 =
      .error (.recursion 2 .structDesc .short) :=
    (stub_eq_error_iff coherent inside).mpr rfl
  refine ⟨Sample.load_document, inside, recursion, ?_⟩
  rcases (stub_mark_of_fail Sample.load_document inside .long 256).2.2.1 _ _ _ recursion with
    ⟨depth, deep⟩ | ⟨rest, written⟩
  · rcases stub_eq_error coherent inside deep with ⟨-, short⟩ | ⟨impossible, -⟩
    · exact absurd short (by decide)
    · cases impossible
  · exact ⟨_, rest, written⟩

end Project

end CodeGraph

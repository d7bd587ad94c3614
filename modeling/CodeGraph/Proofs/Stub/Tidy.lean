import CodeGraph.Proofs.Stub.Bodies

/-! # What a writer leaves behind

A tidy writer adds text and may begin or end a line. Everything else of a transcript it leaves as it
was, whether it succeeds or fails, and what it adds does not depend on the text before. The text of
every construct of a coherent project is written tidily (`CodeGraph.Writer.construct_tidy`).
-/

namespace CodeGraph

open Stub

namespace Transcript

variable {transcript : Transcript}

theorem write_empty (transcript : Transcript) : transcript.write "" = transcript := if_pos rfl

/-- Within a line, text comes right behind the text before. -/
theorem write_of_begun (begun : transcript.atLineStart = false) (text : String) :
    transcript.write text =
      { transcript with text := transcript.text ++ text, atLineStart := false } := by
  by_cases empty : text = ""
  · rw [empty, write_empty, String.append_empty, ← begun]
  · simp [write, empty, begun]

/-- At the front of a line, blanks come between. -/
theorem write_of_atLineStart (begins : transcript.atLineStart = true) {text : String}
    (nonempty : text ≠ "") :
    transcript.write text =
      { transcript with
        text := transcript.text ++ (indentation transcript.indent ++ text)
        atLineStart := false } := by
  simp [write, nonempty, begins, String.append_assoc]

end Transcript

namespace Writer

/-- From a transcript on, and whatever its text is, a writer comes to one result and adds one text.
It leaves everything else as it was but the state of the line, and asks for no id that the project
does not have. -/
def TidyAt {α : Type} (writer : Writer α) (transcript : Transcript) : Prop :=
  ∃ result added line, (∀ fault, result ≠ .error (.outOfBounds fault)) ∧
    ∀ text, writer { transcript with text } =
      (result, { transcript with text := text ++ added, atLineStart := line })

/-- A writer is tidy from every transcript on. -/
def Tidy {α : Type} (writer : Writer α) : Prop := ∀ transcript, writer.TidyAt transcript

/-- Two steps are run one after the other, up to a failure of the first. -/
theorem bind_apply {α β : Type} (first : Writer α) (next : α → Writer β) (transcript : Transcript) :
    (first >>= next) transcript =
      match first transcript with
      | (.ok value, after) => next value after
      | (.error error, after) => (.error error, after) := by
  simp only [bind, ExceptT.bind, ExceptT.mk, StateT.bind]
  rcases first transcript with ⟨_ | _, after⟩ <;> rfl

/-- A handler goes on with the transcript that the failure left. -/
theorem tryCatch_apply {α : Type} (body : Writer α) (handler : StubError → Writer α)
    (transcript : Transcript) :
    (tryCatch body handler : Writer α) transcript =
      match body transcript with
      | (.ok value, after) => (.ok value, after)
      | (.error error, after) => handler error after := by
  simp only [tryCatch, tryCatchThe, MonadExceptOf.tryCatch, ExceptT.tryCatch, ExceptT.mk, bind,
    StateT.bind]
  rcases body transcript with ⟨_ | _, after⟩ <;> rfl

namespace TidyAt

variable {α β : Type} {transcript : Transcript}

theorem of_eq {writer other : Writer α} (here : other.TidyAt transcript)
    (equal : ∀ text, writer { transcript with text } = other { transcript with text }) :
    writer.TidyAt transcript := by
  obtain ⟨result, added, line, inside, runs⟩ := here
  exact ⟨result, added, line, inside, fun text => (equal text).trans (runs text)⟩

/-- A change of mode is tidy where its body is, in this mode. -/
theorem inMode {mode : Mode} {body : Writer α} (here : body.TidyAt { transcript with mode }) :
    (Writer.inMode mode body).TidyAt transcript := by
  obtain ⟨result, added, line, inside, runs⟩ := here
  refine ⟨result, added, line, inside, ?_⟩
  intro text
  simp only [Writer.inMode, runs text]

/-- A block is tidy where its body is, one level further in. -/
theorem indented {body : Writer α}
    (here : body.TidyAt { transcript with indent := transcript.indent + 1 }) :
    (Writer.indented body).TidyAt transcript := by
  obtain ⟨result, added, line, inside, runs⟩ := here
  refine ⟨result, added, line, inside, ?_⟩
  intro text
  simp only [Writer.indented, runs text, Nat.add_sub_cancel]

/-- What stands within a construct leaves the construct underway and the depth as it found them,
even when it fails. So taking both back leads to what was before. -/
theorem underway {id : Nat} {body : Writer Unit} (here : body.TidyAt (transcript.within id)) :
    (Writer.underway id body).TidyAt transcript := by
  obtain ⟨result, added, line, inside, runs⟩ := here
  refine ⟨result, added, line, inside, ?_⟩
  intro text
  have ran : body ({ transcript with text }.within id) = _ := runs text
  rw [Writer.underway, ran]
  simp only [Transcript.remove, Transcript.within, List.erase_cons_head, Nat.add_sub_cancel]

end TidyAt

namespace Tidy

variable {α β : Type}

theorem pure (value : α) : Tidy (Pure.pure value : Writer α) := fun transcript =>
  ⟨.ok value, "", transcript.atLineStart, nofun, fun text => by rw [String.append_empty]; rfl⟩

/-- A failure is tidy, if it is not one of ids. -/
theorem fail (error : StubError) (inside : ∀ fault, error ≠ .outOfBounds fault) :
    Tidy (throw error : Writer α) := fun transcript =>
  ⟨.error error, "", transcript.atLineStart, fun fault same => inside fault (Except.error.inj same),
    fun text => by rw [String.append_empty]; rfl⟩

theorem mode : Tidy Writer.mode := fun transcript =>
  ⟨.ok transcript.mode, "", transcript.atLineStart, nofun,
    fun text => by rw [String.append_empty]; rfl⟩

theorem newline : Tidy Writer.newline := fun _ => ⟨.ok (), "\n", true, nofun, fun _ => rfl⟩

theorem write (addition : String) : Tidy (Writer.write addition) := by
  intro transcript
  cases begins : transcript.atLineStart with
  | false =>
      refine ⟨.ok (), addition, false, nofun, fun text => ?_⟩
      exact congrArg (Prod.mk _) (@Transcript.write_of_begun { transcript with text } begins _)
  | true =>
      by_cases empty : addition = ""
      · refine ⟨.ok (), "", true, nofun, fun text => ?_⟩
        rw [empty, ← begins, String.append_empty]
        exact congrArg (Prod.mk _) (Transcript.write_empty _)
      · refine ⟨.ok (), Transcript.indentation transcript.indent ++ addition, false, nofun,
          fun text => ?_⟩
        exact congrArg (Prod.mk _)
          (@Transcript.write_of_atLineStart { transcript with text } begins _ empty)

/-- Two tidy steps in a row are tidy. -/
theorem bind {first : Writer α} {next : α → Writer β} (here : Tidy first)
    (there : ∀ value, Tidy (next value)) : Tidy (first >>= next) := by
  intro transcript
  obtain ⟨result, added, line, inside, runs⟩ := here transcript
  cases result with
  | error error =>
      refine ⟨.error error, added, line, fun fault same => inside fault ?_, fun text => ?_⟩
      · cases same
        rfl
      · rw [bind_apply, runs text]
  | ok value =>
      obtain ⟨later, more, end', within, runsOn⟩ :=
        there value { transcript with atLineStart := line }
      refine ⟨later, added ++ more, end', within, fun text => ?_⟩
      rw [bind_apply, runs text, ← String.append_assoc]
      exact runsOn (text ++ added)

/-- A tidy step whose failure is handled tidily is tidy. -/
theorem recover {body : Writer α} {handler : StubError → Writer α} (here : Tidy body)
    (there : ∀ error, Tidy (handler error)) : Tidy (tryCatch body handler) := by
  intro transcript
  obtain ⟨result, added, line, inside, runs⟩ := here transcript
  cases result with
  | ok value =>
      exact ⟨.ok value, added, line, nofun, fun text => by rw [tryCatch_apply, runs text]⟩
  | error error =>
      obtain ⟨later, more, end', within, runsOn⟩ :=
        there error { transcript with atLineStart := line }
      refine ⟨later, added ++ more, end', within, fun text => ?_⟩
      rw [tryCatch_apply, runs text, ← String.append_assoc]
      exact runsOn (text ++ added)

/-- A change of mode is tidy if its body is. -/
theorem inMode {body : Writer α} (here : Tidy body) (mode : Mode) :
    Tidy (Writer.inMode mode body) := fun transcript =>
  TidyAt.inMode (here { transcript with mode })

/-- A block is tidy if its body is. -/
theorem indented {body : Writer α} (here : Tidy body) : Tidy (Writer.indented body) :=
  fun transcript => TidyAt.indented (here { transcript with indent := transcript.indent + 1 })

/-- A tidy writer leaves what decides how writing goes on. -/
theorem control_after {writer : Writer α} (tidy : Tidy writer) (transcript : Transcript) :
    (writer transcript).2.control = transcript.control := by
  obtain ⟨result, added, line, -, runs⟩ := tidy transcript
  have ran : writer transcript = _ := runs transcript.text
  rw [ran]
  rfl

/-- A tidy writer leaves the indentation. -/
theorem indent_after {writer : Writer α} (tidy : Tidy writer) (transcript : Transcript) :
    (writer transcript).2.indent = transcript.indent := by
  obtain ⟨result, added, line, -, runs⟩ := tidy transcript
  have ran : writer transcript = _ := runs transcript.text
  rw [ran]

/-- Tidiness goes along with how texts are put together. -/
theorem congruent : Congruent fun writer _ => Tidy writer where
  nothing := pure ()
  write := write
  newline := newline
  seq here there := bind here fun _ => there
  indented := indented

end Tidy

end Writer

namespace Stub

open Writer

variable {project : Project}

/-- A text is written tidily if what it visits is. -/
theorem Spells.tidy {text : Visit → Writer Unit} {mentions : List Mention}
    (spelled : Spells text mentions) {visit : Visit}
    (visits : ∀ mention ∈ mentions,
      Tidy (inMode mention.mode (visit mention.form mention.ref.id))) :
    Tidy (text visit) :=
  @Spells.related _ Tidy.congruent _ _ spelled visit visit visits

/-- A construct that is not underway is written by its own text, one level deeper. -/
theorem writeWithin_fresh {room : Nat} {form : Form} {id : Nat} {transcript : Transcript}
    (fresh : (id, transcript.mode) ∉ transcript.underway)
    (below : transcript.depth < transcript.options.maxDepth) {construct : Construct}
    (here : project.construct? id = some construct) {text : Visit → Writer Unit}
    (equal : ∀ visit inner, inner.mode = transcript.mode →
      writeConstruct visit form construct inner = text visit inner) :
    writeWithin project (room + 1) form id transcript =
      underway id (text (writeWithin project room)) transcript :=
  (guarded_fresh fresh below here _).trans (underway_congr (equal _ _ rfl))

/-- A cycle is an error, if cycles fail. -/
theorem writeCycle_of_fail {id : Nat} {kind : Kind} (present : project.kind id = .ok kind)
    {transcript : Transcript} (fails : transcript.options.cycles = .fail) :
    writeCycle project id transcript =
      (.error (.recursion id kind transcript.mode), transcript) := by
  simp only [writeCycle, present, fails]

/-- A cycle is marked, if cycles are marked. -/
theorem writeCycle_of_mark {id : Nat} {kind : Kind} (present : project.kind id = .ok kind)
    {transcript : Transcript} (marks : transcript.options.cycles = .mark) :
    writeCycle project id transcript =
      (.ok (), transcript.write
        s!"<recursion: {kind.name}{idLabel id} {transcript.mode.name}>") := by
  simp only [writeCycle, present, marks]

/-- What stands in for a cycle is tidy. -/
theorem writeCycle_tidyAt {id : Nat} (inside : id < project.size) (transcript : Transcript) :
    (writeCycle project id).TidyAt transcript := by
  obtain ⟨construct, here⟩ := Project.exists_construct_of_inside inside
  have kind : project.kind id = .ok construct.kind :=
    Project.kind_eq_ok_iff.mpr ⟨construct, here, rfl⟩
  cases policy : transcript.options.cycles with
  | fail =>
      apply TidyAt.of_eq (Tidy.fail (.recursion id construct.kind transcript.mode) nofun _)
      exact fun text => @writeCycle_of_fail _ _ _ kind { transcript with text } policy
  | mark =>
      let marker := s!"<recursion: {construct.kind.name}{idLabel id} {transcript.mode.name}>"
      apply TidyAt.of_eq (Tidy.write marker _)
      exact fun text => @writeCycle_of_mark _ _ _ kind { transcript with text } policy

/-- What is underway already is tidy. -/
theorem again_tidyAt {id : Nat} (inside : id < project.size) {transcript : Transcript}
    (again : (id, transcript.mode) ∈ transcript.underway) (room : Nat) (form : Form) :
    (writeWithin project room form id).TidyAt transcript :=
  (writeCycle_tidyAt inside transcript).of_eq fun before =>
    @writeWithin_again project id { transcript with text := before } again room form

/-- What does not fit into the depth any more is tidy. -/
theorem full_tidyAt {id : Nat} {transcript : Transcript}
    (fresh : (id, transcript.mode) ∉ transcript.underway)
    (full : transcript.options.maxDepth ≤ transcript.depth) (room : Nat) (form : Form) :
    (writeWithin project room form id).TidyAt transcript := by
  apply TidyAt.of_eq (Tidy.fail (.tooDeep transcript.options.maxDepth) nofun _)
  intro before
  exact @writeWithin_full project id { transcript with text := before } fresh full room form

/-- A construct that suits its form is written tidily. -/
theorem writeWithin_tidyAt (coherent : Coherent project.constructs) (room : Nat) {form : Form}
    {id : Nat} (inside : id < project.size) {transcript : Transcript}
    (suits : Suits project (id, transcript.mode) form) :
    (writeWithin project room form id).TidyAt transcript := by
  obtain ⟨construct, here⟩ := Project.exists_construct_of_inside inside
  induction room generalizing form id construct transcript with
  | zero =>
      by_cases again : (id, transcript.mode) ∈ transcript.underway
      · exact again_tidyAt inside again 0 form
      · rcases Nat.lt_or_ge transcript.depth transcript.options.maxDepth with below | full
        · apply (TidyAt.underway (Tidy.pure () _)).of_eq
          intro before
          exact @guarded_fresh project id { transcript with text := before } again below _ here _
        · exact full_tidyAt again full 0 form
  | succ room ih =>
      by_cases again : (id, transcript.mode) ∈ transcript.underway
      · exact again_tidyAt inside again (room + 1) form
      · rcases Nat.lt_or_ge transcript.depth transcript.options.maxDepth with below | full
        · obtain ⟨text, spelled, equal⟩ := suits.spells here
          have tidy : Tidy (text (writeWithin project room)) := by
            apply spelled.tidy
            intro mention member
            have writes : project.Writes (id, transcript.mode) mention.target :=
              ⟨construct, here, mention, member, rfl⟩
            have insideInner := writes.inside coherent
            obtain ⟨inner, there⟩ := Project.exists_construct_of_inside insideInner
            intro later
            exact TidyAt.inMode
              (ih insideInner (suits_of_mention coherent here member) inner there)
          apply (TidyAt.underway (tidy _)).of_eq
          intro before
          exact @writeWithin_fresh _ _ _ _ { transcript with text := before } again below _ here _
            equal
        · exact full_tidyAt again full (room + 1) form

/-- What a construct mentions is written tidily, in the mode in which it is mentioned. -/
theorem tidy_of_mention (coherent : Coherent project.constructs) (room : Nat) {id : Nat}
    {mode : Mode} {construct : Construct} (here : project.construct? id = some construct)
    {mention : Mention} (member : mention ∈ construct.mentions mode) :
    Tidy (inMode mention.mode (writeWithin project room mention.form mention.ref.id)) := by
  have writes : project.Writes (id, mode) mention.target := ⟨construct, here, mention, member, rfl⟩
  have suits := suits_of_mention coherent here member
  intro transcript
  exact TidyAt.inMode (writeWithin_tidyAt coherent room (writes.inside coherent) suits)

end Stub

namespace Writer

variable {project : Project}

/-- Every construct of a coherent project is written tidily. -/
theorem construct_tidy (coherent : Coherent project.constructs) {id : Nat}
    (inside : id < project.size) : Tidy (Writer.construct project id) := by
  intro transcript
  let room := transcript.options.maxDepth - transcript.depth
  have tidy : (Stub.writeWithin project room .whole id).TidyAt transcript :=
    Stub.writeWithin_tidyAt coherent room inside trivial
  exact tidy.of_eq fun _ => rfl

/-- Writes the construct with an id in a form, as deep as the limit lets it. -/
def visit (project : Project) : Visit := fun form id transcript =>
  Stub.writeWithin project (transcript.options.maxDepth - transcript.depth) form id transcript

/-- Where there is just so much room, writers do the same, and the first one is tidy. -/
def SameWithin (room : Nat) (writer other : Writer Unit) : Prop :=
  Tidy writer ∧ ∀ transcript, transcript.HasRoom room → writer transcript = other transcript

/-- Being the same within a room goes along with how texts are put together. -/
theorem sameWithin_congruent (room : Nat) : Congruent (SameWithin room) where
  nothing := ⟨.pure (), fun _ _ => rfl⟩
  write text := ⟨.write text, fun _ _ => rfl⟩
  newline := ⟨.newline, fun _ _ => rfl⟩
  seq := by
    rintro first same second alike ⟨tidy, equal⟩ ⟨tidyLater, equalLater⟩
    refine ⟨tidy.bind fun _ => tidyLater, fun transcript ample => ?_⟩
    rw [seq_apply, seq_apply, ← equal transcript ample]
    cases (first transcript).1 with
    | error error => rfl
    | ok value =>
        apply equalLater
        rw [Transcript.HasRoom, tidy.control_after]
        exact ample
  indented := by
    rintro body same ⟨tidy, equal⟩
    refine ⟨tidy.indented, fun transcript ample => ?_⟩
    have alike := equal { transcript with indent := transcript.indent + 1 } ample
    simp only [Writer.indented, alike]

/-- **A construct is written under the guard, and what it mentions in the same way.** However deep
constructs are within each other, it is the guard that stops, and never a lack of levels in the
recursion. -/
theorem visit_eq (coherent : Coherent project.constructs) {form : Form} {id : Nat}
    (inside : id < project.size) {transcript : Transcript}
    (suits : Suits project (id, transcript.mode) form) :
    visit project form id transcript =
      guarded project id (writeConstruct (visit project) form) transcript := by
  by_cases again : (id, transcript.mode) ∈ transcript.underway
  · exact (writeWithin_again again _ form).trans (guarded_again again _).symm
  · rcases Nat.lt_or_ge transcript.depth transcript.options.maxDepth with below | full
    · obtain ⟨room, ample⟩ : ∃ room, transcript.HasRoom (room + 1) :=
        ⟨transcript.options.maxDepth - transcript.depth - 1, by
          simp only [Transcript.HasRoom, Control.HasRoom, Transcript.control]
          omega⟩
      obtain ⟨construct, here⟩ := Project.exists_construct_of_inside inside
      obtain ⟨text, spelled, equal⟩ := suits.spells here
      have levels : transcript.options.maxDepth - transcript.depth = room + 1 :=
        Nat.sub_eq_of_eq_add' ample.symm
      have alike : SameWithin room (text (writeWithin project room)) (text (visit project)) := by
        apply spelled.related (sameWithin_congruent room)
        intro mention member
        refine ⟨tidy_of_mention coherent room here member, fun inner innerRoom => ?_⟩
        have left : inner.options.maxDepth - inner.depth = room :=
          Nat.sub_eq_of_eq_add' innerRoom.symm
        simp only [Writer.inMode, visit, left]
      calc visit project form id transcript
        _ = underway id (text (writeWithin project room)) transcript := by
          rw [visit, levels]
          exact writeWithin_fresh again below here equal
        _ = underway id (text (visit project)) transcript :=
          underway_congr (alike.2 _ (ample.within id))
        _ = guarded project id (writeConstruct (visit project) form) transcript :=
          ((guarded_fresh again below here _).trans (underway_congr (equal _ _ rfl))).symm
    · exact (writeWithin_full again full _ form).trans (guarded_full again full _).symm

end Writer

end CodeGraph

import CodeGraph.Proofs.Stub.Simulation

/-! # Which bodies a stub writes

The text of a construct is its body. To say what a stub never writes, the body is left open: a stub
does not notice when bodies are replaced that it never begins
(`CodeGraph.Stub.writeWithinBy_eq`). It begins the body of a construct in a form that suits it,
while the texts around it are nested without repetition.
-/

namespace CodeGraph

namespace Writer

/-- A relation between writers that goes on from parts to the whole. -/
structure Congruent (related : Writer Unit → Writer Unit → Prop) : Prop where
  nothing : related (pure ()) (pure ())
  write : ∀ text, related (write text) (write text)
  newline : related newline newline
  seq : ∀ {first same second alike : Writer Unit}, related first same → related second alike →
    related (do first; second) (do same; alike)
  indented : ∀ {body same : Writer Unit}, related body same →
    related (indented body) (indented same)

/-- Under a control, writers do the same, and the second comes to some result. -/
def Agree (control : Control) (writer other : Writer Unit) : Prop :=
  (∃ result, Outcome control other result) ∧
    ∀ transcript, transcript.control = control → writer transcript = other transcript

/-- Agreement goes along with how texts are put together. -/
theorem agree_congruent (control : Control) : Congruent (Agree control) where
  nothing := ⟨⟨_, .nothing⟩, fun _ _ => rfl⟩
  write text := ⟨⟨_, .write text⟩, fun _ _ => rfl⟩
  newline := ⟨⟨_, .newline⟩, fun _ _ => rfl⟩
  seq := by
    intro first same second alike firstAgrees secondAgrees
    rcases firstAgrees with ⟨⟨result, here⟩, equal⟩
    rcases secondAgrees with ⟨⟨later, there⟩, alikeEqual⟩
    refine ⟨⟨_, here.seq there⟩, ?_⟩
    intro transcript controlled
    rw [seq_apply, seq_apply, equal transcript controlled]
    cases outcome : (same transcript).1 with
    | error error => rfl
    | ok value => exact alikeEqual _ (here.keeps transcript controlled outcome)
  indented := by
    intro body same agrees
    rcases agrees with ⟨⟨result, here⟩, equal⟩
    refine ⟨⟨_, here.indented⟩, ?_⟩
    rintro transcript rfl
    have alike := equal { transcript with indent := transcript.indent + 1 } rfl
    simp only [Writer.indented, alike]

end Writer

namespace Stub

open Writer

/-- Related visits make related texts. -/
theorem Spells.related {related : Writer Unit → Writer Unit → Prop} (congruent : Congruent related)
    {text : Visit → Writer Unit} {mentions : List Mention} (spelled : Spells text mentions)
    {visit other : Visit}
    (visits : ∀ mention ∈ mentions, related
      (inMode mention.mode (visit mention.form mention.ref.id))
      (inMode mention.mode (other mention.form mention.ref.id))) :
    related (text visit) (text other) := by
  induction spelled with
  | nothing => exact congruent.nothing
  | write text => exact congruent.write text
  | newline => exact congruent.newline
  | visit mention => exact visits mention List.mem_cons_self
  | seq _ _ first second =>
      exact congruent.seq
        (first fun mention member => visits mention (List.mem_append_left _ member))
        (second fun mention member => visits mention (List.mem_append_right _ member))
  | indented _ ih => exact congruent.indented (ih visits)

/-- What writes the text of a construct in a form, given what visits its mentions. -/
abbrev Body := Visit → Form → Construct → Writer Unit

/-- Writes the construct with an id as `writeWithin` does, its text and those within it by
`body`. -/
def writeWithinBy (project : Project) (body : Body) : (room : Nat) → Form → Nat → Writer Unit
  | 0, _, id => guarded project id fun _ => pure ()
  | room + 1, form, id => guarded project id (body (writeWithinBy project body room) form)

/-- The text of a construct has begun in a form. -/
structure Begun (project : Project) (form : Form) (construct : Construct)
    (transcript : Transcript) : Prop where
  here : ∃ id outer, transcript.underway = (id, transcript.mode) :: outer ∧
    project.construct? id = some construct ∧ Suits project (id, transcript.mode) form
  nested : project.Nested transcript.underway

variable {project : Project}

/-- Writing by the texts of constructs is writing. -/
theorem writeWithinBy_writeConstruct (room : Nat) :
    writeWithinBy project writeConstruct room = writeWithin project room := by
  funext form id
  induction room generalizing form id with
  | zero => rfl
  | succ room ih => simp only [writeWithinBy, writeWithin, funext₂ ih]

/-- Only signatures are called by a name. -/
theorem Suits.construct {pair : Nat × Mode} {form : Form} (suits : Suits project pair form)
    {construct : Construct} (here : project.construct? pair.1 = some construct) :
    ∀ name, form = .callOf name → construct.kind = .signature := by
  rintro name rfl
  obtain ⟨-, sig, there⟩ := suits
  cases here.symm.trans there
  rfl

/-- **A stub writes nothing but bodies that it begins.** Where a body does what the text of a
construct does whenever that text may have begun, it writes the same. -/
theorem writeWithinBy_eq (coherent : Coherent project.constructs) {body : Body}
    (same : ∀ visit form construct transcript, Begun project form construct transcript →
      body visit form construct transcript = writeConstruct visit form construct transcript)
    {room : Nat} {form : Form} {id : Nat} {transcript : Transcript}
    (ample : transcript.HasRoom room)
    (turn : project.Turn transcript.underway (id, transcript.mode))
    (suits : Suits project (id, transcript.mode) form) :
    writeWithinBy project body room form id transcript =
      writeWithin project room form id transcript := by
  induction room generalizing form id transcript with
  | zero => rfl
  | succ room ih =>
      by_cases again : (id, transcript.mode) ∈ transcript.underway
      · exact (guarded_again again _).trans (guarded_again again _).symm
      · obtain ⟨construct, here⟩ := Project.exists_construct_of_inside turn.inside
        obtain ⟨text, spelled, equal⟩ := suits.spells here
        have nested := turn.enter again
        have agree : Agree (transcript.control.within id)
            (text (writeWithinBy project body room)) (text (writeWithin project room)) := by
          apply spelled.related (agree_congruent _)
          intro mention member
          have writes : project.Writes (id, transcript.mode) mention.target :=
            ⟨construct, here, mention, member, rfl⟩
          have suitsInner := suits_of_mention coherent here member
          have insideInner := writes.inside coherent
          have ampleInner := ample.within id
          have outcome : Outcome { transcript.control.within id with mode := mention.mode }
              (writeWithin project room mention.form mention.ref.id) _ :=
            writeWithin_outcome coherent ampleInner insideInner suitsInner
          refine ⟨⟨_, outcome.inMode⟩, ?_⟩
          intro inner controlled
          have visited : writeWithinBy project body room mention.form mention.ref.id
              { inner with mode := mention.mode } =
              writeWithin project room mention.form mention.ref.id
                { inner with mode := mention.mode } := by
            have sameRoom : { inner with mode := mention.mode }.HasRoom room := by
              show inner.HasRoom room
              rw [Transcript.HasRoom, controlled]
              exact ampleInner
            apply ih sameRoom _ suitsInner
            have stack : inner.underway = _ := congrArg Control.underway controlled
            show project.Turn inner.underway mention.target
            rw [stack]
            exact .next coherent nested writes
          simp only [inMode, visited]
        let entered : Transcript := transcript.within id
        have begun : Begun project form construct entered :=
          ⟨⟨id, _, rfl, here, suits⟩, nested⟩
        have bodies : body (writeWithinBy project body room) form construct entered =
            writeConstruct (writeWithin project room) form construct entered :=
          calc body (writeWithinBy project body room) form construct entered
            _ = writeConstruct (writeWithinBy project body room) form construct entered :=
              same _ _ _ _ begun
            _ = text (writeWithinBy project body room) entered := equal _ entered rfl
            _ = text (writeWithin project room) entered := agree.2 entered rfl
            _ = writeConstruct (writeWithin project room) form construct entered :=
              (equal _ entered rfl).symm
        calc writeWithinBy project body (room + 1) form id transcript
          _ = underway id (body (writeWithinBy project body room) form construct) transcript :=
            guarded_fresh again ample.depth_lt here _
          _ = underway id (writeConstruct (writeWithin project room) form construct) transcript :=
            underway_congr bodies
          _ = writeWithin project (room + 1) form id transcript :=
            (guarded_fresh again ample.depth_lt here _).symm

end Stub

namespace Project

/-- The stub of a construct in which `body` writes the texts. -/
def stubBy (project : Project) (body : Stub.Body) (options : StubOptions) (id : Nat) :
    Except StubError String :=
  let (result, transcript) :=
    (Stub.writeWithinBy project body options.maxDepth .whole id).run (.start options)
  result.map fun _ => transcript.text

variable {project : Project}

/-- Stubs by the texts of constructs are stubs. -/
theorem stubBy_writeConstruct (options : StubOptions) (id : Nat) :
    project.stubBy Stub.writeConstruct options id = project.stub options id := by
  rw [stubBy, Stub.writeWithinBy_writeConstruct]
  rfl

/-- A stub does not change with bodies that it never begins. -/
theorem stubBy_eq (coherent : Coherent project.constructs) {body : Stub.Body}
    (same : ∀ visit form construct transcript, Stub.Begun project form construct transcript →
      body visit form construct transcript = Stub.writeConstruct visit form construct transcript)
    {id : Nat} (inside : id < project.size) (options : StubOptions) :
    project.stubBy body options id = project.stub options id := by
  have written : Stub.writeWithinBy project body options.maxDepth .whole id (.start options) =
      Stub.writeWithin project options.maxDepth .whole id (.start options) :=
    Stub.writeWithinBy_eq coherent same (Transcript.hasRoom_start options) (.start inside) trivial
  rw [stub_eq, ← written]
  rfl

end Project

end CodeGraph

import CodeGraph.Proofs.Stub.Cycles
import CodeGraph.Proofs.Stub.Layout
import CodeGraph.Proofs.Stub.Tidy

/-! # Properties of runs

A property of runs that passes from the parts of a text to the whole holds of every construct that
is written (`CodeGraph.Stub.writeWithin_good`). Where a construct comes up that is underway already,
the transcript is settled: in long texts nothing comes up again, and only there are lines indented.
-/

namespace CodeGraph

open Stub

/-- What is written next comes right behind the text. -/
def Transcript.Settled (transcript : Transcript) : Prop :=
  transcript.atLineStart = true → transcript.indent = 0

namespace Transcript.Settled

variable {transcript : Transcript}

/-- Text leaves a settled transcript settled. -/
theorem write (settled : transcript.Settled) (text : String) : (transcript.write text).Settled := by
  unfold Transcript.write
  split
  · exact settled
  · split
    · exact nofun
    · exact settled

/-- Words settle a transcript. -/
theorem of_words {text : String} (nonempty : text ≠ "") : (transcript.write text).Settled := by
  unfold Transcript.write
  rw [if_neg nonempty]
  split
  · exact nofun
  · rename_i begun
    exact fun atLineStart => absurd atLineStart begun

/-- On a settled transcript text is added as it is. -/
theorem text_write (settled : transcript.Settled) (text : String) :
    (transcript.write text).text = transcript.text ++ text := by
  unfold Transcript.write
  split
  · rename_i empty
    rw [empty, String.append_empty]
  · split
    · rename_i begins
      rw [settled begins]
      show transcript.text ++ "" ++ text = _
      rw [String.append_empty]
    · rfl

end Transcript.Settled

/-- Two texts pass if both do. -/
theorem Writer.seq_eq_ok {first second : Writer Unit} {transcript : Transcript}
    (passed : ((do first; second : Writer Unit) transcript).1 = .ok ()) :
    (first transcript).1 = .ok () ∧
      (do first; second : Writer Unit) transcript = second (first transcript).2 := by
  rw [seq_apply] at passed ⊢
  cases result : (first transcript).1 with
  | error error =>
      rw [result] at passed
      cases result.symm.trans passed
  | ok value => exact ⟨rfl, rfl⟩

namespace Construct

/-- The names of the calls that a construct mentions are among its strings. -/
theorem callOf_mem_strings {construct : Construct} {mode : Mode} {mention : Mention}
    (member : mention ∈ construct.mentions mode) {name : String}
    (called : mention.form = .callOf name) : name = "" ∨ name ∈ construct.strings := by
  suffices named : ∀ mention ∈ construct.mentions mode, mention.form = .callOf name →
      name = "" ∨ name ∈ construct.strings from named mention member called
  cases construct with
  | interfaceDesc desc =>
      have calls (method : String × SignatureRef) (listed : method ∈ desc.abstracts) :
          Form.callOf method.1 = .callOf name → name = "" ∨ name ∈ desc.abstracts.map Prod.fst := by
        rintro ⟨⟩
        exact .inr (List.mem_map_of_mem listed)
      cases mode <;>
        simp only [mentions, shortMentions, longMentions, List.forall_mem_append,
          List.forall_mem_map] <;>
        exact ⟨by simp [Mention.short], calls⟩
  | _ =>
      cases mode <;>
        simp +contextual [mentions, shortMentions, longMentions, Mention.short, Mention.long,
          Mention.call, or_imp, forall_and]

end Construct

namespace Stub

open Writer

variable {project : Project} {plain : String → Prop} {good : Writer Unit → Transcript → Prop}

/-- A property of a writer from a transcript on that passes from parts to the whole. -/
structure Compositional (project : Project) (plain : String → Prop)
    (good : Writer Unit → Transcript → Prop) : Prop where
  nothing : ∀ transcript, good (pure ()) transcript
  write : ∀ {text : String} transcript, plain text → good (write text) transcript
  endLine : ∀ {text : String} transcript, plain text → text ≠ "" →
    good (do Writer.write text; newline) transcript
  seq : ∀ {first second : Writer Unit} {transcript : Transcript}, Tidy first → Tidy second →
    good first transcript →
    ((first transcript).1 = .ok () → good second (first transcript).2) →
    good (do first; second) transcript
  inMode : ∀ {mode : Mode} {body : Writer Unit} {transcript : Transcript},
    good body { transcript with mode } → good (Writer.inMode mode body) transcript
  indented : ∀ {body : Writer Unit} {transcript : Transcript}, Tidy body →
    good body { transcript with indent := transcript.indent + 1 } →
    good (Writer.indented body) transcript
  /-- A construct that is underway already. -/
  again : ∀ {id : Nat} {writer : Writer Unit} {transcript : Transcript}, transcript.Settled →
    project.Turn transcript.underway (id, transcript.mode) →
    (id, transcript.mode) ∈ transcript.underway →
    (∀ other, (id, other.mode) ∈ other.underway → writer other = writeCycle project id other) →
    good writer transcript
  /-- A construct for which there is no room. -/
  full : ∀ {id : Nat} {writer : Writer Unit} {transcript : Transcript},
    (id, transcript.mode) ∉ transcript.underway →
    transcript.options.maxDepth ≤ transcript.depth →
    (∀ other, (id, other.mode) ∉ other.underway → other.options.maxDepth ≤ other.depth →
      writer other = (.error (.tooDeep other.options.maxDepth), other)) →
    good writer transcript
  /-- A construct whose text is written. -/
  enter : ∀ {id : Nat} {writer body : Writer Unit} {transcript : Transcript},
    project.Turn transcript.underway (id, transcript.mode) →
    (id, transcript.mode) ∉ transcript.underway →
    transcript.depth < transcript.options.maxDepth →
    (∀ other, other.mode = transcript.mode → (id, other.mode) ∉ other.underway →
      other.depth < other.options.maxDepth → writer other = underway id body other) →
    Tidy body → good body (transcript.within id) → good writer transcript

/-- A writer has a property from a transcript on, and leaves it settled if it succeeds. -/
structure Holds (good : Writer Unit → Transcript → Prop) (writer : Writer Unit)
    (transcript : Transcript) : Prop where
  good : good writer transcript
  settles : (writer transcript).1 = .ok () → (writer transcript).2.Settled

/-- A property holds of a text that is laid out if it holds of its visits. -/
theorem Layout.holds (laws : Compositional project plain good) {control : Control}
    {settled after : Bool} {text : Visit → Writer Unit} {mentions : List Mention}
    (laid : Layout plain control.mode settled text mentions after) {visit : Visit}
    (tidy : ∀ mention ∈ mentions,
      Tidy (Writer.inMode mention.mode (visit mention.form mention.ref.id)))
    (visits : ∀ mention ∈ mentions, ∀ transcript : Transcript, transcript.control = control →
      transcript.Settled ∨ control.mode = .long ∧ mention.Opens →
      Holds good (Writer.inMode mention.mode (visit mention.form mention.ref.id)) transcript)
    {transcript : Transcript} (controlled : transcript.control = control)
    (ready : settled = true → transcript.Settled) :
    good (text visit) transcript ∧
      ((text visit transcript).1 = .ok () → after = true → (text visit transcript).2.Settled) := by
  induction laid generalizing transcript with
  | nothing => exact ⟨laws.nothing _, fun _ => ready⟩
  | write isPlain => exact ⟨laws.write _ isPlain, fun _ begins => (ready begins).write _⟩
  | words isPlain nonempty => exact ⟨laws.write _ isPlain, fun _ _ => .of_words nonempty⟩
  | endLine _ isPlain nonempty => exact ⟨laws.endLine _ isPlain nonempty, nofun⟩
  | visit mention begins =>
      have visited := visits mention List.mem_cons_self transcript controlled
        (begins.imp_left ready)
      exact ⟨visited.good, fun passed _ => visited.settles passed⟩
  | @seq _ between after first second before behind layFirst laySecond ihFirst ihSecond =>
      obtain ⟨tidyBefore, tidyBehind⟩ := List.forall_mem_append.mp tidy
      obtain ⟨visitsBefore, visitsBehind⟩ := List.forall_mem_append.mp visits
      have tidyFirst : Tidy (first visit) := layFirst.spells.tidy tidyBefore
      have tidySecond : Tidy (second visit) := laySecond.spells.tidy tidyBehind
      obtain ⟨holds, settles⟩ := ihFirst tidyBefore visitsBefore controlled ready
      have later : (first visit transcript).1 = .ok () →
          good (second visit) (first visit transcript).2 ∧
            ((second visit (first visit transcript).2).1 = .ok () → after = true →
              (second visit (first visit transcript).2).2.Settled) := by
        intro passed
        obtain ⟨result, added, line, -, runs⟩ := tidyFirst transcript
        have ran : first visit transcript = _ := runs transcript.text
        apply ihSecond tidyBehind visitsBehind
        · rw [ran]
          exact controlled
        · exact settles passed
      refine ⟨laws.seq tidyFirst tidySecond holds fun passed => (later passed).1, ?_⟩
      intro passed begins
      obtain ⟨passedFirst, same⟩ := seq_eq_ok passed
      show ((do first visit; second visit : Writer Unit) transcript).2.Settled
      rw [same]
      exact (later passedFirst).2 (same ▸ passed) begins
  | indented laid ih =>
      exact ⟨laws.indented (laid.spells.tidy tidy)
        (@ih tidy visits { transcript with indent := transcript.indent + 1 } controlled nofun).1,
        nofun⟩
  | weaken _ ih =>
      obtain ⟨holds, settles⟩ := ih tidy visits controlled ready
      exact ⟨holds, fun passed _ => settles passed rfl⟩

end Stub

namespace Project

variable {project : Project}

/-- While only long texts are underway, nothing that is written next is among them. -/
theorem Nested.fresh_of_long (coherent : Coherent project.constructs) {id : Nat}
    {underway : List (Nat × Mode)} (nested : project.Nested ((id, .long) :: underway))
    {inner : Nat × Mode} (writes : project.Writes (id, .long) inner) :
    inner ∉ (id, .long) :: underway := by
  intro again
  have turn := Turn.next coherent nested writes
  have short := short_of_cycle coherent (turn.transGen again)
  have long : inner.2 = .long := by
    rcases List.mem_cons.mp again with rfl | outer
    · rfl
    · have linked : project.Turn underway (id, .long) :=
        ⟨nested.inside _ List.mem_cons_self, nested.linked,
          ⟨fun pair member => nested.inside pair (List.mem_cons_of_mem _ member),
            nested.linked.tail, nested.distinct.of_cons⟩⟩
      exact (longRank_lt_of_transGen coherent (linked.transGen outer) rfl).1
  cases short.symm.trans long

end Project

namespace Stub

open Writer

variable {project : Project} {plain : String → Prop} {good : Writer Unit → Transcript → Prop}

/-- In a form that suits it, a construct is laid out. It need not be settled before if it begins
with words of its own. -/
theorem Suits.layout {pair : Nat × Mode} {form : Form} (suits : Suits project pair form)
    (tolerant : Tolerant plain) {construct : Construct}
    (here : project.construct? pair.1 = some construct)
    (named : ∀ text ∈ construct.strings, plain text)
    (called : ∀ name, form = .callOf name → plain name) {settled : Bool}
    (begins : settled = true ∨ Opens form pair.2 construct.kind) :
    LayoutIn plain pair.2 settled (fun visit => writeConstruct visit form construct)
      (construct.mentions pair.2) := by
  cases form with
  | whole => exact writeConstruct_layout tolerant begins named
  | callOf name =>
      obtain ⟨short, sig, there⟩ := suits
      cases here.symm.trans there
      rw [short]
      exact writeConstruct_callOf_layout tolerant (called name rfl) named

/-- The target of a mention that begins with words of its own is of a kind for that. -/
theorem opens_of_mention (coherent : Coherent project.constructs) {id : Nat} {mode : Mode}
    {construct : Construct} (here : project.construct? id = some construct) {mention : Mention}
    (member : mention ∈ construct.mentions mode) (opens : mention.Opens) {target : Construct}
    (there : project.construct? mention.ref.id = some target) :
    Opens mention.form mention.mode target.kind := by
  obtain ⟨kind, role, opens⟩ := opens
  obtain ⟨same, found, accepts⟩ := Project.exists_target_of_mention coherent here member
  cases found.symm.trans there
  rw [role, Role.accepts, decide_eq_true_iff] at accepts
  rw [accepts]
  exact opens

/-- What begins with words of its own in a long text is fresh. -/
theorem fresh_of_opens (coherent : Coherent project.constructs) {id : Nat} {mode : Mode}
    {underway : List (Nat × Mode)} (nested : project.Nested ((id, mode) :: underway))
    {construct : Construct} (here : project.construct? id = some construct) {mention : Mention}
    (member : mention ∈ construct.mentions mode) (long : mode = .long) (opens : mention.Opens) :
    mention.target ∉ (id, mode) :: underway ∧
      ∀ target, project.construct? mention.ref.id = some target →
        Opens mention.form mention.mode target.kind := by
  cases long
  exact ⟨nested.fresh_of_long coherent ⟨construct, here, mention, member, rfl⟩,
    fun _ there => opens_of_mention coherent here member opens there⟩

/-- What is underway already is marked, or fails. -/
theorem again_holds (laws : Compositional project plain good) {id : Nat} {transcript : Transcript}
    (settled : transcript.Settled) (turn : project.Turn transcript.underway (id, transcript.mode))
    (again : (id, transcript.mode) ∈ transcript.underway) (room : Nat) (form : Form) :
    Holds good (writeWithin project room form id) transcript := by
  refine ⟨laws.again settled turn again fun other listed => writeWithin_again listed room form, ?_⟩
  rw [writeWithin_again again]
  intro passed
  simp only [writeCycle] at passed ⊢
  split at passed
  · cases passed
  · cases passed
  · exact settled.write _

/-- **What passes from parts to the whole holds of every construct.** In a coherent project whose
strings are plain, the writer of a construct whose turn it is has every such property, and leaves
the transcript settled if it succeeds. The transcript need not be settled before where a construct
is fresh and begins with words of its own. -/
theorem writeWithin_holds (laws : Compositional project plain good)
    (coherent : Coherent project.constructs) (tolerant : Tolerant plain)
    (named : ∀ construct ∈ project.constructs, ∀ text ∈ construct.strings, plain text)
    {room : Nat} {form : Form} {id : Nat} {transcript : Transcript}
    (ample : transcript.HasRoom room)
    (turn : project.Turn transcript.underway (id, transcript.mode))
    (suits : Suits project (id, transcript.mode) form)
    (called : ∀ name, form = .callOf name → plain name)
    (ready : transcript.Settled ∨ (id, transcript.mode) ∉ transcript.underway ∧
      ∀ construct, project.construct? id = some construct →
        Opens form transcript.mode construct.kind) :
    Holds good (writeWithin project room form id) transcript := by
  induction room generalizing form id transcript with
  | zero =>
      by_cases again : (id, transcript.mode) ∈ transcript.underway
      · exact again_holds laws (ready.resolve_right fun fresh => fresh.1 again) turn again 0 form
      · have full : transcript.options.maxDepth ≤ transcript.depth := Nat.le_of_eq ample.symm
        refine ⟨laws.full again full fun other fresh full => writeWithin_full fresh full 0 form, ?_⟩
        intro passed
        rw [writeWithin_full again full] at passed
        cases passed
  | succ room ih =>
      by_cases again : (id, transcript.mode) ∈ transcript.underway
      · exact again_holds laws (ready.resolve_right fun fresh => fresh.1 again) turn again _ form
      · obtain ⟨construct, here⟩ := Project.exists_construct_of_inside turn.inside
        have nested := turn.enter again
        -- In its layout the text is settled before only if the transcript is.
        obtain ⟨settled, begins, flagged⟩ : ∃ settled : Bool,
            (settled = true ∨ Opens form transcript.mode construct.kind) ∧
              (settled = true → transcript.Settled) := by
          rcases ready with settled | ⟨-, opens⟩
          · exact ⟨true, .inl rfl, fun _ => settled⟩
          · exact ⟨false, .inr (opens construct here), fun flag => absurd flag Bool.false_ne_true⟩
        obtain ⟨text, laid, equal⟩ :=
          suits.layout tolerant here (named construct (List.mem_of_getElem? here)) called begins
        let entered : Transcript := transcript.within id
        have tidy : ∀ mention ∈ construct.mentions transcript.mode,
            Tidy (inMode mention.mode (writeWithin project room mention.form mention.ref.id)) :=
          fun mention member => tidy_of_mention coherent room here member
        have visits : ∀ mention ∈ construct.mentions transcript.mode, ∀ inner : Transcript,
            inner.control = entered.control →
              inner.Settled ∨ transcript.mode = .long ∧ mention.Opens →
            Holds good (inMode mention.mode (writeWithin project room mention.form mention.ref.id))
              inner := by
          intro mention member inner controlled begun
          have sameUnderway : inner.underway = entered.underway :=
            congrArg Control.underway controlled
          have writes : project.Writes (id, transcript.mode) mention.target :=
            ⟨construct, here, mention, member, rfl⟩
          have visited : Holds good (writeWithin project room mention.form mention.ref.id)
              { inner with mode := mention.mode } := by
            apply ih
            · show inner.HasRoom room
              rw [Transcript.HasRoom, controlled]
              exact ample.within id
            · show project.Turn inner.underway mention.target
              rw [sameUnderway]
              exact .next coherent nested writes
            · exact suits_of_mention coherent here member
            · intro name called
              rcases Construct.callOf_mem_strings member called with rfl | listed
              · exact tolerant "" rfl
              · exact named construct (List.mem_of_getElem? here) name listed
            · show inner.Settled ∨ mention.target ∉ inner.underway ∧ _
              rw [sameUnderway]
              exact begun.imp_right fun opens =>
                fresh_of_opens coherent nested here member opens.1 opens.2
          exact ⟨laws.inMode visited.good, visited.settles⟩
        have written : ∀ other : Transcript, other.mode = transcript.mode →
            (id, other.mode) ∉ other.underway → other.depth < other.options.maxDepth →
            writeWithin project (room + 1) form id other =
              underway id (text (writeWithin project room)) other := by
          intro other sameMode fresh below
          apply writeWithin_fresh fresh below here
          intro visit inner inside
          exact equal visit inner (inside.trans sameMode)
        obtain ⟨holds, settles⟩ := @Layout.holds _ _ _ laws entered.control _ _ _ _ laid _ tidy
          visits entered rfl flagged
        refine ⟨laws.enter turn again ample.depth_lt written (laid.spells.tidy tidy) holds, ?_⟩
        rw [written transcript rfl again ample.depth_lt]
        exact fun passed => settles passed rfl

end Stub

end CodeGraph

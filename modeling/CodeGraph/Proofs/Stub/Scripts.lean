import CodeGraph.Proofs.Loading.TwoPasses
import CodeGraph.Proofs.Stub.Tidy

/-! # Scripts

Constructs may be written by hand: a script writes text and constructs in any order, opens blocks
and goes on after failures as it likes. Whatever a script does, and whether or not it fails in the
end, it adds text and leaves the mode, the indentation, the constructs underway and their depth as
they were (`CodeGraph.Transcript.Reached.goesOn`). So a construct comes out the same whenever it is
written in the same mode, at the same indentation and the same place of a line.
-/

namespace CodeGraph

namespace Writer

/-- What can be written by hand: every operation on a transcript, with ids inside the project, and
whatever can be built of them by looking at results and at failures. -/
inductive Script (project : Project) : {α : Type} → Writer α → Prop
  | pure {α : Type} (value : α) : Script project (Pure.pure value)
  | bind {α β : Type} {first : Writer α} {next : α → Writer β} :
      Script project first → (∀ value, Script project (next value)) →
      Script project (first >>= next)
  | fail {α : Type} {error : StubError} :
      (∀ fault, error ≠ .outOfBounds fault) → Script project (throw error : Writer α)
  | recover {α : Type} {body : Writer α} {handler : StubError → Writer α} :
      Script project body → (∀ error, Script project (handler error)) →
      Script project (tryCatch body handler)
  | mode : Script project mode
  | write (text : String) : Script project (write text)
  | newline : Script project newline
  | writeWrapped (before text after : String) : Script project (writeWrapped before text after)
  | writeLine (before text after : String) : Script project (writeLine before text after)
  | writeEach {α : Type} {writeItem : α → Writer Unit} {items : List α}
      (before separator after : String) :
      (∀ item ∈ items, Script project (writeItem item)) →
      Script project (writeEach before separator after writeItem items)
  | construct {id : Nat} : id < project.size → Script project (construct project id)
  | constructWrapped {id : Nat} (before after : String) :
      id < project.size → Script project (constructWrapped project before id after)
  | constructs {ids : List Nat} (before separator after : String) :
      (∀ id ∈ ids, id < project.size) →
      Script project (constructs project before separator after ids)
  | constructLine {ids : List Nat} (before separator after : String) :
      (∀ id ∈ ids, id < project.size) →
      Script project (constructLine project before separator after ids)
  | inMode {α : Type} {body : Writer α} (mode : Mode) :
      Script project body → Script project (inMode mode body)
  | indented {α : Type} {body : Writer α} : Script project body → Script project (indented body)

namespace Tidy

theorem writeWrapped (before text after : String) : Tidy (writeWrapped before text after) := by
  by_cases empty : text = ""
  · rw [Writer.writeWrapped, if_pos empty]
    exact pure false
  · rw [Writer.writeWrapped, if_neg empty]
    exact bind (write before) fun _ => bind (write text) fun _ => bind (write after) fun _ =>
      pure true

/-- Ending the line if something was written is tidy. -/
theorem ending {writes : Writer Bool} (here : Tidy writes) :
    Tidy (do if ← writes then Writer.newline) := by
  refine bind here fun wrote => ?_
  cases wrote with
  | false => exact pure ()
  | true => exact newline

section Items

variable {α : Type} {writeItem : α → Writer Unit}

/-- Items behind the first are tidy if each is. -/
theorem writeRest (separator : String) {items : List α}
    (here : ∀ item ∈ items, Tidy (writeItem item)) :
    Tidy (writeRest separator writeItem items) := by
  induction items with
  | nil => exact pure ()
  | cons item rest ih =>
      obtain ⟨first, later⟩ := List.forall_mem_cons.mp here
      exact bind (write separator) fun _ => bind first fun _ => ih later

/-- Items are tidy if each is. -/
theorem writeEach (before separator after : String) {items : List α}
    (here : ∀ item ∈ items, Tidy (writeItem item)) :
    Tidy (writeEach before separator after writeItem items) := by
  cases items with
  | nil => exact pure false
  | cons item rest =>
      obtain ⟨first, later⟩ := List.forall_mem_cons.mp here
      exact bind (write before) fun _ => bind first fun _ =>
        bind (writeRest separator later) fun _ => bind (write after) fun _ => pure true

end Items

end Tidy

/-- Scripts are tidy, one case for each operation. -/
theorem Script.tidy {project : Project} (coherent : Coherent project.constructs) {α : Type}
    {script : Writer α} (written : Script project script) : Tidy script := by
  induction written with
  | pure value => exact .pure value
  | bind _ _ first next => exact .bind first next
  | fail inside => exact .fail _ inside
  | recover _ _ body handler => exact .recover body handler
  | mode => exact .mode
  | write text => exact .write text
  | newline => exact .newline
  | writeWrapped before text after => exact .writeWrapped before text after
  | writeLine before text after => exact .ending (.writeWrapped before text after)
  | writeEach before separator after _ items => exact .writeEach before separator after items
  | construct inside => exact construct_tidy coherent inside
  | constructWrapped before after inside =>
      exact .bind (.write before) fun _ => .bind (construct_tidy coherent inside) fun _ =>
        .write after
  | constructs before separator after inside =>
      exact .writeEach before separator after fun id member =>
        construct_tidy coherent (inside id member)
  | constructLine before separator after inside =>
      exact .ending (.writeEach before separator after fun id member =>
        construct_tidy coherent (inside id member))
  | inMode mode _ body => exact body.inMode mode
  | indented _ body => exact body.indented

end Writer

namespace Transcript

/-- A transcript that is another one with more text: whatever decides how writing goes on is as it
was, but for the place in the line. -/
structure GoesOn (before after : Transcript) : Prop where
  options : after.options = before.options
  mode : after.mode = before.mode
  indent : after.indent = before.indent
  underway : after.underway = before.underway
  depth : after.depth = before.depth
  text : ∃ added, after.text = before.text ++ added

/-- The transcripts that scripts come to, between operations and at the start of blocks, in blocks
however nested. -/
inductive Reached (project : Project) (options : StubOptions) : Transcript → Prop
  | start : Reached project options (.start options)
  | after {transcript : Transcript} {α : Type} {script : Writer α} :
      Reached project options transcript → Writer.Script project script →
      Reached project options (script transcript).2
  | inMode {transcript : Transcript} (mode : Mode) :
      Reached project options transcript → Reached project options { transcript with mode }
  | indented {transcript : Transcript} :
      Reached project options transcript →
      Reached project options { transcript with indent := transcript.indent + 1 }

namespace Reached

variable {project : Project} {options : StubOptions} {transcript : Transcript}

/-- Between operations nothing is underway, and nothing within anything else. -/
theorem idle (coherent : Coherent project.constructs)
    (reached : Reached project options transcript) :
    transcript.options = options ∧ transcript.underway = [] ∧ transcript.depth = 0 := by
  induction reached with
  | start => exact ⟨rfl, rfl, rfl⟩
  | after _ written ih =>
      obtain ⟨result, added, line, -, runs⟩ := written.tidy coherent _
      rw [runs]
      exact ih
  | inMode _ _ ih => exact ih
  | indented _ ih => exact ih

/-- **A script leaves nothing behind but text.** Let scripts have come to a transcript for a loaded
project. Whatever is written next, and whether it succeeds or fails, the mode, the indentation, the
constructs underway and their depth stay as they were, and so does the text before. So every
construct comes to one result and adds one text, wherever scripts have come to the same mode, the
same indentation and the same place in a line. -/
theorem goesOn {document : Node} (loaded : Project.load document = .ok project)
    (reached : Reached project options transcript) :
    (∀ {α : Type} {script : Writer α}, Writer.Script project script →
      transcript.GoesOn (script transcript).2 ∧
        ∀ fault, (script transcript).1 ≠ .error (.outOfBounds fault)) ∧
    ∀ id < project.size, ∃ result added, ∀ other, Reached project options other →
      other.mode = transcript.mode → other.indent = transcript.indent →
      other.atLineStart = transcript.atLineStart →
      (Writer.construct project id other).1 = result ∧
        (Writer.construct project id other).2.text = other.text ++ added := by
  have coherent := (Project.coherent_of_load loaded).1
  constructor
  · intro α script written
    obtain ⟨result, added, line, inside, runs⟩ := written.tidy coherent transcript
    have ran : script transcript = _ := runs transcript.text
    rw [ran]
    exact ⟨⟨rfl, rfl, rfl, rfl, rfl, added, rfl⟩, inside⟩
  · intro id inside
    obtain ⟨result, added, line, -, runs⟩ := Writer.construct_tidy coherent inside transcript
    refine ⟨result, added, ?_⟩
    intro other reachedOther mode indent place
    obtain ⟨options, underway, depth⟩ := reached.idle coherent
    obtain ⟨optionsOther, underwayOther, depthOther⟩ := reachedOther.idle coherent
    have same : other = { transcript with text := other.text } := by
      cases other
      simp_all
    have ran : Writer.construct project id other = _ :=
      (congrArg _ same).trans (runs other.text)
    rw [ran]
    exact ⟨rfl, rfl⟩

/-- A structure that mentions itself fails in the middle of a line. On the next line it fails again,
behind the same text. -/
theorem goesOn_sample :
    Project.load Sample.document = .ok Sample.project ∧
      Reached Sample.project .standard (.start .standard) ∧
      ∃ nextLine, Reached Sample.project .standard nextLine ∧ ∃ error added,
        (Writer.construct Sample.project 2 (.start .standard)).1 = .error error ∧
        nextLine.text = added ++ "\n" ∧
        (Writer.construct Sample.project 2 nextLine).1 = .error error ∧
        (Writer.construct Sample.project 2 nextLine).2.text = nextLine.text ++ added := by
  have inside : 2 < Sample.project.size := by decide
  have reached : Reached Sample.project .standard (.start .standard) := .start
  have written : Writer.Script Sample.project (tryCatch
      (Writer.construct Sample.project 2) fun _ => Writer.newline : Writer Unit) :=
    .recover (.construct inside) fun _ => .newline
  have outcome : Writer.Outcome (Transcript.start .standard).control
      (Stub.writeWithin Sample.project 256 .whole 2) _ :=
    Stub.writeWithin_outcome (Project.coherent_of_load Sample.load_document).1
      (Transcript.hasRoom_start .standard) inside trivial
  have failed : (Writer.construct Sample.project 2 (.start .standard)).1 =
      .error (.recursion 2 .structDesc .short) :=
    outcome.result (.start .standard) rfl
  generalize StubError.recursion 2 .structDesc .short = error at failed
  have ran : (tryCatch (Writer.construct Sample.project 2) fun _ => Writer.newline : Writer Unit)
      (.start .standard) =
        Writer.newline (Writer.construct Sample.project 2 (.start .standard)).2 := by
    rw [Writer.tryCatch_apply]
    generalize Writer.construct Sample.project 2 (.start .standard) = run at failed
    rcases run with ⟨_, after⟩
    cases failed
    rfl
  obtain ⟨result, added, same⟩ := (goesOn Sample.load_document reached).2 2 inside
  obtain ⟨first, text⟩ := same _ reached rfl rfl rfl
  have goes := ((goesOn Sample.load_document reached).1 written).1
  have nextLine := reached.after written
  rw [ran] at goes nextLine
  obtain ⟨second, later⟩ := same _ nextLine goes.mode goes.indent rfl
  refine ⟨Sample.load_document, reached, _, nextLine, error, added, failed, ?_,
    second.trans (first.symm.trans failed), later⟩
  exact congrArg (· ++ "\n") text

end Reached

end Transcript

end CodeGraph

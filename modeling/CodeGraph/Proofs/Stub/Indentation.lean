import CodeGraph.Proofs.Loading.TwoPasses
import CodeGraph.Proofs.Stub.Shifting

/-! # Brackets and lines of stubs

A text in the making can be read as far as it goes: its brackets are nested, and its lines begin
with the blanks that their braces call for. Each part of a framed text leaves that so, from the spot
where it begins to the spot where it ends, and the indentation counts the braces that are open. So
the stubs of a project are well formed as long as its names are
(`CodeGraph.Project.stub_wellFormed`).
-/

namespace CodeGraph

open Stub Writer

namespace Reading

/-- A transcript is within a line where its text has been read. -/
def Within (reading : Reading) (transcript : Transcript) : Prop :=
  reading.blanks = none ∧ transcript.atLineStart = false

/-- A transcript is at the front of a line, indented as many levels as braces are open. -/
def AtFront (reading : Reading) (transcript : Transcript) : Prop :=
  reading.blanks = some 0 ∧ transcript.atLineStart = true ∧ transcript.indent = reading.level

/-- A transcript is at a place of a line where its text has been read. -/
def At (reading : Reading) (transcript : Transcript) : LinePlace → Prop
  | .within => reading.Within transcript
  | .loose => reading.Within transcript ∨ reading.AtFront transcript ∧ transcript.text = ""
  | .front => reading.Within transcript ∨ reading.AtFront transcript

variable {reading : Reading} {transcript : Transcript} {place : LinePlace}

/-- Within a line a reading stands at any place. -/
theorem Within.at (within : reading.Within transcript) : reading.At transcript place := by
  cases place with
  | within => exact within
  | loose | front => exact .inl within

/-- A reading stands within a line or in front of one. -/
theorem At.cases (here : reading.At transcript place) :
    reading.Within transcript ∨ place ≠ .within ∧ reading.AtFront transcript := by
  cases place with
  | within => exact .inl here
  | loose => exact here.imp_right fun nothing => ⟨nofun, nothing.1⟩
  | front => exact here.imp_right fun front => ⟨nofun, front⟩

end Reading

/-- The text of a transcript can be read, and comes to a spot. -/
def Transcript.Stands (lines : Bool) (transcript : Transcript) (spot : Spot) : Prop :=
  ∃ reading, Reading.start.run lines transcript.text.toList = some reading ∧
    reading.opened = spot.opened ∧ reading.At transcript spot.place

/-- A text without blanks, ends of lines and brackets. -/
def Undivided (text : String) : Prop := ∀ c ∈ text.toList, c ≠ ' ' ∧ c ≠ '\n' ∧ c ∉ brackets

instance (text : String) : Decidable (Undivided text) :=
  List.decidableBAll (fun c => c ≠ ' ' ∧ c ≠ '\n' ∧ c ∉ brackets) text.toList

theorem undivided_empty : Undivided "" := fun _ member => absurd member List.not_mem_nil

namespace Transcript.Stands

variable {lines : Bool} {transcript : Transcript} {opened closed : List Char} {place : LinePlace}

/-- At the start a transcript stands in front of everything. -/
theorem start (lines : Bool) (options : StubOptions) :
    (Transcript.start options).Stands lines ⟨[], .loose⟩ :=
  ⟨.start, rfl, rfl, .inr ⟨⟨rfl, rfl, rfl⟩, rfl⟩⟩

/-- What stands within a line stands at any place. -/
theorem weaken (stands : transcript.Stands lines ⟨opened, .within⟩) :
    transcript.Stands lines ⟨opened, place⟩ := by
  obtain ⟨reading, read, same, within⟩ := stands
  exact ⟨reading, read, same, Reading.Within.at within⟩

/-- Text can be read where it comes, at the front of a line with its blanks. -/
theorem of_write {reading : Reading}
    (read : Reading.start.run lines transcript.text.toList = some reading) {text : String}
    (inLine : '\n' ∉ text.toList) (reads : openBehind reading.opened text.toList = some closed)
    (fits : reading.Within transcript ∨ reading.blanks = some 0 ∧ transcript.atLineStart = true ∧
      ∃ c rest, text.toList = c :: rest ∧ c ≠ ' ' ∧
        transcript.indent = reading.level - if c = '}' then 1 else 0) :
    (transcript.write text).Stands lines ⟨closed, .within⟩ := by
  rcases fits with ⟨within, begun⟩ | ⟨front, begins, c, rest, spelled, filled, levels⟩
  · rw [write_of_begun begun]
    refine ⟨{ reading with opened := closed }, ?_, rfl, within, rfl⟩
    rw [String.toList_append, Reading.run_append, read]
    exact Reading.run_within within inLine reads
  · have nonempty : text ≠ "" := by
      rintro rfl
      cases spelled
    rw [write_of_atLineStart begins nonempty]
    refine ⟨{ reading with opened := closed, blanks := none }, ?_, rfl, rfl, rfl⟩
    rw [spelled] at inLine reads
    rw [String.toList_append, Reading.run_append, read, String.toList_append, indentation,
      String.toList_ofList, spelled]
    exact Reading.run_front front levels filled inLine reads

/-- A text that does not begin with a blank or a closing brace can be read anywhere in a line. -/
theorem write (stands : transcript.Stands lines ⟨opened, place⟩) {text : String}
    (inLine : '\n' ∉ text.toList) (begins : beginsLine text = true ∨ place = .within)
    (reads : openBehind opened text.toList = some closed) :
    (transcript.write text).Stands lines ⟨closed, .within⟩ := by
  obtain ⟨reading, read, rfl, here⟩ := stands
  apply of_write read inLine reads
  refine here.cases.imp_right ?_
  rintro ⟨other, front, atLineStart, level⟩
  refine ⟨front, atLineStart, ?_⟩
  have begins := begins.resolve_right other
  unfold beginsLine at begins
  split at begins
  · cases begins
  · rename_i c rest spelled
    simp only [Bool.and_eq_true, decide_eq_true_eq] at begins
    refine ⟨c, rest, spelled, begins.1, ?_⟩
    rw [if_neg begins.2, Nat.sub_zero]
    exact level

/-- A literal leads on from its start to its end. -/
theorem write_literal {start : Spot} {text : String} (literal : Literal text start closed)
    {base : List Char} (stands : transcript.Stands lines ⟨start.opened ++ base, start.place⟩) :
    (transcript.write text).Stands lines ⟨closed ++ base, .within⟩ :=
  stands.write (by simpa [unbroken] using literal.inLine) (literal.begins.imp_right And.left)
    (openBehind_outside literal.reads base)

/-- A word leads into the line. -/
theorem write_word (stands : transcript.Stands lines ⟨opened, place⟩) {text : String}
    (undivided : Undivided text) (nonempty : text ≠ "") :
    (transcript.write text).Stands lines ⟨opened, .within⟩ := by
  apply stands.write
  · exact fun ends => (undivided _ ends).2.1 rfl
  · left
    unfold beginsLine
    split
    · rename_i empty
      exact absurd (String.toList_eq_nil_iff.mp empty) nonempty
    · rename_i c rest spelled
      obtain ⟨filled, -, other⟩ := undivided c (spelled ▸ List.mem_cons_self)
      have notBrace : c ≠ '}' := by
        rintro rfl
        exact other (by decide)
      simp [filled, notBrace]
  · exact openBehind_of_plain (fun c member => (undivided c member).2.2) opened

/-- A text without breaks leads nowhere else. -/
theorem write_undivided (stands : transcript.Stands lines ⟨opened, place⟩) {text : String}
    (undivided : Undivided text) : (transcript.write text).Stands lines ⟨opened, place⟩ := by
  by_cases empty : text = ""
  · rw [empty, write_empty]
    exact stands
  · exact (stands.write_word undivided empty).weaken

/-- The marker of a cycle leads into the line. -/
theorem write_marker (stands : transcript.Stands lines ⟨opened, place⟩) (kind : Kind) (id : Nat)
    (mode : Mode) :
    (transcript.write s!"<recursion: {kind.name}{idLabel id} {mode.name}>").Stands lines
      ⟨opened, .within⟩ := by
  apply stands.write
  · exact not_mem_marker List.mem_cons_self kind id mode
  · left
    show beginsLine ("<recursion: " ++ _ ++ _ ++ _ ++ _ ++ _) = true
    simp [beginsLine]
  · apply openBehind_of_plain
    intro c member bracket
    exact not_mem_marker (List.mem_cons_of_mem _ bracket) kind id mode member

/-- The brace that ends a block stands one level further out. -/
theorem close (stands : transcript.Stands lines ⟨'{' :: opened, .front⟩) {levels : Nat}
    (level : transcript.indent = levels + 1) :
    ({ transcript with indent := levels }.write "\x7d").Stands lines ⟨opened, .within⟩ := by
  obtain ⟨reading, read, same, here⟩ := stands
  have read : Reading.start.run lines { transcript with indent := levels }.text.toList =
      some reading := read
  apply of_write read (by decide)
  · rw [same]
    rfl
  · refine here.imp_right ?_
    rintro ⟨front, atLineStart, counted⟩
    refine ⟨front, atLineStart, '}', [], rfl, by decide, ?_⟩
    rw [← counted, level]
    rfl

/-- At the front of a line the braces that are open are its levels. -/
theorem newline (stands : transcript.Stands true ⟨opened, .within⟩) {levels : Nat}
    (counted : opened.count '{' = levels) :
    { transcript.newline with indent := levels }.Stands true ⟨opened, .front⟩ := by
  obtain ⟨reading, read, rfl, within, -⟩ := stands
  refine ⟨⟨reading.opened, reading.opened.count '{', some 0⟩, ?_, rfl, .inr ⟨rfl, rfl, ?_⟩⟩
  · show Reading.start.run true (transcript.text ++ "\n").toList = _
    rw [String.toList_append, Reading.run_append, read]
    show (reading.next true '\n').bind some = _
    simp [Reading.next, within]
  · exact counted.symm

end Transcript.Stands

namespace Stub

/-- The spot within brackets that are open further out. -/
def Spot.behind (spot : Spot) (base : List Char) : Spot := ⟨spot.opened ++ base, spot.place⟩

/-- What a writer in a mode leaves behind where there is just so much room and it succeeds: the text
can be read to the spot that it comes to, and writing goes on as before. In long mode the braces
that are open further out are as many as the levels. -/
def Carries (lines : Bool) (mode : Mode) (room : Nat) (start finish : Spot)
    (writer : Writer Unit) : Prop :=
  ∀ base transcript, transcript.mode = mode → transcript.HasRoom room →
    (mode = .long → lines = true ∧ base.count '{' = transcript.indent) →
    transcript.Stands lines (start.behind base) → (writer transcript).1 = .ok () →
    (writer transcript).2.Stands lines (finish.behind base) ∧
      (writer transcript).2.control = transcript.control ∧
      (writer transcript).2.indent = transcript.indent

end Stub

namespace Transcript

/-- Writing text does not change the indentation. -/
theorem write_indent (transcript : Transcript) (text : String) :
    (transcript.write text).indent = transcript.indent := by
  unfold write
  split <;> [rfl; split <;> rfl]

end Transcript

namespace Stub.Carries

variable {lines : Bool} {mode : Mode} {room : Nat} {start between finish : Spot}

/-- Brackets that are opened inside do not count outside, if none is a brace. -/
theorem count_behind {opened : List Char} (balanced : '{' ∉ opened) (base : List Char) :
    (opened ++ base).count '{' = base.count '{' := by
  rw [List.count_append, List.count_eq_zero.mpr balanced, Nat.zero_add]

/-- Text is carried if it is for every transcript that stands there. -/
theorem of_write {text : String}
    (stands : ∀ base transcript, Transcript.Stands lines transcript (start.behind base) →
      (transcript.write text).Stands lines (finish.behind base)) :
    Carries lines mode room start finish (write text) := by
  intro base transcript _ _ _ here _
  exact ⟨stands base transcript here, transcript.control_write text, transcript.write_indent text⟩

/-- Two texts in a row are carried one after the other. -/
theorem seq {first second : Writer Unit} (before : Carries lines mode room start between first)
    (behind : Carries lines mode room between finish second) :
    Carries lines mode room start finish (do first; second) := by
  intro base transcript sameMode ample long stands passed
  obtain ⟨passedFirst, same⟩ := seq_eq_ok passed
  rw [same] at passed ⊢
  obtain ⟨stands, kept, indent⟩ := before base transcript sameMode ample long stands passedFirst
  rw [Transcript.HasRoom, ← kept] at ample
  rw [← indent] at long ⊢
  rw [← kept]
  exact behind base _ ((congrArg Control.mode kept).trans sameMode) ample long stands passed

/-- A line that ends in long mode, at any level that its braces call for. -/
theorem endLine {closed : List Char} {text : String} (long : mode = .long)
    (literal : Literal text start closed) (balanced : '{' ∉ closed) :
    Carries lines mode room start ⟨closed, .front⟩ (do write text; newline) := by
  intro base transcript _ _ levels stands _
  obtain ⟨rfl, counted⟩ := levels long
  have level : (closed ++ base).count '{' = (transcript.write text).indent := by
    rw [count_behind balanced, counted, transcript.write_indent]
  exact ⟨(stands.write_literal literal).newline level, transcript.control_write text,
    transcript.write_indent text⟩

/-- What is visited stands within the brackets that are open around it. -/
theorem visit {opened : List Char} {place after : LinePlace} {other : Mode} {body : Writer Unit}
    (carries : Carries lines other room ⟨[], place⟩ ⟨[], after⟩ body)
    (levels : other = .long → mode = .long ∧ '{' ∉ opened) :
    Carries lines mode room ⟨opened, place⟩ ⟨opened, after⟩ (inMode other body) := by
  intro base transcript sameMode ample long stands passed
  have longInside : other = .long →
      lines = true ∧ (opened ++ base).count '{' = transcript.indent := by
    intro inner
    obtain ⟨outer, balanced⟩ := levels inner
    rw [count_behind balanced]
    exact long outer
  obtain ⟨stands, kept, indent⟩ := carries (opened ++ base) { transcript with mode := other } rfl
    ample longInside stands passed
  exact ⟨stands, congrArg (fun control => { control with mode := transcript.mode }) kept, indent⟩

/-- The lines of a block stand one level further in than its braces. -/
theorem block {opened : List Char} {opening : String} {body : Writer Unit} (long : mode = .long)
    (balanced : '{' ∉ opened) (literal : Literal opening start ('{' :: opened))
    (carries : Carries lines mode room ⟨[], .front⟩ ⟨[], .front⟩ body) :
    Carries lines mode room start ⟨opened, .within⟩
      (do write opening; newline; indented body; write "\x7d") := by
  intro base transcript sameMode ample levels stands passed
  obtain ⟨rfl, counted⟩ := levels long
  -- The lines inside count the opening brace as one of those that are open further out.
  let begun := transcript.write opening
  have indent : begun.indent = transcript.indent := transcript.write_indent opening
  have kept : begun.control = transcript.control := transcript.control_write opening
  have level : ('{' :: opened ++ base).count '{' = begun.indent + 1 := by
    rw [List.cons_append, List.count_cons_self, count_behind balanced, counted, indent]
  have opens : (do Writer.write opening; newline; indented body; Writer.write "\x7d") transcript =
      (do indented body; Writer.write "\x7d") begun.newline := rfl
  rw [opens] at passed ⊢
  obtain ⟨passedBody, same⟩ := seq_eq_ok passed
  obtain ⟨ended, endControl, endIndent⟩ := carries ('{' :: opened ++ base)
    { begun.newline with indent := begun.indent + 1 }
    ((congrArg Control.mode kept).trans sameMode)
    (show begun.HasRoom room by rwa [Transcript.HasRoom, kept]) (fun _ => ⟨rfl, level⟩)
    ((stands.write_literal literal).newline level) passedBody
  -- The body leaves the level that it found, so one level out is the level of the opening brace.
  have out : (Writer.indented body begun.newline).2.indent = begun.indent :=
    congrArg (· - 1) endIndent
  have closing : (body { begun.newline with indent := begun.indent + 1 }).2.indent =
      (Writer.indented body begun.newline).2.indent + 1 :=
    endIndent.trans (congrArg (· + 1) out.symm)
  rw [same]
  exact ⟨ended.close closing, (Transcript.control_write _ _).trans (endControl.trans kept),
    (Transcript.write_indent _ _).trans (out.trans indent)⟩

end Stub.Carries

namespace Stub

variable {lines : Bool} {mode : Mode} {room : Nat} {project : Project}

/-- A text without blanks, ends of lines and brackets that is not empty. -/
def Word (text : String) : Prop := Undivided text ∧ text ≠ ""

/-- A framed text carries what it visits. -/
theorem Framed.carries {start finish : Spot} {text : Visit → Writer Unit} {mentions : List Mention}
    (framed : Framed Undivided Word mode start text mentions finish) {visit : Visit}
    (visits : ∀ mention ∈ mentions, ∀ place : LinePlace,
      (place = .front → mode = .long ∧ mention.Opens) →
      Carries lines mention.mode room ⟨[], place⟩ ⟨[], place.after⟩
        (visit mention.form mention.ref.id)) :
    Carries lines mode room start finish (text visit) := by
  induction framed with
  | nothing => exact fun _ _ _ _ _ stands _ => ⟨stands, rfl, rfl⟩
  | plain undivided => exact .of_write fun _ _ stands => stands.write_undivided undivided
  | word _ word => exact .of_write fun _ _ stands => stands.write_word word.1 word.2
  | literal literal => exact .of_write fun _ _ stands => stands.write_literal literal
  | endLine long literal balanced => exact .endLine long literal balanced
  | visit mention front levels =>
      exact (visits mention List.mem_cons_self _ front).visit levels
  | seq _ _ first second =>
      obtain ⟨before, behind⟩ := List.forall_mem_append.mp visits
      exact (first before).seq (second behind)
  | block long balanced literal _ body => exact .block long balanced literal (body visits)
  | weaken _ ih =>
      intro base transcript sameMode ample long stands passed
      obtain ⟨stands, kept⟩ := ih visits base transcript sameMode ample long stands passed
      exact ⟨stands.weaken, kept⟩

/-- In a form that suits it, a construct is framed. -/
theorem Suits.framed {pair : Nat × Mode} {form : Form} (suits : Suits project pair form)
    {construct : Construct} (here : project.construct? pair.1 = some construct)
    (undivided : ∀ text ∈ construct.strings, Undivided text) (named : construct.name? ≠ some "")
    (called : ∀ name, form = .callOf name → Undivided name) {place : LinePlace}
    (begins : place = .front → Opens form pair.2 construct.kind) :
    FramedIn Undivided Word pair.2 place (fun visit => writeConstruct visit form construct)
      (construct.mentions pair.2) := by
  cases form with
  | whole =>
      apply writeConstruct_framed undivided_empty begins _ undivided
      intro name known
      refine ⟨undivided name (Construct.mem_strings_of_name? known), ?_⟩
      rintro rfl
      exact named known
  | callOf name =>
      obtain ⟨short, sig, there⟩ := suits
      cases here.symm.trans there
      rw [short]
      exact writeConstruct_callOf_framed (called name rfl) undivided

/-- The marker of a cycle can stand anywhere. -/
theorem writeCycle_carries (id : Nat) {opened : List Char} {place after : LinePlace} :
    Carries lines mode room ⟨opened, place⟩ ⟨opened, after⟩ (writeCycle project id) := by
  intro base transcript _ _ _ stands passed
  simp only [writeCycle] at passed ⊢
  split at passed
  · cases passed
  · cases passed
  · exact ⟨(stands.write_marker _ _ _).weaken, transcript.control_write _,
      transcript.write_indent _⟩

/-- **Every construct carries what can be read.** In a coherent project whose names are words, what
is written for a construct can be read where the text before can be. It may come at the front of a
line if it begins with words of its own. -/
theorem writeWithin_carries (coherent : Coherent project.constructs)
    (undivided : ∀ construct ∈ project.constructs, ∀ text ∈ construct.strings, Undivided text)
    (named : ∀ construct ∈ project.constructs, construct.name? ≠ some "") {room : Nat} {form : Form}
    {id : Nat} (inside : id < project.size) (suits : Suits project (id, mode) form)
    (called : ∀ name, form = .callOf name → Undivided name) {place : LinePlace}
    (begins : place = .front → ∀ construct, project.construct? id = some construct →
      Opens form mode construct.kind) :
    Carries lines mode room ⟨[], place⟩ ⟨[], place.after⟩ (writeWithin project room form id) := by
  induction room generalizing form id mode place with
  | zero =>
      intro base transcript sameMode ample long stands passed
      by_cases again : (id, transcript.mode) ∈ transcript.underway
      · rw [writeWithin_again again] at passed ⊢
        exact writeCycle_carries id base transcript sameMode ample long stands passed
      · rw [writeWithin_full again (Nat.le_of_eq ample.symm)] at passed
        cases passed
  | succ room ih =>
      intro base transcript sameMode ample long stands passed
      by_cases again : (id, transcript.mode) ∈ transcript.underway
      · rw [writeWithin_again again] at passed ⊢
        exact writeCycle_carries id base transcript sameMode ample long stands passed
      · obtain ⟨construct, here⟩ := Project.exists_construct_of_inside inside
        have member := List.mem_of_getElem? here
        obtain ⟨text, framed, equal⟩ := suits.framed here (undivided construct member)
          (named construct member) called fun front => begins front construct here
        have carries : Carries lines mode room ⟨[], place⟩ ⟨[], place.after⟩
            (text (writeWithin project room)) := by
          apply framed.carries
          intro mention mentioned place front
          have writes : project.Writes (id, mode) mention.target :=
            ⟨construct, here, mention, mentioned, rfl⟩
          apply ih (writes.inside coherent) (suits_of_mention coherent here mentioned)
          · intro name called
            rcases Construct.callOf_mem_strings mentioned called with rfl | listed
            · exact undivided_empty
            · exact undivided construct member name listed
          · intro atFront target there
            exact opens_of_mention coherent here mentioned (front atFront).2 there
        have written : writeWithin project (room + 1) form id transcript =
            underway id (text (writeWithin project room)) transcript :=
          writeWithin_fresh again ample.depth_lt here fun visit inner same =>
            equal visit inner (same.trans sameMode)
        rw [written] at passed ⊢
        obtain ⟨stands, kept, indent⟩ := carries base (transcript.within id) sameMode
          (ample.within id) long stands passed
        exact ⟨stands, underway_control kept, indent⟩

end Stub

namespace Project

variable {project : Project} {options : StubOptions}

/-- A stub can be read: nothing is open at its end, which is in a line if there is any text. -/
theorem exists_reading_of_stub (coherent : Coherent project.constructs)
    (undivided : ∀ construct ∈ project.constructs, ∀ text ∈ construct.strings, Undivided text)
    (named : ∀ construct ∈ project.constructs, construct.name? ≠ some "") {id : Nat}
    (inside : id < project.size) {text : String} (written : project.stub options id = .ok text) :
    ∃ reading, Reading.start.run (options.mode = .long) text.toList = some reading ∧
      reading.opened = [] ∧ (reading.blanks = none ∨ text = "") := by
  obtain ⟨passed, rfl⟩ := stub_eq_ok_iff.mp written
  have carries : Carries (options.mode = .long) options.mode options.maxDepth ⟨[], .loose⟩
      ⟨[], .loose⟩
      (writeWithin project options.maxDepth .whole id) := by
    apply writeWithin_carries coherent undivided named inside
    · trivial
    · exact nofun
    · exact nofun
  obtain ⟨⟨reading, read, closed, place⟩, -⟩ := carries [] (.start options) rfl
    (Transcript.hasRoom_start options)
    (fun long => ⟨decide_eq_true long, rfl⟩) (.start _ options) passed
  exact ⟨reading, read, closed, place.imp And.left And.right⟩

end Project

/-- The brackets of a stub are nested and closed. A short stub is a single line. The lines of a long
stub are indented by its braces, none is empty, and the last one does not end. -/
structure WellFormed (mode : Mode) (text : List Char) : Prop where
  balanced : Balanced text
  unbroken : mode = .short → '\n' ∉ text
  indented : mode = .long → WellIndented text
  unended : mode = .long → text.getLast? ≠ some '\n'

namespace Project

variable {project : Project}

/-- **Stubs are well formed.** In a loaded project in which no construct has an empty name and no
string that is written holds a blank, the end of a line or a bracket, the brackets of every stub are
nested and closed, a short stub is a single line, and the lines of a long stub are indented by two
blanks for each brace that is open in front of them. -/
theorem stub_wellFormed {document : Node} (loaded : load document = .ok project)
    (named : ∀ construct ∈ project.constructs, construct.name? ≠ some "")
    (undivided : ∀ construct ∈ project.constructs, ∀ text ∈ construct.strings, Undivided text)
    {id : Nat} (inside : id < project.size) {options : StubOptions} {text : String}
    (written : project.stub options id = .ok text) : WellFormed options.mode text.toList := by
  obtain ⟨reading, read, closed, ends⟩ :=
    exists_reading_of_stub (coherent_of_load loaded).1 undivided named inside written
  have inLine : reading.blanks = none ∨ text.toList = [] :=
    ends.imp_right String.toList_eq_nil_iff.mpr
  refine ⟨?_, ?_, fun _ => Reading.wellIndented_of_run read inLine, ?_⟩
  · have balanced := Reading.openBehind_of_run read
    rw [closed] at balanced
    exact balanced
  · intro short
    rw [short] at read
    exact Reading.unbroken_of_run read
  · intro _ newline
    obtain ⟨front, -⟩ := Reading.front_of_run read (.inr newline)
    rcases inLine with within | empty
    · cases within.symm.trans front
    · rw [empty] at newline
      cases newline

end Project

/-- The long stub of the sample's package, with the cycle of its list marked. -/
def Sample.packageStub : String :=
  let list := "struct\x7b value T; next struct\x7b value T; " ++
    "next <recursion: structDesc#2 short> \x7d \x7d"
  "package lists \x7b\n" ++
  "  type List[T int] " ++ list ++ ";\n" ++
  "  inst List[int] " ++ list ++ ";\n" ++
  "\x7d"

namespace Project

/-- The stub of the sample's package is well formed. -/
theorem stub_wellFormed_sample :
    load Sample.document = .ok Sample.project ∧
      (∀ construct ∈ Sample.project.constructs, construct.name? ≠ some "") ∧
      (∀ construct ∈ Sample.project.constructs, ∀ text ∈ construct.strings, Undivided text) ∧
      3 < Sample.project.size ∧
      Sample.project.stub ⟨.long, .mark, 256⟩ 3 = .ok Sample.packageStub ∧
      WellFormed .long Sample.packageStub.toList := by
  have named : ∀ construct ∈ Sample.project.constructs, construct.name? ≠ some "" := by decide
  have undivided : ∀ construct ∈ Sample.project.constructs, ∀ text ∈ construct.strings,
      Undivided text := by decide
  have inside : 3 < Sample.project.size := by decide
  have written : Sample.project.stub ⟨.long, .mark, 256⟩ 3 = .ok Sample.packageStub := by
    decide +kernel
  exact ⟨Sample.load_document, named, undivided, inside, written,
    stub_wellFormed Sample.load_document named undivided inside written⟩

end Project

end CodeGraph

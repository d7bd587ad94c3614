import CodeGraph.Proofs.Stub.Composition

/-! # Texts within a package

A construct is written within a package as it is written alone, but for the indentation of its lines
(`CodeGraph.Writer.shifts_compositional`). The package is underway and there is one construct more
within it, which makes no difference to its members: nothing leads back to a package in long mode.
-/

namespace CodeGraph

open Stub

/-- The text with two blanks behind every end of a line. -/
def shiftLines (text : String) : String :=
  String.ofList (text.toList.flatMap fun c => if c = '\n' then ['\n', ' ', ' '] else [c])

/-- The text with two blanks at the front of every line. -/
def indentLines (text : String) : String := "  " ++ shiftLines text

/-- Lines in two texts are shifted text by text. -/
theorem shiftLines_append (front back : String) :
    shiftLines (front ++ back) = shiftLines front ++ shiftLines back := by
  simp [shiftLines]

/-- The first line of the front is indented, and all that follow are shifted. -/
theorem indentLines_append (front back : String) :
    indentLines (front ++ back) = indentLines front ++ shiftLines back := by
  rw [indentLines, shiftLines_append, ← String.append_assoc]
  rfl

/-- Within a line nothing is shifted. -/
theorem shiftLines_of_unbroken {text : String} (unbroken : '\n' ∉ text.toList) :
    shiftLines text = text := by
  have same : text.toList.flatMap (fun c => if c = '\n' then ['\n', ' ', ' '] else [c]) =
      text.toList.flatMap fun c => [c] := by
    apply List.flatMap_congr
    intro c member
    rw [if_neg]
    rintro rfl
    exact unbroken member
  rw [shiftLines, same]
  simp

namespace StubError

/-- The failure with another limit of depth. -/
def withLimit (limit : Nat) : StubError → StubError
  | tooDeep _ => tooDeep limit
  | error => error

end StubError

/-- The marker of a cycle is a single line without brackets. -/
theorem not_mem_marker {c : Char} (strange : c ∈ '\n' :: brackets) (kind : Kind) (id : Nat)
    (mode : Mode) : c ∉ s!"<recursion: {kind.name}{idLabel id} {mode.name}>".toList := by
  have absent {text : List Char}
      (check : (text.all fun other => other ∉ '\n' :: brackets) = true) : c ∉ text :=
    fun member => of_decide_eq_true (List.all_eq_true.mp check c member) strange
  have digits : c ∉ Nat.toDigits 10 id := by
    intro member
    have digit := Nat.isDigit_of_mem_toDigits (by decide) (by decide) member
    have none : (('\n' :: brackets).all fun other => !other.isDigit) = true := by decide
    simpa [digit] using List.all_eq_true.mp none c strange
  have kindName : c ∉ kind.name.toList := absent (by cases kind <;> decide)
  have modeName : c ∉ mode.name.toList := absent (by cases mode <;> decide)
  have word : c ∉ "<recursion: # >".toList := absent (by decide)
  show c ∉ ("<recursion: " ++ kind.name ++ ("#" ++ id.repr) ++ " " ++ mode.name ++ ">").toList
  simp only [String.reduceToList, List.mem_cons, List.not_mem_nil, or_false, not_or] at word
  simp [digits, kindName, modeName, word]

/-- A transcript beside one of the same text within a package: the lines of the text that stands
behind the front are indented once more, and the package is underway around it all. -/
structure Shifted (pack limit : Nat) (front : String) (alone within : Transcript) : Prop where
  options : within.options = { alone.options with maxDepth := limit }
  mode : within.mode = alone.mode
  indent : within.indent = alone.indent + 1
  underway : within.underway = alone.underway ++ [(pack, .long)]
  depth : within.depth = alone.depth + 1
  limit : limit = alone.options.maxDepth + 1
  line : within.atLineStart = alone.atLineStart
  /-- At the front of a line the blanks are still to be written. -/
  text : within.text ++ (if alone.atLineStart then "  " else "") = front ++ indentLines alone.text

namespace Shifted

variable {pack limit : Nat} {front : String} {alone within : Transcript}

/-- One level more is two blanks more. -/
theorem indentation_succ (levels : Nat) :
    Transcript.indentation (levels + 1) = "  " ++ Transcript.indentation levels := by
  have blanks : List.replicate (2 * (levels + 1)) ' ' =
      [' ', ' '] ++ List.replicate (2 * levels) ' ' := by
    rw [Nat.mul_succ, Nat.add_comm, List.replicate_add]
    rfl
  rw [Transcript.indentation, blanks, String.ofList_append]
  rfl

/-- Two transcripts stay beside each other when text is added to both and the lines stay so. -/
theorem extend (shifted : Shifted pack limit front alone within) {added more : String} {line : Bool}
    (text : within.text ++ more ++ (if line then "  " else "") =
      front ++ indentLines (alone.text ++ added)) :
    Shifted pack limit front { alone with text := alone.text ++ added, atLineStart := line }
      { within with text := within.text ++ more, atLineStart := line } :=
  ⟨shifted.options, shifted.mode, shifted.indent, shifted.underway, shifted.depth, shifted.limit,
    rfl, text⟩

/-- Text within a line is written the same in both. -/
theorem write (shifted : Shifted pack limit front alone within) {text : String}
    (plain : '\n' ∉ text.toList) :
    Shifted pack limit front (alone.write text) (within.write text) := by
  have textual := shifted.text
  by_cases empty : text = ""
  · rw [empty, Transcript.write_empty, Transcript.write_empty]
    exact shifted
  · cases begins : alone.atLineStart with
    | false =>
        have begun : within.atLineStart = false := shifted.line.trans begins
        rw [begins, if_neg Bool.false_ne_true, String.append_empty] at textual
        rw [Transcript.write_of_begun begins, Transcript.write_of_begun begun]
        apply shifted.extend
        rw [if_neg Bool.false_ne_true, String.append_empty, indentLines_append,
          shiftLines_of_unbroken plain, textual, String.append_assoc]
    | true =>
        have starts : within.atLineStart = true := shifted.line.trans begins
        rw [begins, if_pos rfl] at textual
        rw [Transcript.write_of_atLineStart begins empty,
          Transcript.write_of_atLineStart starts empty]
        apply shifted.extend
        have blanks : '\n' ∉ (Transcript.indentation alone.indent ++ text).toList := by
          simp [Transcript.indentation, plain]
        rw [if_neg Bool.false_ne_true, String.append_empty, indentLines_append,
          shiftLines_of_unbroken blanks, shifted.indent, indentation_succ, String.append_assoc,
          ← String.append_assoc, textual, String.append_assoc]

/-- A line that has begun is ended in both. -/
theorem newline (shifted : Shifted pack limit front alone within)
    (begun : alone.atLineStart = false) :
    Shifted pack limit front alone.newline within.newline := by
  have textual := shifted.text
  rw [begun, if_neg Bool.false_ne_true, String.append_empty] at textual
  apply shifted.extend
  have ended : shiftLines "\n" = "\n" ++ "  " := rfl
  rw [if_pos rfl, indentLines_append, ended, textual, String.append_assoc, String.append_assoc,
    ← String.append_assoc]

/-- Both can change their mode. -/
theorem inMode (shifted : Shifted pack limit front alone within) (mode : Mode) :
    Shifted pack limit front { alone with mode } { within with mode } :=
  { shifted with mode := rfl }

/-- Both begin the same construct. -/
theorem enter (shifted : Shifted pack limit front alone within) (id : Nat) :
    Shifted pack limit front (alone.within id) (within.within id) where
  options := shifted.options
  mode := shifted.mode
  indent := shifted.indent
  underway := by
    show (id, within.mode) :: within.underway = _
    rw [shifted.underway, shifted.mode]
    rfl
  depth := congrArg (· + 1) shifted.depth
  limit := shifted.limit
  line := shifted.line
  text := shifted.text

/-- Both come to the end of the same construct. -/
theorem leave {id : Nat} {outer : Control} (shifted : Shifted pack limit front alone within)
    (controlled : alone.control = outer.within id) :
    Shifted pack limit front ({ alone with depth := alone.depth - 1 }.remove (id, outer.mode))
      ({ within with depth := within.depth - 1 }.remove (id, outer.mode)) := by
  have underway : alone.underway = _ := congrArg Control.underway controlled
  have depth : alone.depth = _ := congrArg Control.depth controlled
  exact { shifted with
    underway := by
      simp only [Transcript.remove, shifted.underway, underway, Control.within, List.cons_append,
        List.erase_cons_head]
    depth := by
      simp only [Transcript.remove, shifted.depth, depth, Control.within, Nat.add_sub_cancel] }

end Shifted

namespace Writer

/-- A writer does the same within a package, up to the indentation and the limit of depth. -/
structure Shifts (pack limit : Nat) (front : String) (writer : Writer Unit)
    (alone within : Transcript) : Prop where
  result : (writer within).1 = (writer alone).1.mapError (StubError.withLimit limit)
  shifted : (writer alone).1 = .ok () →
    Shifted pack limit front (writer alone).2 (writer within).2

namespace Shifts

variable {pack limit : Nat} {front : String} {alone within : Transcript}

/-- Two texts in a row shift one after the other. -/
theorem seq {first second : Writer Unit} (here : first.Shifts pack limit front alone within)
    (there : (first within).1 = .ok () → Shifted pack limit front (first alone).2 (first within).2 →
      second.Shifts pack limit front (first alone).2 (first within).2) :
    Shifts pack limit front (do first; second) alone within := by
  have result := here.result
  cases passed : (first alone).1 with
  | error error =>
      rw [passed] at result
      constructor
      · rw [seq_apply, seq_apply, passed, result]
        show (first within).1 = _
        rw [result, passed]
      · rw [seq_apply, passed]
        intro impossible
        cases passed.symm.trans impossible
  | ok value =>
      rw [passed] at result
      have later := there result (here.shifted passed)
      constructor
      · rw [seq_apply, seq_apply, passed, result]
        exact later.result
      · rw [seq_apply, seq_apply, passed, result]
        exact later.shifted

end Shifts

variable {project : Project}

/-- What is underway within a package beside it is underway alone. -/
theorem mem_underway_alone (coherent : Coherent project.constructs) {pack limit : Nat}
    {front : String} {alone within : Transcript}
    (shifted : Shifted pack limit front alone within) {id : Nat}
    (turn : project.Turn within.underway (id, within.mode))
    (again : (id, within.mode) ∈ within.underway) : (id, alone.mode) ∈ alone.underway := by
  have short := Project.short_of_cycle coherent (turn.transGen again)
  rw [shifted.underway, List.mem_append, List.mem_singleton, shifted.mode] at again
  -- The package is underway in long mode, and only short texts come up again.
  rcases again with inside | outermost
  · exact inside
  · rw [shifted.mode] at short
    cases short.symm.trans (congrArg Prod.snd outermost)

/-- **A construct does not notice the package around it.** What it comes to within a package is what
it comes to alone, up to the indentation and the limit of depth. -/
theorem shifts_compositional (coherent : Coherent project.constructs) (pack limit : Nat)
    (front : String) :
    Compositional project (fun text => '\n' ∉ text.toList) fun writer within =>
      ∀ alone, Shifted pack limit front alone within →
        writer.Shifts pack limit front alone within where
  nothing _ _ shifted := ⟨rfl, fun _ => shifted⟩
  write _ plain _ shifted := ⟨rfl, fun _ => shifted.write plain⟩
  endLine _ plain nonempty alone shifted := by
    refine ⟨rfl, fun _ => (shifted.write plain).newline ?_⟩
    cases begins : alone.atLineStart with
    | false => rw [Transcript.write_of_begun begins]
    | true => rw [Transcript.write_of_atLineStart begins nonempty]
  seq _ _ here there alone shifted := .seq (here alone shifted) fun passed => there passed _
  inMode := by
    intro mode body within here alone shifted
    have inner := here _ (shifted.inMode mode)
    refine ⟨inner.result, fun passed => ?_⟩
    exact { inner.shifted passed with mode := shifted.mode }
  indented := by
    intro body within tidy here alone shifted
    have inner := here { alone with indent := alone.indent + 1 }
      { shifted with indent := congrArg Nat.succ shifted.indent }
    refine ⟨inner.result, fun passed => ?_⟩
    have after := inner.shifted passed
    have left := tidy.indent_after { alone with indent := alone.indent + 1 }
    have indent : (Writer.indented body within).2.indent =
        (Writer.indented body alone).2.indent + 1 := by
      show _ - 1 = _ - 1 + 1
      rw [after.indent, left]
      rfl
    exact { after with indent }
  again := by
    intro id writer within _ turn again equal alone shifted
    have againAlone := mem_underway_alone coherent shifted turn again
    obtain ⟨construct, here⟩ := Project.exists_construct_of_inside turn.inside
    have kind : project.kind id = .ok construct.kind :=
      Project.kind_eq_ok_iff.mpr ⟨construct, here, rfl⟩
    have policy : within.options.cycles = alone.options.cycles := by rw [shifted.options]
    cases cycles : alone.options.cycles with
    | fail =>
        have failed := (equal within again).trans (writeCycle_of_fail kind (policy.trans cycles))
        have failedAlone := (equal alone againAlone).trans (writeCycle_of_fail kind cycles)
        constructor
        · rw [failed, failedAlone, shifted.mode]
          rfl
        · rw [failedAlone]
          exact nofun
    | mark =>
        have marked := (equal within again).trans (writeCycle_of_mark kind (policy.trans cycles))
        have markedAlone := (equal alone againAlone).trans (writeCycle_of_mark kind cycles)
        constructor
        · rw [marked, markedAlone]
          rfl
        · intro _
          rw [marked, markedAlone, shifted.mode]
          exact shifted.write (not_mem_marker List.mem_cons_self construct.kind id alone.mode)
  full := by
    intro id writer within fresh full equal alone shifted
    have freshAlone : (id, alone.mode) ∉ alone.underway := by
      rw [shifted.mode, shifted.underway] at fresh
      exact fun inside => fresh (List.mem_append_left _ inside)
    have fullAlone : alone.options.maxDepth ≤ alone.depth := by
      have outer : limit ≤ alone.depth + 1 := by
        simpa only [shifted.options, shifted.depth] using full
      have inner := shifted.limit
      omega
    have failed := equal alone freshAlone fullAlone
    constructor
    · rw [failed, equal within fresh full, shifted.options]
      rfl
    · rw [failed]
      exact nofun
  enter := by
    intro id writer body within _ fresh below equal tidy here alone shifted
    have freshAlone : (id, alone.mode) ∉ alone.underway := by
      rw [shifted.mode, shifted.underway] at fresh
      exact fun inside => fresh (List.mem_append_left _ inside)
    have belowAlone : alone.depth < alone.options.maxDepth := by
      have outer : alone.depth + 1 < limit := by
        simpa only [shifted.options, shifted.depth] using below
      have inner := shifted.limit
      omega
    have inner := here (alone.within id) (shifted.enter id)
    have written := equal within rfl fresh below
    have writtenAlone := equal alone shifted.mode.symm freshAlone belowAlone
    constructor
    · rw [written, writtenAlone]
      exact inner.result
    · rw [written, writtenAlone]
      intro passed
      have controlled : (body (alone.within id)).2.control = alone.control.within id :=
        tidy.control_after (alone.within id)
      have left := (inner.shifted passed).leave controlled
      simp only [underway, shifted.mode]
      exact left

end Writer

end CodeGraph

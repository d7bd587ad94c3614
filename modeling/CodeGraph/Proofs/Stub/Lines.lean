import CodeGraph.Proofs.Stub.Tidy

/-! # Lines of a script

A script of text writes texts and ends lines, in blocks that begin and end wherever it likes. What
it leaves behind can be told from its strokes alone, without the state of a transcript: a line holds
the texts between two ends of lines, and the blanks in front of them are those of the first text
that is not empty (`CodeGraph.TextScript.run_start`). So a line is indented once, and a line without
text stays empty.
-/

namespace CodeGraph

/-- A text within a line, with the number of indented blocks around it. -/
structure Piece where
  levels : Nat
  text : String

/-- What is written at a time: a text within a line, or the end of the line. -/
inductive Stroke
  | text (piece : Piece)
  | newline

/-- Strokes with a text in front of them and one behind. -/
def Stroke.around (levels : Nat) (before after : String) (strokes : List Stroke) : List Stroke :=
  [.text ⟨levels, before⟩] ++ strokes ++ [.text ⟨levels, after⟩]

/-- The pieces between two ends of lines, in order. -/
abbrev Line := List Piece

namespace Line

/-- No text was written in a line, but for empty ones. -/
def isBlank (line : Line) : Bool := line.all fun piece => piece.text = ""

/-- The text of a line: nothing where only empty texts were written, else two blanks for each block
around the first text that is not empty, and behind them the texts in order. -/
def text (line : Line) : String :=
  match line.find? fun piece => piece.text ≠ "" with
  | none => ""
  | some first =>
    String.ofList (List.replicate (2 * first.levels) ' ') ++ String.join (line.map Piece.text)

variable {line : Line}

/-- A blank line has no first text. -/
theorem find?_of_blank (blank : line.isBlank = true) :
    line.find? (fun piece => piece.text ≠ "") = none := by
  rw [isBlank, List.all_eq_true] at blank
  rw [List.find?_eq_none]
  intro piece member
  simpa using blank piece member

/-- A line that is not blank has a first text. -/
theorem exists_first_of_begun (begun : line.isBlank = false) :
    ∃ first, line.find? (fun piece => piece.text ≠ "") = some first := by
  rw [← Option.isSome_iff_exists, List.find?_isSome]
  obtain ⟨piece, member, filled⟩ := List.all_eq_false.mp begun
  exact ⟨piece, member, by simpa using filled⟩

theorem text_of_blank (blank : line.isBlank = true) : line.text = "" := by
  rw [text, find?_of_blank blank]

/-- The pieces of a blank line are empty. -/
theorem join_of_blank (blank : line.isBlank = true) : String.join (line.map Piece.text) = "" := by
  induction line with
  | nil => rfl
  | cons piece rest ih =>
      rw [isBlank, List.all_cons, Bool.and_eq_true] at blank
      rw [List.map_cons, String.join_cons, of_decide_eq_true blank.1, ih blank.2]
      rfl

/-- A line stays blank if an empty piece is added, and only then. -/
theorem isBlank_append (piece : Piece) :
    isBlank (line ++ [piece]) = (line.isBlank && piece.text = "") := by
  simp [isBlank]

/-- Behind a text that is not empty, a piece adds its text. -/
theorem text_append_of_begun (begun : line.isBlank = false) (piece : Piece) :
    text (line ++ [piece]) = line.text ++ piece.text := by
  obtain ⟨first, found⟩ := exists_first_of_begun begun
  rw [text, text, List.find?_append, found, Option.some_or]
  simp [String.append_assoc]

/-- The first text that is not empty comes behind the blanks of its blocks. -/
theorem text_append_of_blank (blank : line.isBlank = true) {piece : Piece}
    (filled : piece.text ≠ "") :
    text (line ++ [piece]) = Transcript.indentation piece.levels ++ piece.text := by
  have first : [piece].find? (fun piece => piece.text ≠ "") = some piece :=
    List.find?_cons_of_pos (by simpa using filled)
  rw [text, List.find?_append, find?_of_blank blank, Option.none_or, first]
  simp [join_of_blank blank, Transcript.indentation]

end Line

/-- What was written: the lines that have ended, and the one that has not. -/
structure Page where
  ended : List Line
  last : Line

namespace Page

/-- The page before anything is written. -/
def blank : Page := ⟨[], []⟩

/-- Adds a stroke: a text belongs to the last line, and the end of a line begins another one. -/
def add (page : Page) : Stroke → Page
  | .text piece => { page with last := page.last ++ [piece] }
  | .newline => ⟨page.ended ++ [page.last], []⟩

/-- Adds strokes, one after another. -/
def extend (page : Page) (strokes : List Stroke) : Page := strokes.foldl add page

/-- The text of the lines that have ended, each with its end. -/
def front (page : Page) : String := String.join (page.ended.map fun line => line.text ++ "\n")

/-- The text of a page. -/
def text (page : Page) : String := page.front ++ page.last.text

/-- Strokes in a row extend a page one after the other. -/
theorem extend_append (page : Page) (front back : List Stroke) :
    page.extend (front ++ back) = (page.extend front).extend back :=
  List.foldl_append

/-- A page with an ended line is its text with the end of a line. -/
theorem text_newline (page : Page) : (page.add .newline).text = page.text ++ "\n" := by
  have empty : Line.text [] = "" := rfl
  simp [add, text, front, empty, String.append_assoc]

end Page

namespace Transcript

/-- A transcript with a page as its text. It is at the front of a line as long as the last line of
the page is blank. -/
def showing (transcript : Transcript) (page : Page) : Transcript :=
  { transcript with text := page.text, atLineStart := page.last.isBlank }

variable {page other : Page}

/-- A transcript shows of a page its text and whether its last line is blank. -/
theorem showing_congr (transcript : Transcript) (text : page.text = other.text)
    (line : page.last.isBlank = other.last.isBlank) :
    transcript.showing page = transcript.showing other := by
  rw [showing, showing, text, line]

/-- Ending a line ends it on the page. -/
theorem newline_showing (transcript : Transcript) (page : Page) :
    (transcript.showing page).newline = transcript.showing (page.add .newline) := by
  rw [newline, showing, showing, page.text_newline]
  rfl

/-- A text is written as another piece of the last line, wherever in the line it comes. -/
theorem write_showing (transcript : Transcript) (page : Page) (text : String) :
    (transcript.showing page).write text =
      transcript.showing (page.add (.text ⟨transcript.indent, text⟩)) := by
  let piece : Piece := ⟨transcript.indent, text⟩
  have added : (page.add (.text piece)).text = page.front ++ Line.text (page.last ++ [piece]) := rfl
  have line : (page.add (.text piece)).last.isBlank = (page.last.isBlank && text = "") :=
    Line.isBlank_append piece
  cases blank : page.last.isBlank with
  | false =>
      rw [write_of_begun blank, showing, showing, line, blank, added,
        Line.text_append_of_begun blank, ← String.append_assoc]
      rfl
  | true =>
      have front : page.text = page.front := by
        rw [Page.text, Line.text_of_blank blank, String.append_empty]
      by_cases empty : text = ""
      · -- The line stays blank, so the blanks of its blocks are still to be written.
        have stays : (page.add (.text piece)).last.isBlank = true := by
          rw [line, blank, empty]
          rfl
        have silent : Line.text (page.last ++ [piece]) = "" := Line.text_of_blank stays
        rw [empty, write_empty, ← empty]
        apply showing_congr
        · rw [added, front, silent, String.append_empty]
        · rw [blank, stays]
      · rw [write_of_atLineStart blank empty, showing, showing, line, blank, added,
          Line.text_append_of_blank blank empty, decide_eq_false empty, front]
        rfl

end Transcript

/-- What can be written by hand without constructs, in blocks however nested. How a script goes on
may depend on what its operations return. -/
inductive TextScript : Type → Type 1
  | pure {α : Type} (value : α) : TextScript α
  | bind {α β : Type} (first : TextScript α) (next : α → TextScript β) : TextScript β
  | askMode : TextScript Mode
  | write (text : String) : TextScript Unit
  | newline : TextScript Unit
  | writeWrapped (before text after : String) : TextScript Bool
  | writeLine (before text after : String) : TextScript Unit
  /-- Items with a script for each, such as a text that is written. -/
  | writeEach {α : Type} (before separator after : String) (writeItem : α → TextScript Unit)
      (items : List α) : TextScript Bool
  | inMode {α : Type} (mode : Mode) (body : TextScript α) : TextScript α
  | indented {α : Type} (body : TextScript α) : TextScript α

namespace TextScript

/-- The writer that does what a script says. -/
def run : {α : Type} → TextScript α → Writer α
  | _, .pure value => Pure.pure value
  | _, .bind first next => first.run >>= fun value => (next value).run
  | _, .askMode => Writer.mode
  | _, .write text => Writer.write text
  | _, .newline => Writer.newline
  | _, .writeWrapped before text after => Writer.writeWrapped before text after
  | _, .writeLine before text after => Writer.writeLine before text after
  | _, .writeEach before separator after writeItem items =>
    Writer.writeEach before separator after (fun item => (writeItem item).run) items
  | _, .inMode mode body => Writer.inMode mode body.run
  | _, .indented body => Writer.indented body.run

/-- What a script returns in a mode. -/
def result : {α : Type} → TextScript α → Mode → α
  | _, .pure value, _ => value
  | _, .bind first next, mode => (next (first.result mode)).result mode
  | _, .askMode, mode => mode
  | _, .write _, _ => ()
  | _, .newline, _ => ()
  | _, .writeWrapped _ text _, _ => text ≠ ""
  | _, .writeLine _ _ _, _ => ()
  | _, .writeEach _ _ _ _ items, _ => !items.isEmpty
  | _, .inMode mode body, _ => body.result mode
  | _, .indented body, mode => body.result mode

/-- The strokes of a script in a mode, with a number of indented blocks around it. -/
def strokes : {α : Type} → TextScript α → Mode → Nat → List Stroke
  | _, .pure _, _, _ => []
  | _, .bind first next, mode, levels =>
    first.strokes mode levels ++ (next (first.result mode)).strokes mode levels
  | _, .askMode, _, _ => []
  | _, .write text, _, levels => [.text ⟨levels, text⟩]
  | _, .newline, _, _ => [.newline]
  | _, .writeWrapped before text after, _, levels =>
    if text = "" then [] else Stroke.around levels before after [.text ⟨levels, text⟩]
  | _, .writeLine before text after, _, levels =>
    if text = "" then []
    else Stroke.around levels before after [.text ⟨levels, text⟩] ++ [.newline]
  | _, .writeEach before separator after writeItem items, mode, levels =>
    if items.isEmpty then []
    else Stroke.around levels before after
      (List.intercalate [.text ⟨levels, separator⟩]
        (items.map fun item => (writeItem item).strokes mode levels))
  | _, .inMode mode body, _, levels => body.strokes mode levels
  | _, .indented body, mode, levels => body.strokes mode (levels + 1)

/-- The page of a script that begins in a mode. -/
def page {α : Type} (script : TextScript α) (mode : Mode) : Page :=
  Page.blank.extend (script.strokes mode 0)

end TextScript

namespace Writer

/-- Wherever a writer begins, it returns a result and adds strokes to the page. Both depend on
nothing but the mode and the indentation, and the rest of the transcript stays as it was. -/
def Draws {α : Type} (writer : Writer α) (result : Mode → α)
    (strokes : Mode → Nat → List Stroke) : Prop :=
  ∀ (transcript : Transcript) (page : Page), writer (transcript.showing page) =
    (.ok (result transcript.mode),
      transcript.showing (page.extend (strokes transcript.mode transcript.indent)))

namespace Draws

variable {α β : Type}

theorem pure (value : α) : Draws (Pure.pure value) (fun _ => value) fun _ _ => [] :=
  fun _ _ => rfl

theorem mode : Draws Writer.mode id fun _ _ => [] := fun _ _ => rfl

/-- Writing text draws one piece. -/
theorem write (text : String) :
    Draws (Writer.write text) (fun _ => ()) fun _ levels => [.text ⟨levels, text⟩] :=
  fun transcript page => congrArg (Prod.mk _) (transcript.write_showing page text)

/-- Ending a line draws its end. -/
theorem newline : Draws Writer.newline (fun _ => ()) fun _ _ => [.newline] :=
  fun transcript page => congrArg (Prod.mk _) (transcript.newline_showing page)

/-- Two steps in a row draw what each of them draws. -/
theorem bind {first : Writer α} {next : α → Writer β} {result : Mode → α}
    {resultBehind : α → Mode → β} {strokes : Mode → Nat → List Stroke}
    {strokesBehind : α → Mode → Nat → List Stroke} (here : Draws first result strokes)
    (there : ∀ value, Draws (next value) (resultBehind value) (strokesBehind value)) :
    Draws (first >>= next) (fun mode => resultBehind (result mode) mode) fun mode levels =>
      strokes mode levels ++ strokesBehind (result mode) mode levels := by
  intro transcript page
  rw [bind_apply, here transcript page, Page.extend_append]
  exact there _ transcript _

/-- A change of mode draws what its body draws in this mode. -/
theorem inMode {mode : Mode} {body : Writer α} {result : Mode → α}
    {strokes : Mode → Nat → List Stroke} (here : Draws body result strokes) :
    Draws (Writer.inMode mode body) (fun _ => result mode) fun _ => strokes mode := by
  intro transcript page
  have runs := here { transcript with mode } page
  have inside : { transcript.showing page with mode } =
      { transcript with mode }.showing page := rfl
  rw [Writer.inMode, inside, runs]
  rfl

/-- A block draws what its body draws one level further in. -/
theorem indented {body : Writer α} {result : Mode → α} {strokes : Mode → Nat → List Stroke}
    (here : Draws body result strokes) :
    Draws (Writer.indented body) result fun mode levels => strokes mode (levels + 1) := by
  intro transcript page
  have runs := here { transcript with indent := transcript.indent + 1 } page
  have inside : { transcript.showing page with indent := (transcript.showing page).indent + 1 } =
      { transcript with indent := transcript.indent + 1 }.showing page := rfl
  rw [Writer.indented, inside, runs]
  rfl

/-- What is drawn can be told in another way. -/
theorem of_eq {writer : Writer α} {result other : Mode → α}
    {strokes same : Mode → Nat → List Stroke} (here : Draws writer result strokes)
    (results : ∀ mode, result mode = other mode)
    (drawn : ∀ mode levels, strokes mode levels = same mode levels) :
    Draws writer other same := by
  intro transcript page
  rw [here transcript page, results, drawn]

/-- Text on both sides is drawn around what is drawn between. -/
theorem around {body : Writer Unit} {strokes : Mode → Nat → List Stroke} (before after : String)
    (here : Draws body (fun _ => ()) strokes) :
    Draws (do Writer.write before; body; Writer.write after; return true) (fun _ => true)
      fun mode levels => Stroke.around levels before after (strokes mode levels) := by
  have drawn := bind (write before) fun _ => bind here fun _ => bind (write after) fun _ =>
    pure true
  exact drawn.of_eq (fun _ => rfl) (by simp [Stroke.around])

/-- Wrapped text is drawn in three pieces, or not at all. -/
theorem writeWrapped (before text after : String) :
    Draws (Writer.writeWrapped before text after) (fun _ => text ≠ "") fun _ levels =>
      if text = "" then [] else Stroke.around levels before after [.text ⟨levels, text⟩] := by
  by_cases empty : text = ""
  · rw [Writer.writeWrapped, if_pos empty]
    exact (pure false).of_eq (by simp [empty]) (by simp [empty])
  · rw [Writer.writeWrapped, if_neg empty]
    exact ((write text).around before after).of_eq (by simp [empty]) (by simp [empty])

/-- Wrapped text on a line of its own is drawn with the end of the line. -/
theorem writeLine (before text after : String) :
    Draws (Writer.writeLine before text after) (fun _ => ()) fun _ levels =>
      if text = "" then []
      else Stroke.around levels before after [.text ⟨levels, text⟩] ++ [.newline] := by
  have ending (wrote : Bool) : Draws (if wrote then Writer.newline else Pure.pure ())
      (fun _ => ()) fun _ _ => if wrote then [.newline] else [] := by
    cases wrote with
    | false => exact pure ()
    | true => exact newline
  refine (bind (writeWrapped before text after) ending).of_eq (fun _ => rfl) ?_
  intro mode levels
  by_cases empty : text = "" <;> simp [empty]

section Items

variable {writeItem : α → Writer Unit} {strokes : α → Mode → Nat → List Stroke}

/-- An item and those behind it come with a separator between any two. -/
theorem items (separator : String)
    (here : ∀ item, Draws (writeItem item) (fun _ => ()) (strokes item)) (first : α)
    (rest : List α) :
    Draws (do writeItem first; writeRest separator writeItem rest) (fun _ => ())
      fun mode levels => List.intercalate [.text ⟨levels, separator⟩]
        ((first :: rest).map fun item => strokes item mode levels) := by
  induction rest generalizing first with
  | nil =>
      have drawn := bind (here first) fun _ => pure ()
      exact drawn.of_eq (fun _ => rfl) (by simp)
  | cons second rest ih =>
      have drawn := bind (here first) fun _ => bind (write separator) fun _ => ih second
      exact drawn.of_eq (fun _ => rfl) (by simp [List.intercalate_cons_cons])

/-- Items are drawn with separators between them, or not at all. -/
theorem writeEach (before separator after : String)
    (here : ∀ item, Draws (writeItem item) (fun _ => ()) (strokes item)) (items : List α) :
    Draws (Writer.writeEach before separator after writeItem items) (fun _ => !items.isEmpty)
      fun mode levels =>
        if items.isEmpty then []
        else Stroke.around levels before after
          (List.intercalate [.text ⟨levels, separator⟩]
            (items.map fun item => strokes item mode levels)) := by
  cases items with
  | nil => exact pure false
  | cons first rest =>
      -- The writer ends behind the last item, so the items are one writer only once regrouped.
      have grouped : Writer.writeEach before separator after writeItem (first :: rest) = (do
          Writer.write before
          (do writeItem first; writeRest separator writeItem rest)
          Writer.write after
          return true) := by
        rw [Writer.writeEach, bind_assoc]
      rw [grouped]
      exact (Draws.items separator here first rest).around before after

end Items

end Draws

end Writer

namespace TextScript

variable {α : Type}

/-- A script adds its strokes to the page, one case for each operation. -/
theorem run_draws (script : TextScript α) : script.run.Draws script.result script.strokes := by
  induction script with
  | pure value => exact .pure value
  | bind _ _ first next => exact .bind first next
  | askMode => exact .mode
  | write text => exact .write text
  | newline => exact .newline
  | writeWrapped before text after => exact .writeWrapped before text after
  | writeLine before text after => exact .writeLine before text after
  | writeEach before separator after _ items writeItem =>
      exact .writeEach before separator after writeItem items
  | inMode _ _ body => exact body.inMode
  | indented _ body => exact body.indented

/-- **Indentation is written once a line.** Whatever a script does in blocks however nested, it
succeeds, and the text that it leaves is that of the page of its strokes: each line is empty where
only empty texts were written, and otherwise begins with two blanks for each indented block around
the first text that is not empty, with the texts in order behind them; each line that has ended is
followed by one end of a line. Wrapped text, a line and a list leave the transcript as it is where
there is no text or no item. -/
theorem run_start (script : TextScript α) (options : StubOptions) :
    script.run (.start options) =
        (.ok (script.result options.mode),
          { Transcript.start options with
            text := (script.page options.mode).text
            atLineStart := (script.page options.mode).last.isBlank }) ∧
      ∀ (transcript : Transcript) (before separator after : String),
        Writer.writeWrapped before "" after transcript = (.ok false, transcript) ∧
          Writer.writeLine before "" after transcript = (.ok (), transcript) ∧
          ∀ {β : Type} (writeItem : β → Writer Unit),
            Writer.writeEach before separator after writeItem [] transcript =
              (.ok false, transcript) := by
  constructor
  · have starts : (Transcript.start options).showing .blank = .start options := rfl
    have runs := script.run_draws (.start options) .blank
    rw [starts] at runs
    exact runs
  · intro transcript before separator after
    have wrapped : Writer.writeWrapped before "" after = Pure.pure false := if_pos rfl
    refine ⟨?_, ?_, fun _ => rfl⟩
    · rw [wrapped]
      rfl
    · rw [Writer.writeLine, wrapped]
      rfl

/-- A block that ends within a line has indented that line, and not the next. -/
example :
    (TextScript.run (.indented (.bind (.write "") fun _ => .bind (.indented (.write "a")) fun _ =>
      .bind (.write "b") fun _ => .bind .newline fun _ => .write "c"))
        (.start .standard)).2.text = "    ab\n  c" := rfl

end TextScript

end CodeGraph

import CodeGraph.Stub.Options

/-! # Transcripts

A transcript is the text written so far with the state that decides how writing goes on: the mode,
the indentation, the constructs underway, whose text has begun but not ended, and how deep they are
within each other. A writer changes a transcript and may fail; what it wrote before its failure
stays. Nothing is rolled back: whatever changes the indentation, the depth or the constructs
underway takes its own change back, and relies on what it runs in between to do so, too.

Text is indented where a line begins, and writing no text changes nothing.
-/

namespace CodeGraph

/-- Text in the making. -/
structure Transcript where
  options : StubOptions
  mode : Mode
  indent : Nat
  atLineStart : Bool
  text : String
  /-- The constructs underway, each with its mode: a set, the latest first. -/
  underway : List (Nat × Mode)
  /-- How many constructs are being written within each other. -/
  depth : Nat
deriving DecidableEq

namespace Transcript

/-- The empty transcript. -/
def start (options : StubOptions) : Transcript where
  options
  mode := options.mode
  indent := 0
  atLineStart := true
  text := ""
  underway := []
  depth := 0

/-- The blanks at the front of a line. -/
def indentation (levels : Nat) : String := String.ofList (List.replicate (2 * levels) ' ')

/-- Adds text within a line. -/
def write (addition : String) (transcript : Transcript) : Transcript :=
  if addition = "" then transcript
  else if transcript.atLineStart then
    { transcript with
      text := transcript.text ++ indentation transcript.indent ++ addition
      atLineStart := false }
  else { transcript with text := transcript.text ++ addition }

/-- Ends the line. -/
def newline (transcript : Transcript) : Transcript :=
  { transcript with text := transcript.text ++ "\n", atLineStart := true }

/-- Puts a construct underway in a mode. It must not be so already. -/
def insert (key : Nat × Mode) (transcript : Transcript) : Transcript :=
  { transcript with underway := key :: transcript.underway }

/-- Takes a construct in a mode from those underway. -/
def remove (key : Nat × Mode) (transcript : Transcript) : Transcript :=
  { transcript with underway := transcript.underway.erase key }

end Transcript

/-- Writes to a transcript, may fail, and keeps what it wrote either way. -/
abbrev Writer (α : Type) := ExceptT StubError (StateM Transcript) α

namespace Writer

/-- Writes text within a line. -/
def write (text : String) : Writer Unit := modify (Transcript.write text)

/-- Ends the line. -/
def newline : Writer Unit := modify Transcript.newline

/-- Writes text with something on both sides, or nothing at all where there is no text. Tells
whether it wrote. -/
def writeWrapped (before text after : String) : Writer Bool := do
  if text = "" then return false
  write before
  write text
  write after
  return true

/-- Writes wrapped text as a line of its own, or nothing. -/
def writeLine (before text after : String) : Writer Unit := do
  if ← writeWrapped before text after then newline

/-- Writes what comes behind the first item of a list, each item behind a separator. -/
def writeRest {α : Type} (separator : String) (writeItem : α → Writer Unit) :
    List α → Writer Unit
  | [] => pure ()
  | item :: rest => do
    write separator
    writeItem item
    writeRest separator writeItem rest

/-- Writes items with separators between them and something on both sides, or nothing at all where
there are no items. Tells whether it wrote. -/
def writeEach {α : Type} (before separator after : String) (writeItem : α → Writer Unit) :
    List α → Writer Bool
  | [] => return false
  | first :: rest => do
    write before
    writeItem first
    writeRest separator writeItem rest
    write after
    return true

/-- Writes in a mode and returns to the mode before. -/
def inMode {α : Type} (mode : Mode) (body : Writer α) : Writer α := fun transcript =>
  let (result, after) := body { transcript with mode }
  (result, { after with mode := transcript.mode })

/-- Writes one level further in, and comes one level out again. -/
def indented {α : Type} (body : Writer α) : Writer α := fun transcript =>
  let (result, after) := body { transcript with indent := transcript.indent + 1 }
  (result, { after with indent := after.indent - 1 })

/-- The mode in which constructs are written. -/
def mode : Writer Mode := return (← get).mode

end Writer

end CodeGraph

import CodeGraph.Stub.Text

/-! # Stubs

A construct is written unless it is underway in the same mode already, which is a cycle, or too many
constructs are underway. So writing ends however the constructs of a project mention each other.

How deep texts may nest within each other is bounded by the limit in the options alone: the program
takes more memory for its stack where that runs short, and such memory is taken to be there.
-/

namespace CodeGraph

namespace Stub

/-- Stands in for a construct that turned up within its own text. -/
def writeCycle (project : Project) (id : Nat) : Writer Unit := fun transcript =>
  match project.kind id, transcript.options.cycles with
  | .error fault, _ => (.error (.outOfBounds fault), transcript)
  | .ok kind, .fail => (.error (.recursion id kind transcript.mode), transcript)
  | .ok kind, .mark =>
    (.ok (), transcript.write s!"<recursion: {kind.name}{idLabel id} {transcript.mode.name}>")

/-- Writes a construct under the guard against cycles and depth. A construct is put underway before
the depth is looked at, and taken back again where that is too much; otherwise `body` writes it one
level deeper, and depth and construct are taken back behind it. An id outside the project is noticed
by the text of the construct, and nothing is taken back then. -/
def guarded (project : Project) (id : Nat) (body : Construct → Writer Unit) : Writer Unit :=
  fun transcript =>
    let key := (id, transcript.mode)
    if key ∈ transcript.underway then writeCycle project id transcript
    else
      let begun := transcript.insert key
      if begun.options.maxDepth ≤ begun.depth then
        (.error (.tooDeep begun.options.maxDepth), begun.remove key)
      else
        let deeper := { begun with depth := begun.depth + 1 }
        match project.construct id with
        | .error fault => (.error (.outOfBounds fault), deeper)
        | .ok construct =>
          let (result, after) := body construct deeper
          (result, { after with depth := after.depth - 1 }.remove key)

/-- Writes the construct with an id, and what it mentions within it. The number is how many levels
the recursion still goes down; where it is no less than what the limit of depth leaves, the guard
stops first, and nothing is left out at its end. -/
def writeWithin (project : Project) : (levels : Nat) → Form → Nat → Writer Unit
  | 0, _, id => guarded project id fun _ => pure ()
  | levels + 1, form, id => guarded project id (writeConstruct (writeWithin project levels) form)

end Stub

namespace Writer

/-- Writes the construct with an id in the mode of the transcript. -/
def construct (project : Project) (id : Nat) : Writer Unit := fun transcript =>
  let levels := transcript.options.maxDepth - transcript.depth
  Stub.writeWithin project levels .whole id transcript

/-- Writes a construct with text on both sides. -/
def constructWrapped (project : Project) (before : String) (id : Nat) (after : String) :
    Writer Unit := do
  write before
  construct project id
  write after

/-- Writes constructs with separators between them and text on both sides, or nothing. Tells whether
it wrote. -/
def constructs (project : Project) (before separator after : String) (ids : List Nat) :
    Writer Bool :=
  writeEach before separator after (construct project) ids

/-- Writes constructs as a line of its own, or nothing. -/
def constructLine (project : Project) (before separator after : String) (ids : List Nat) :
    Writer Unit := do
  if ← constructs project before separator after ids then newline

end Writer

namespace Project

/-- The stub of a construct. -/
def stub (project : Project) (options : StubOptions) (id : Nat) : Except StubError String :=
  let (result, transcript) := (Writer.construct project id).run (.start options)
  result.map fun _ => transcript.text

/-- The stubs of constructs in a row, each followed by the end of a line. -/
def stubLines (project : Project) (options : StubOptions) : List Nat → Except StubError String
  | [] => .ok ""
  | id :: ids => do
    let text ← project.stub options id
    let rest ← stubLines project options ids
    return text ++ "\n" ++ rest

/-- The stubs of all packages, in table order. -/
def packageStubs (project : Project) (options : StubOptions) : Except StubError String :=
  project.stubLines options (project.table .packages)

end Project

end CodeGraph

import CodeGraph.Document.Reading

/-! # Faults in a JSON text

Documents are parsed as `serde_json` parses a text into a value. These modules follow it in what is
accepted, in what a text is read as, and in the complaint about every other text: the wording of
its cause, and the place that is named.

A scanner reads one piece from the front of a text and returns it with the unread rest, which is
shorter than the text. When a scanner fails it keeps the unread rest, so the place of the fault is
known by its distance from the end. `serde_json` reads bytes, of the UTF-8 form: lines are counted
from one, and a column is the number of bytes read of its line. A byte that was only peeked at when
it gave offence counts as read, so the fault lies one byte ahead of the unread rest.
-/

namespace CodeGraph.Json

/-- What a text lacks to be JSON. -/
inductive Cause
  | endInValue
  | endInString
  | endInList
  | endInObject
  | expectedValue
  | expectedWord
  | expectedColon
  | expectedCommaOrBracket
  | expectedCommaOrBrace
  | keyNotString
  | trailingComma
  | trailingCharacters
  | invalidNumber
  | numberOutOfRange
  | controlCharacter
  | invalidEscape
  | loneSurrogate
  | endOfEscape
  | tooDeep
deriving DecidableEq

namespace Cause

/-- The wording of a cause, without its place. -/
def message : Cause → String
  | endInValue => "EOF while parsing a value"
  | endInString => "EOF while parsing a string"
  | endInList => "EOF while parsing a list"
  | endInObject => "EOF while parsing an object"
  | expectedValue => "expected value"
  | expectedWord => "expected ident"
  | expectedColon => "expected `:`"
  | expectedCommaOrBracket => "expected `,` or `]`"
  | expectedCommaOrBrace => "expected `,` or `\x7d`"
  | keyNotString => "key must be a string"
  | trailingComma => "trailing comma"
  | trailingCharacters => "trailing characters"
  | invalidNumber => "invalid number"
  | numberOutOfRange => "number out of range"
  | controlCharacter => "control character (\\u0000-\\u001F) found while parsing a string"
  | invalidEscape => "invalid escape"
  | loneSurrogate => "lone leading surrogate in hex escape"
  | endOfEscape => "unexpected end of hex escape"
  | tooDeep => "recursion limit exceeded"

end Cause

/-- A failed scan. -/
structure Fault where
  cause : Cause
  /-- The text that was not read yet. -/
  rest : List Char
  /-- How many bytes of `rest` the place of the fault lies ahead. -/
  ahead : Nat

/-- What remains of a text after something was read from it. -/
abbrev Rest (text : List Char) := { rest : List Char // rest.length < text.length }

/-- Reads one piece from the front of a text. -/
abbrev Scanner (α : Type) := (text : List Char) → Except Fault (α × Rest text)

/-- What remains of a text after perhaps something was read from it. -/
abbrev Suffix (text : List Char) := { rest : List Char // rest.length ≤ text.length }

theorem length_tail_le (c : Char) (tail : List Char) : tail.length ≤ (c :: tail).length :=
  Nat.le_succ _

theorem length_tail_lt (c : Char) (tail : List Char) : tail.length < (c :: tail).length :=
  Nat.lt_succ_self _

/-- The rest of a rest, seen from a longer text. -/
def Rest.within {inner outer : List Char} (rest : Rest inner)
    (shorter : inner.length ≤ outer.length) : Rest outer :=
  ⟨rest.val, Nat.lt_of_lt_of_le rest.property shorter⟩

/-- The number of bytes of a text. -/
def byteLength (text : List Char) : Nat := text.foldl (fun total c => total + c.utf8Size) 0

/-- A place in a text: the line counted from one, and the bytes read of that line. -/
structure Place where
  line : Nat
  column : Nat
deriving DecidableEq

/-- Moves on from a place at which `read` bytes were read until `offset` bytes are read. -/
def Place.advance (offset : Nat) : (text : List Char) → (read : Nat) → (place : Place) → Place
  | [], read, place => { place with column := place.column + (offset - read) }
  | c :: text, read, place =>
    if read + c.utf8Size ≤ offset then
      advance offset text (read + c.utf8Size)
        (if c = '\n' then ⟨place.line + 1, 0⟩ else ⟨place.line, place.column + c.utf8Size⟩)
    else { place with column := place.column + (offset - read) }

/-- The place that lies `offset` bytes into a text. -/
def placeAt (text : List Char) (offset : Nat) : Place :=
  Place.advance offset text 0 ⟨1, 0⟩

namespace Fault

/-- How many bytes into the whole text the fault lies. -/
def offset (whole : List Char) (fault : Fault) : Nat :=
  min (byteLength whole - byteLength fault.rest + fault.ahead) (byteLength whole)

/-- The complaint about a whole text in which the fault was met. -/
def toReadError (whole : List Char) (fault : Fault) : ReadError :=
  let place := placeAt whole (fault.offset whole)
  .json s!"{fault.cause.message} at line {place.line} column {place.column}"
    place.line place.column

end Fault

end CodeGraph.Json

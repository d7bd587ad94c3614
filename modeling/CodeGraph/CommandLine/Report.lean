import CodeGraph.Project.Statistics

/-! # Reports of the check command

The counts of a project are reported as lines of text or as a JSON object.
-/

namespace CodeGraph.CommandLine

/-- A text filled up with blanks to a width. -/
def padRight (width : Nat) (text : String) : String :=
  text ++ String.ofList (List.replicate (width - text.length) ' ')

/-- The report as text: a headline, and a line for each kind that occurs. -/
def textReport (path : String) (statistics : Statistics) : String :=
  let language := if statistics.language = "" then "unknown language" else statistics.language
  let headline := s!"OK: {path} ({statistics.constructs} constructs, {language})\n"
  let lines := statistics.kinds.map fun (kind, count) => s!"  {padRight 14 kind.name} {count}\n"
  headline ++ String.join lines

/-- A hexadecimal digit in lower case. -/
def hexDigit (n : Nat) : Char :=
  if n < 10 then Char.ofNat ('0'.toNat + n) else Char.ofNat ('a'.toNat + (n - 10))

/-- A character as JSON strings spell it. -/
def escapeChar (c : Char) : List Char :=
  if c = '"' then ['\\', '"']
  else if c = '\\' then ['\\', '\\']
  else if c = '\x08' then ['\\', 'b']
  else if c = '\x0c' then ['\\', 'f']
  else if c = '\n' then ['\\', 'n']
  else if c = '\r' then ['\\', 'r']
  else if c = '\t' then ['\\', 't']
  else if c.toNat < 0x20 then
    ['\\', 'u', '0', '0', hexDigit (c.toNat / 16), hexDigit (c.toNat % 16)]
  else [c]

/-- A text as a JSON string. -/
def quote (text : String) : String :=
  "\"" ++ String.ofList (text.toList.flatMap escapeChar) ++ "\""

/-- A JSON object with a line for each field, nested `depth` levels deep. -/
def jsonObject (depth : Nat) (fields : List (String × String)) : String :=
  if fields.isEmpty then "\x7b\x7d"
  else
    let margin levels := String.ofList (List.replicate (2 * levels) ' ')
    let lines := fields.map fun (name, value) => margin (depth + 1) ++ quote name ++ ": " ++ value
    "\x7b\n" ++ String.intercalate ",\n" lines ++ "\n" ++ margin depth ++ "\x7d"

/-- The tables in the order of their names. -/
def tablesByName : List Table := [.methodInsts, .methods, .packages, .types, .values]

/-- The report as a JSON object. -/
def jsonReport (statistics : Statistics) : String :=
  jsonObject 0 [
    ("language", quote statistics.language),
    ("constructs", toString statistics.constructs),
    ("kinds", jsonObject 1 (statistics.kinds.map fun (kind, count) => (kind.name, toString count))),
    ("tables", jsonObject 1
      (tablesByName.map fun table => (table.name, toString (statistics.tables.get table))))]

end CodeGraph.CommandLine

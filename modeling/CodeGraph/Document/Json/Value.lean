import CodeGraph.Document.Json.Numeral
import CodeGraph.Document.Json.Quoted

/-! # JSON values

A document text holds one value with blanks around it. The grammar is that of `serde_json`: a comma
is followed by another item, so none stands before a closing bracket, and there are no comments.
Arrays and objects nest at most 127 deep, since the recursion limit of 128 is itself refused. Where
an object repeats a key the last value counts, at the place where the key came first, since objects
are kept in the order in which their keys were inserted.
-/

namespace CodeGraph.Json

/-- The blanks that may stand between tokens. -/
def isBlank (c : Char) : Bool := c = ' ' || c = '\n' || c = '\t' || c = '\r'

/-- A text without the blanks at its front. -/
def skipBlanks (text : List Char) : List Char := text.dropWhile isBlank

theorem length_skipBlanks_le (text : List Char) : (skipBlanks text).length ≤ text.length :=
  (List.dropWhile_suffix _).length_le

/-- The remaining letters of a word such as `null`. -/
def word (letters : List Char) (text : List Char) : Except Fault (Suffix text) :=
  match letters with
  | [] => .ok ⟨text, Nat.le_refl _⟩
  | letter :: letters =>
    match text with
    | [] => .error ⟨.endInValue, [], 0⟩
    | c :: tail =>
      if c = letter then do
        let rest ← word letters tail
        .ok ⟨rest.val, Nat.le_succ_of_le rest.property⟩
      else .error ⟨.expectedWord, c :: tail, 1⟩

/-- The items of an array from the first on, behind the opening bracket. -/
def items (item : Scanner Node) : Scanner (List Node) := fun text => do
  let (value, ⟨rest, shorter⟩) ← item text
  match h : skipBlanks rest with
  | [] => .error ⟨.endInList, [], 0⟩
  | c :: tail =>
    have := length_skipBlanks_le rest
    have := length_skipBlanks_le tail
    have : tail.length < text.length := by simp_all; omega
    if c = ']' then .ok ([value], ⟨tail, this⟩)
    else if c = ',' then
      match h' : skipBlanks tail with
      | [] => .error ⟨.endInValue, [], 0⟩
      | c' :: next =>
        if c' = ']' then .error ⟨.trailingComma, c' :: next, 1⟩
        else do
          let (values, ⟨after, shorter'⟩) ← items item (c' :: next)
          .ok (value :: values, ⟨after, by simp_all; omega⟩)
    else .error ⟨.expectedCommaOrBracket, c :: tail, 1⟩
termination_by text => text.length
decreasing_by simp_all; omega

/-- An array, behind its opening bracket. -/
def array (item : Scanner Node) : Scanner (List Node) := fun text =>
  match h : skipBlanks text with
  | [] => .error ⟨.endInList, [], 0⟩
  | c :: tail =>
    have := length_skipBlanks_le text
    if c = ']' then .ok ([], ⟨tail, by rw [h] at this; exact this⟩)
    else do
      let (values, rest) ← items item (c :: tail)
      .ok (values, rest.within (by simp_all))

/-- A key with its colon, behind the opening quote of the key. -/
def key : Scanner String := fun text => do
  let (name, ⟨rest, shorter⟩) ← Quoted.scan text
  match h : skipBlanks rest with
  | [] => .error ⟨.endInObject, [], 0⟩
  | c :: tail =>
    have := length_skipBlanks_le rest
    if c = ':' then .ok (String.ofList name, ⟨tail, by simp_all; omega⟩)
    else .error ⟨.expectedColon, c :: tail, 1⟩

/-- The entries of an object from the first on, behind the opening quote of its key. -/
def members (item : Scanner Node) : Scanner (List (String × Node)) := fun text => do
  let (name, ⟨afterKey, shorterKey⟩) ← key text
  let (value, ⟨rest, shorter⟩) ← item afterKey
  match h : skipBlanks rest with
  | [] => .error ⟨.endInObject, [], 0⟩
  | c :: tail =>
    have := length_skipBlanks_le rest
    have := length_skipBlanks_le tail
    have : tail.length < text.length := by simp_all; omega
    if c = '\x7d' then .ok ([(name, value)], ⟨tail, this⟩)
    else if c = ',' then
      match h' : skipBlanks tail with
      | [] => .error ⟨.endInValue, [], 0⟩
      | c' :: next =>
        if c' = '\x7d' then .error ⟨.trailingComma, c' :: next, 1⟩
        else if c' = '"' then do
          let (entries, ⟨after, shorter'⟩) ← members item next
          .ok ((name, value) :: entries, ⟨after, by simp_all; omega⟩)
        else .error ⟨.keyNotString, c' :: next, 1⟩
    else .error ⟨.expectedCommaOrBrace, c :: tail, 1⟩
termination_by text => text.length
decreasing_by simp_all; omega

/-- An object, behind its opening brace. -/
def object (item : Scanner Node) : Scanner (List (String × Node)) := fun text =>
  match h : skipBlanks text with
  | [] => .error ⟨.endInObject, [], 0⟩
  | c :: tail =>
    have := length_skipBlanks_le text
    if c = '\x7d' then .ok ([], ⟨tail, by rw [h] at this; exact this⟩)
    else if c = '"' then do
      let (entries, rest) ← members item tail
      .ok (entries, rest.within (by simp_all; omega))
    else .error ⟨.keyNotString, c :: tail, 1⟩

/-- A value without blanks before it; `inner` reads the values within it, if it may hold any. -/
def valueAt (inner : Option (Scanner Node)) : Scanner Node
  | [] => .error ⟨.endInValue, [], 0⟩
  | c :: text => do
    if c = 'n' then
      let rest ← word ['u', 'l', 'l'] text
      .ok (.null, ⟨rest.val, Nat.lt_succ_of_le rest.property⟩)
    else if c = 't' then
      let rest ← word ['r', 'u', 'e'] text
      .ok (.bool true, ⟨rest.val, Nat.lt_succ_of_le rest.property⟩)
    else if c = 'f' then
      let rest ← word ['a', 'l', 's', 'e'] text
      .ok (.bool false, ⟨rest.val, Nat.lt_succ_of_le rest.property⟩)
    else if c = '-' ∨ c.isDigit then
      let (number, rest) ← Numeral.scan (c :: text)
      .ok (.number number, rest)
    else if c = '"' then
      let (content, rest) ← Quoted.scan text
      .ok (.string (String.ofList content), rest.within (length_tail_le _ _))
    else if c = '[' then
      match inner with
      | none => .error ⟨.tooDeep, c :: text, 1⟩
      | some item =>
        let (values, rest) ← array item text
        .ok (.array values, rest.within (length_tail_le _ _))
    else if c = '\x7b' then
      match inner with
      | none => .error ⟨.tooDeep, c :: text, 1⟩
      | some item =>
        let (entries, rest) ← object item text
        .ok (Node.ofEntries entries, rest.within (length_tail_le _ _))
    else .error ⟨.expectedValue, c :: text, 1⟩

/-- A value in which arrays and objects nest at most `depth` deep. -/
def value : (depth : Nat) → Scanner Node
  | 0, text => do
    let (node, rest) ← valueAt none (skipBlanks text)
    .ok (node, rest.within (length_skipBlanks_le text))
  | depth + 1, text => do
    let (node, rest) ← valueAt (some (value depth)) (skipBlanks text)
    .ok (node, rest.within (length_skipBlanks_le text))

/-- How deep arrays and objects may nest. -/
def maxDepth : Nat := 127

/-- The one value that a text holds. -/
def document (text : List Char) : Except Fault Node := do
  let (node, rest) ← value maxDepth text
  match skipBlanks rest.val with
  | [] => .ok node
  | trailing => .error ⟨.trailingCharacters, trailing, 1⟩

end CodeGraph.Json

namespace CodeGraph.Node

/-- The document that a JSON text spells. -/
def ofJson (text : String) : Except ReadError Node :=
  (Json.document text.toList).mapError (·.toReadError text.toList)

end CodeGraph.Node

import CodeGraph.Document.Json.Fault

/-! # Quoted strings of a JSON text

Behind the opening quote a string runs to the next quote that no backslash precedes. A backslash
starts an escape; a `\u` escape has four hexadecimal digits, and two of them in a row, a high and a
low surrogate, stand for one character. Control characters have to be escaped. As in `serde_json`
a surrogate without its partner is refused, and no byte order mark is skipped.
-/

namespace CodeGraph.Json.Quoted

/-- The value of a hexadecimal digit of either case. -/
def hexDigit? (c : Char) : Option Nat :=
  if '0' ≤ c ∧ c ≤ '9' then some (c.toNat - '0'.toNat)
  else if 'a' ≤ c ∧ c ≤ 'f' then some (c.toNat - 'a'.toNat + 10)
  else if 'A' ≤ c ∧ c ≤ 'F' then some (c.toNat - 'A'.toNat + 10)
  else none

/-- The value of a run of hexadecimal digits. -/
def hexValue? (digits : List Char) : Option Nat :=
  digits.foldlM (fun total c => (hexDigit? c).map (16 * total + ·)) 0

/-- Four hexadecimal digits. Where four bytes are left they are read before they are looked at. -/
def hexGroup : Scanner Nat := fun text =>
  if byteLength (text.take 4) < 4 then .error ⟨.endInString, [], 0⟩
  else match text with
    | a :: b :: c :: d :: rest =>
      match hexValue? [a, b, c, d] with
      | some value => .ok (value, ⟨rest, by simp; omega⟩)
      | none => .error ⟨.invalidEscape, text, 4⟩
    | _ => .error ⟨.invalidEscape, text, 4⟩

/-- The character `expected`; at another one the escape breaks off. -/
def expectInEscape (expected : Char) : Scanner Unit
  | [] => .error ⟨.endInString, [], 0⟩
  | c :: rest =>
    if c = expected then .ok ((), ⟨rest, by simp⟩)
    else .error ⟨.endOfEscape, c :: rest, 1⟩

/-- The character of a `\u` escape, behind its letter. -/
def unicodeEscape : Scanner Char := fun text => do
  let (high, rest) ← hexGroup text
  if 0xDC00 ≤ high ∧ high ≤ 0xDFFF then .error ⟨.loneSurrogate, rest.val, 0⟩
  else if 0xD800 ≤ high ∧ high ≤ 0xDBFF then
    let (_, afterSlash) ← expectInEscape '\\' rest.val
    let (_, afterLetter) ← expectInEscape 'u' afterSlash.val
    let (low, after) ← hexGroup afterLetter.val
    if 0xDC00 ≤ low ∧ low ≤ 0xDFFF then
      .ok (Char.ofNat (0x10000 + (high - 0xD800) * 0x400 + (low - 0xDC00)),
        ⟨after.val, by
          have := rest.property
          have := afterSlash.property
          have := afterLetter.property
          have := after.property
          omega⟩)
    else .error ⟨.loneSurrogate, after.val, 0⟩
  else .ok (Char.ofNat high, rest)

/-- The character that a one-letter escape stands for. -/
def escaped? : Char → Option Char
  | '"' => some '"'
  | '\\' => some '\\'
  | '/' => some '/'
  | 'b' => some '\x08'
  | 'f' => some '\x0c'
  | 'n' => some '\n'
  | 'r' => some '\r'
  | 't' => some '\t'
  | _ => none

/-- The character of an escape, behind its backslash. -/
def escape : Scanner Char
  | [] => .error ⟨.endInString, [], 0⟩
  | c :: text =>
    if c = 'u' then do
      let (value, rest) ← unicodeEscape text
      .ok (value, rest.within (length_tail_le _ _))
    else match escaped? c with
      | some value => .ok (value, ⟨text, length_tail_lt _ _⟩)
      | none => .error ⟨.invalidEscape, c :: text, 1⟩

/-- The characters of a string, behind its opening quote. -/
def scan : Scanner (List Char) := fun text =>
  match text with
  | [] => .error ⟨.endInString, [], 0⟩
  | c :: tail =>
    if c = '"' then .ok ([], ⟨tail, length_tail_lt _ _⟩)
    else if c = '\\' then do
      let (value, ⟨rest, shorter⟩) ← escape tail
      let (values, after) ← scan rest
      .ok (value :: values,
        ⟨after.val, Nat.lt_succ_of_lt (Nat.lt_trans after.property shorter)⟩)
    else if c.toNat < 0x20 then .error ⟨.controlCharacter, c :: tail, 1⟩
    else do
      let (values, after) ← scan tail
      .ok (c :: values, after.within (length_tail_le _ _))
termination_by text => text.length

end CodeGraph.Json.Quoted

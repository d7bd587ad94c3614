import CodeGraph.Document.Json.Fault

/-! # Numbers of a JSON text

`serde_json` keeps an integer exactly if it fits 64 bits, below zero with a sign and otherwise
without one, and makes a double of every other number, minus zero among them. The program looks at
integers alone, so a number that is none is real here and its value is not kept. What remains of
the double is its range: a magnitude beyond the largest one is refused. For that test the digits go
into a significand of 64 bits, as they do there; the digits of the integer part that do not fit on
only scale it, those of the fraction are dropped.
-/

namespace CodeGraph.Json.Numeral

/-- Reads digits into a significand; returns the digits from the first that does not fit on. -/
def absorb (significand : Nat) : List Char → Nat × List Char
  | [] => (significand, [])
  | c :: digits =>
    let next := 10 * significand + Decimal.digit c
    if next ≤ Decimal.maxUnsigned then absorb next digits else (significand, c :: digits)

/-- The number rounded to 53 significant bits; a tie goes to the even neighbour. -/
def round53 (n : Nat) : Nat :=
  let unit := Nat.pow 2 (n.log2 + 1 - 53)
  let below := n / unit
  let remainder := n % unit
  if unit < 2 * remainder || (unit == 2 * remainder && below % 2 == 1) then (below + 1) * unit
  else below * unit

/-- The least magnitude that rounds beyond the largest double. -/
def overflowThreshold : Nat := Nat.pow 2 1024 - Nat.pow 2 970

/-- Whether `significand * 10 ^ exponent` lies beyond the largest double. -/
def overflows (significand : Nat) (exponent : Int) : Bool :=
  significand != 0 && decide (0 ≤ exponent) &&
    (decide (308 < exponent) ||
      decide (overflowThreshold ≤ round53 significand * round53 (Nat.pow 10 exponent.toNat)))

/-- The digits of an integer: a zero alone, or digits that start with another one. -/
def integerDigits : Scanner (List Char)
  | [] => .error ⟨.endInValue, [], 0⟩
  | c :: text =>
    let digits := text.takeWhile Char.isDigit
    let rest := text.dropWhile Char.isDigit
    if c = '0' ∧ digits ≠ [] then .error ⟨.invalidNumber, text, 1⟩
    else if c.isDigit then
      .ok (c :: digits, ⟨rest, Nat.lt_succ_of_le (List.dropWhile_suffix _).length_le⟩)
    else .error ⟨.invalidNumber, c :: text, 1⟩

/-- The digits behind a point; none where there is no point. -/
def fractionDigits (text : List Char) : Except Fault (List Char × Suffix text) :=
  match text with
  | '.' :: tail =>
    match tail.takeWhile Char.isDigit with
    | [] => if tail = [] then .error ⟨.endInValue, [], 0⟩ else .error ⟨.invalidNumber, tail, 1⟩
    | digits =>
      .ok (digits, ⟨tail.dropWhile Char.isDigit,
        Nat.le_succ_of_le (List.dropWhile_suffix _).length_le⟩)
  | text => .ok ([], ⟨text, Nat.le_refl _⟩)

/-- The largest exponent that is read. -/
def maxExponent : Nat := Nat.pow 2 31 - 1

/-- What follows the digit with which the exponent passes the largest one that is read. -/
def pastMaxExponent (value : Nat) : List Char → Option (List Char)
  | [] => none
  | c :: text =>
    if c.isDigit then
      let next := 10 * value + Decimal.digit c
      if maxExponent < next then some text else pastMaxExponent next text
    else none

/-- The sign in front of a text, as whether it is a minus, and the text without it. -/
def sign : List Char → Bool × List Char
  | '-' :: text => (true, text)
  | '+' :: text => (false, text)
  | text => (false, text)

theorem length_sign_le (text : List Char) : (sign text).2.length ≤ text.length := by
  unfold sign
  split <;> simp

/-- The signed digits behind the letter of an exponent. An exponent that is too large for a
significand other than zero is refused where it becomes so. -/
def exponentValue (significand : Nat) (text : List Char) : Except Fault (Int × Suffix text) :=
  let negative := (sign text).1
  let unsigned := (sign text).2
  match unsigned.takeWhile Char.isDigit with
  | [] =>
    if unsigned = [] then .error ⟨.endInValue, [], 0⟩ else .error ⟨.invalidNumber, unsigned, 1⟩
  | digits =>
    match if significand ≠ 0 ∧ negative = false then pastMaxExponent 0 unsigned else none with
    | some rest => .error ⟨.numberOutOfRange, rest, 0⟩
    | none =>
      let magnitude : Int := Decimal.value digits
      .ok (if negative then -magnitude else magnitude,
        ⟨unsigned.dropWhile Char.isDigit,
          Nat.le_trans (List.dropWhile_suffix _).length_le (length_sign_le text)⟩)

/-- The exponent at the front of a text, if it starts with the letter of one. -/
def exponent? (significand : Nat) (text : List Char) :
    Except Fault (Option Int × Suffix text) :=
  match text with
  | [] => .ok (none, ⟨[], Nat.le_refl _⟩)
  | c :: tail =>
    if c = 'e' ∨ c = 'E' then do
      let (power, rest) ← exponentValue significand tail
      .ok (some power, ⟨rest.val, Nat.le_succ_of_le rest.property⟩)
    else .ok (none, ⟨c :: tail, Nat.le_refl _⟩)

/-- The integer with the given sign and magnitude, as far as 64 bits hold it. Minus zero is no
integer. -/
def ofInteger (negative : Bool) (magnitude : Nat) : Number :=
  if negative then
    if 0 < magnitude ∧ magnitude ≤ Decimal.maxSigned + 1 then .integer (-magnitude) else .real
  else .integer magnitude

/-- A number without its sign: an integer, and perhaps a fraction and an exponent. -/
def scanUnsigned (negative : Bool) : Scanner Number := fun text => do
  let (whole, afterWhole) ← integerDigits text
  let (fraction, afterFraction) ← fractionDigits afterWhole.val
  let (leading, scaling) := absorb 0 whole
  let (significand, dropped) := absorb leading fraction
  let (power, rest) ← exponent? significand afterFraction.val
  let scale : Int := (scaling.length : Int) + dropped.length - fraction.length
  let after : Rest text :=
    ⟨rest.val, Nat.lt_of_le_of_lt (Nat.le_trans rest.property afterFraction.property)
      afterWhole.property⟩
  if scaling = [] ∧ fraction = [] ∧ power = none then .ok (ofInteger negative leading, after)
  else if overflows significand (scale + power.getD 0) then
    .error ⟨.numberOutOfRange, after.val, 0⟩
  else .ok (.real, after)

/-- A number, with its optional minus. -/
def scan : Scanner Number
  | '-' :: text => do
    let (number, rest) ← scanUnsigned true text
    .ok (number, rest.within (length_tail_le _ _))
  | text => scanUnsigned false text

end CodeGraph.Json.Numeral

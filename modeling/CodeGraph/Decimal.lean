/-! # Decimal numerals of bounded size

Ordinals in keys and numbers among command line arguments are runs of ASCII digits whose value has
to fit 64 bits. Leading zeros are allowed; a sign is allowed where the reader says so, and nothing
else is.
-/

namespace CodeGraph.Decimal

/-- The largest unsigned 64-bit number. -/
def maxUnsigned : Nat := Nat.pow 2 64 - 1

/-- The largest signed 64-bit number. -/
def maxSigned : Nat := Nat.pow 2 63 - 1

/-- The value of one decimal digit. -/
def digit (c : Char) : Nat := c.toNat - '0'.toNat

/-- The number that a run of digits spells, most significant digit first. -/
def value (digits : List Char) : Nat := digits.foldl (fun total c => 10 * total + digit c) 0

/-- The value of a text that is a nonempty run of digits, if it is at most `limit`. -/
def upTo? (limit : Nat) (text : List Char) : Option Nat :=
  if text ≠ [] ∧ text.all Char.isDigit = true ∧ value text ≤ limit then some (value text) else none

/-- An unsigned 64-bit numeral, with at most one leading `+`. -/
def unsigned? : List Char → Option Nat
  | '+' :: digits => upTo? maxUnsigned digits
  | digits => upTo? maxUnsigned digits

/-- A signed 64-bit numeral, with at most one leading sign. -/
def signed? : List Char → Option Int
  | '+' :: digits => (upTo? maxSigned digits).map Int.ofNat
  | '-' :: digits => (upTo? (maxSigned + 1) digits).map fun magnitude => -(magnitude : Int)
  | digits => (upTo? maxSigned digits).map Int.ofNat

theorem upTo?_eq_some_iff {limit : Nat} {text : List Char} {n : Nat} :
    upTo? limit text = some n ↔
      text ≠ [] ∧ text.all Char.isDigit = true ∧ value text ≤ limit ∧ value text = n := by
  unfold upTo?
  split <;> grind

/-- A number is read back from how it is written, if it is within the limit. -/
theorem upTo?_toString {limit n : Nat} (fits : n ≤ limit) :
    upTo? limit (toString n).toList = some n := by
  have digits : ∀ c ∈ Nat.toDigits 10 n, c.isDigit = true := fun c member =>
    Nat.isDigit_of_mem_toDigits (by decide) (by decide) member
  have spelled : value (Nat.toDigits 10 n) = n := Nat.ofDigitChars_toDigits (by decide) (by decide)
  have text : (toString n).toList = Nat.toDigits 10 n := Nat.toList_repr
  rw [text]
  exact upTo?_eq_some_iff.mpr
    ⟨Nat.toDigits_ne_nil, List.all_eq_true.mpr digits, spelled.symm ▸ fits, spelled⟩

end CodeGraph.Decimal

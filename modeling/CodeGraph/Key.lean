import CodeGraph.LoadError

/-! # Keys

A key names a construct by its name and its ordinal among the constructs of that name in a table,
counted from one: `Len2` is the second `Len`. Where the name itself ends in a digit a `#` stands
between the two, as in `md5#1`.
-/

namespace CodeGraph

/-- A name and an ordinal. -/
structure Key where
  name : String
  ordinal : Nat
deriving DecidableEq

namespace Key

/-- The longest ending of a text whose characters all satisfy `p`, and what stands before it. -/
def splitEnding (p : Char → Bool) (text : List Char) : List Char × List Char :=
  ((text.reverse.dropWhile p).reverse, (text.reverse.takeWhile p).reverse)

/-- The name and the ordinal of a key, still as text: they are parted by the last `#` if there is
one, else the ordinal is the run of digits at the end. -/
def split (text : List Char) : List Char × List Char :=
  if '#' ∈ text then
    let (before, ordinal) := splitEnding (· ≠ '#') text
    (before.dropLast, ordinal)
  else splitEnding Char.isDigit text

/-- The key that a text spells. It needs a name and an ordinal of 64 bits. -/
def parse? (text : String) : Option Key :=
  let (name, ordinal) := split text.toList
  if name = [] then none
  else (Decimal.upTo? Decimal.maxUnsigned ordinal).map fun value => ⟨String.ofList name, value⟩

/-- The key that a text spells, or the complaint about the text. -/
def parse (text : String) : LoadResult Key :=
  match parse? text with
  | some key => .ok key
  | none => .error (.of (.malformedKey text))

end Key

end CodeGraph

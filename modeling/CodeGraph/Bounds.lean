/-! # Positions in a list

A list of `n` entries has the positions `0, …, n - 1`. Asking for another position is a mistake of
whoever asks, never of the data the list was read from, so it is reported as a value of its own.
-/

namespace CodeGraph

/-- A position asked of a list that has no such position. -/
structure OutOfBounds where
  /-- The number of entries of the list. -/
  size : Nat
  /-- The position asked for. -/
  position : Nat
deriving DecidableEq

namespace OutOfBounds

/-- The wording of the complaint. -/
def message (fault : OutOfBounds) : String :=
  s!"index out of bounds: the len is {fault.size} but the index is {fault.position}"

end OutOfBounds

/-- The entry at a position, counted from zero. -/
def entryAt {α : Type} (entries : List α) (position : Nat) : Except OutOfBounds α :=
  match entries[position]? with
  | some entry => .ok entry
  | none => .error ⟨entries.length, position⟩

theorem entryAt_eq_ok_iff {α : Type} {entries : List α} {position : Nat} {entry : α} :
    entryAt entries position = .ok entry ↔ entries[position]? = some entry := by
  unfold entryAt
  split <;> simp_all

end CodeGraph

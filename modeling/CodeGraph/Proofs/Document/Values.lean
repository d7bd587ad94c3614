import CodeGraph.Proofs.Document.Lists
import CodeGraph.Proofs.Document.Numerals

/-! # Values in a text

A value is read in the same way before every text that does not go on as a numeral
(`CodeGraph.Json.value_settled`).
-/

namespace CodeGraph.Json

variable {α : Type} {fits : List Char → Prop}

/-! ## Arrays and objects -/

/-- A list behind its opening bracket and the blanks there: nothing, or elements. -/
def bracketed (close : Char) (ends : Cause) (list : BareScanner (List α)) :
    BareScanner (List α)
  | [] => .error ends
  | c :: tail => if c = close then .ok ([], tail) else list (c :: tail)

/-- An array is a list in brackets. -/
theorem bare_array (item : Scanner Node) : bare (array item) =
    fun text => bracketed ']' .endInList (bare (items item)) (skipBlanks text) := by
  funext text
  rw [bare, array]
  split
  · rename_i none
    rw [none]
    rfl
  · rename_i c tail found
    simp only [found, bracketed]
    split
    · rfl
    · exact (strip_mapped fun values after => rfl).trans (id_map _)

/-- An object is a list of members in braces. -/
theorem bare_object (item : Scanner Node) : bare (object item) =
    fun text => bracketed '\x7d' .endInObject (quotedMembers item) (skipBlanks text) := by
  funext text
  rw [bare, object]
  split
  · rename_i none
    rw [none]
    rfl
  · rename_i c tail found
    simp only [found, bracketed, quotedMembers]
    split
    · rfl
    · split
      · exact (strip_mapped fun entries after => rfl).trans (id_map _)
      · rfl

section Brackets

variable {close : Char} {ends : Cause} {list : BareScanner (List α)}
  (reads : ∀ text values rest, list text = .ok (values, rest) → rest.length < text.length)
include reads

/-- Behind a list in brackets the text is shorter. -/
theorem length_lt_of_bracketed {text rest : List Char} {values : List α}
    (read : bracketed close ends list text = .ok (values, rest)) : rest.length < text.length := by
  cases text with
  | nil => cases read
  | cons c tail =>
      rw [bracketed] at read
      split at read
      · cases read
        exact length_tail_lt _ _
      · exact reads _ _ _ read

/-- A list in brackets does not depend on what follows. -/
theorem bracketed_settled (settled : ∀ text, Settled fits list text) (text : List Char) :
    Settled fits (fun text => bracketed close ends list (skipBlanks text)) text := by
  refine .blanks (fun values rest => length_lt_of_bracketed reads) ?_
  cases skipBlanks text with
  | nil => nofun
  | cons c tail =>
      exact .cons (.ite (fun _ => .pure []) fun _ => .uncons (reads _) (settled (c :: tail)))

end Brackets

/-- Behind members the text is shorter. -/
theorem length_lt_of_quotedMembers {item : Scanner Node} (text : List Char)
    (entries : List (String × Node)) (rest : List Char)
    (read : quotedMembers item text = .ok (entries, rest)) : rest.length < text.length := by
  cases text with
  | nil => cases read
  | cons c tail =>
      rw [quotedMembers] at read
      split at read
      · exact Nat.lt_succ_of_lt (length_lt_of_bare read)
      · cases read

section Items

variable {item : Scanner Node} (settled : ∀ text, Settled Free (bare item) text)
include settled

/-- An array does not depend on what follows. -/
theorem array_settled (text : List Char) : Settled fits (bare (array item)) text := by
  rw [bare_array]
  exact bracketed_settled (fun _ _ _ => length_lt_of_bare)
    ((items_lists item).settled (.inl rfl) settled) text

/-- A member does not depend on what follows, if that does not go on as a numeral. -/
theorem member_settled (text : List Char) : Settled Free (member item) text := by
  cases text with
  | nil => nofun
  | cons c tail =>
      refine .cons (.ite (fun _ => ?_) fun _ => .error _)
      exact .andThen (key_settled tail) fun name rest _ => .mapped _ (settled rest)

/-- An object does not depend on what follows. -/
theorem object_settled (text : List Char) : Settled fits (bare (object item)) text := by
  rw [bare_object]
  exact bracketed_settled length_lt_of_quotedMembers
    ((quotedMembers_lists item).settled (.inr rfl) (member_settled settled)) text

end Items

/-! ## Values -/

/-- A value is told by its first character. -/
theorem bare_valueAt_cons (inner : Option (Scanner Node)) (c : Char) :
    (fun tail => bare (valueAt inner) (c :: tail)) = fun tail =>
      if c = 'n' then spelled ['u', 'l', 'l'] .null tail
      else if c = 't' then spelled ['r', 'u', 'e'] (.bool true) tail
      else if c = 'f' then spelled ['a', 'l', 's', 'e'] (.bool false) tail
      else if c = '-' ∨ c.isDigit then mapped .number (bare Numeral.scan) (c :: tail)
      else if c = '"' then mapped (.string ∘ String.ofList) (bare Quoted.scan) tail
      else if c = '[' then
        match inner with
        | none => .error .tooDeep
        | some item => mapped .array (bare (array item)) tail
      else if c = '\x7b' then
        match inner with
        | none => .error .tooDeep
        | some item => mapped Node.ofEntries (bare (object item)) tail
      else .error .expectedValue := by
  funext tail
  simp only [bare, valueAt]
  split
  · cases read : word ['u', 'l', 'l'] tail <;> simp [spelled, bare, read]
  split
  · cases read : word ['r', 'u', 'e'] tail <;> simp [spelled, bare, read]
  split
  · cases read : word ['a', 'l', 's', 'e'] tail <;> simp [spelled, bare, read]
  split
  · exact strip_mapped fun number rest => rfl
  split
  · exact strip_mapped fun content rest => rfl
  split
  · cases inner with
    | none => rfl
    | some item => exact strip_mapped fun values rest => rfl
  split
  · cases inner with
    | none => rfl
    | some item => exact strip_mapped fun entries rest => rfl
  · rfl

/-- A value does not depend on what follows, if that does not go on as a numeral. -/
theorem valueAt_settled {inner : Option (Scanner Node)}
    (settled : ∀ item ∈ inner, ∀ text, Settled Free (bare item) text) (text : List Char) :
    Settled Free (bare (valueAt inner)) text := by
  cases text with
  | nil => nofun
  | cons c tail =>
      refine .cons ?_
      rw [bare_valueAt_cons]
      refine .ite (fun _ => spelled_settled _ _ tail) fun _ => ?_
      refine .ite (fun _ => spelled_settled _ _ tail) fun _ => ?_
      refine .ite (fun _ => spelled_settled _ _ tail) fun _ => ?_
      refine .ite (fun _ => ?_) fun _ => ?_
      · refine .uncons (fun value rest read => ?_) (.mapped _ (Numeral.scan_settled (c :: tail)))
        obtain ⟨found, scanned, same⟩ := map_eq_ok_iff.mp read
        cases same
        exact length_lt_of_bare scanned
      refine .ite (fun _ => .mapped _ (Quoted.scan_settled tail)) fun _ => ?_
      refine .ite (fun _ => ?_) fun _ => .ite (fun _ => ?_) fun _ => .error _
      · cases inner with
        | none => exact .error _
        | some item => exact .mapped _ (array_settled (settled item rfl) tail)
      · cases inner with
        | none => exact .error _
        | some item => exact .mapped _ (object_settled (settled item rfl) tail)

/-- What reads the values within a value that nests at most so deep. -/
def innerValue : Nat → Option (Scanner Node)
  | 0 => none
  | depth + 1 => some (value depth)

/-- Blanks in front of a value are skipped. -/
theorem bare_value (depth : Nat) : bare (value depth) =
    fun text => bare (valueAt (innerValue depth)) (skipBlanks text) := by
  funext text
  cases depth <;> exact (strip_mapped fun node rest => rfl).trans (id_map _)

/-- A value is read in the same way before every text that does not go on as a numeral. -/
theorem value_settled (depth : Nat) (text : List Char) :
    Settled Free (bare (value depth)) text := by
  induction depth generalizing text with
  | zero =>
      rw [bare_value]
      refine .blanks (fun _ _ => length_lt_of_bare) (valueAt_settled ?_ _)
      rintro item ⟨⟩
  | succ depth ih =>
      rw [bare_value]
      refine .blanks (fun _ _ => length_lt_of_bare) (valueAt_settled ?_ _)
      rintro item ⟨⟩
      exact ih

end CodeGraph.Json

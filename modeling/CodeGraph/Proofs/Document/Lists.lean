import CodeGraph.Proofs.Document.Quoted

/-! # Lists in a text

The items of an array and the entries of an object are read as one kind of list: elements apart by
commas up to a closing bracket (`CodeGraph.Json.Lists`). What is read so are the elements one after
the other (`CodeGraph.Json.Listed`).
-/

namespace CodeGraph.Json

variable {α : Type} {fits : List Char → Prop}

/-- What follows an element: the closing bracket, or a comma and more elements. -/
def follow (close : Char) (ends expected : Cause)
    (list : BareScanner (List α)) (value : α) : BareScanner (List α)
  | [] => .error ends
  | c :: tail =>
    if c = close then .ok ([value], tail)
    else if c = ',' then
      match skipBlanks tail with
      | [] => .error .endInValue
      | c' :: next =>
        if c' = close then .error .trailingComma else mapped (value :: ·) list (c' :: next)
    else .error expected

/-- A scanner of a list reads elements apart by commas up to a closing bracket. -/
def Lists (close : Char) (element : BareScanner α) (list : BareScanner (List α)) : Prop :=
  ∃ ends expected, list =
    andThen element fun value text => follow close ends expected list value (skipBlanks text)

/-- The items of an array are a list that ends in a bracket. -/
theorem items_lists (item : Scanner Node) : Lists ']' (bare item) (bare (items item)) := by
  refine ⟨.endInList, .expectedCommaOrBracket, ?_⟩
  funext text
  rw [bare, items]
  refine strip_bind fun value rest => ?_
  dsimp only
  split
  · rename_i none
    rw [none]
    rfl
  · rename_i c tail found
    simp only [found, follow]
    split
    · rfl
    · split
      · split
        · rename_i none
          rw [none]
          rfl
        · rename_i c' next found'
          simp only [found']
          split
          · rfl
          · exact strip_mapped fun values after => rfl
      · rfl

/-- An entry of an object, with the opening quote of its key. -/
def member (item : Scanner Node) : BareScanner (String × Node)
  | [] => .error .endInValue
  | c :: tail =>
    if c = '"' then andThen (bare key) (fun name => mapped (name, ·) (bare item)) tail
    else .error .keyNotString

/-- The entries of an object from the first on, with the opening quote of its key. -/
def quotedMembers (item : Scanner Node) : BareScanner (List (String × Node))
  | [] => .error .endInValue
  | c :: tail => if c = '"' then bare (members item) tail else .error .keyNotString

/-- The members of an object are a list that ends in a brace. -/
theorem quotedMembers_lists (item : Scanner Node) :
    Lists '\x7d' (member item) (quotedMembers item) := by
  refine ⟨.endInObject, .expectedCommaOrBrace, ?_⟩
  funext text
  cases text with
  | nil => rfl
  | cons c text =>
      rw [andThen, quotedMembers, member]
      split
      · rw [andThen_mapped_bind, bare, members]
        refine strip_bind fun name afterKey => strip_bind fun value rest => ?_
        dsimp only
        split
        · rename_i none
          rw [none]
          rfl
        · rename_i c' tail found
          simp only [found, follow]
          split
          · rfl
          · split
            · split
              · rename_i none
                rw [none]
                rfl
              · rename_i c'' next found'
                simp only [found']
                split
                · rfl
                · simp only [mapped, quotedMembers]
                  split
                  · exact strip_mapped fun entries after => rfl
                  · rfl
            · rfl
      · rfl

/-- The characters that close a list. -/
def Closes (close : Char) : Prop := close = ']' ∨ close = '\x7d'

namespace Closes

variable {close : Char} (closes : Closes close)
include closes

/-- The sign that ends a list is no blank. -/
theorem solid : isBlank close = false := by
  rcases closes with rfl | rfl <;> decide

/-- A list can end behind a numeral. -/
theorem free (rest : List Char) : Free (close :: rest) := by
  rcases closes with rfl | rfl <;> simp [Free, NoDigit]

theorem comma_ne : ',' ≠ close := by
  rcases closes with rfl | rfl <;> decide

end Closes

/-- A list can go on behind a numeral. -/
theorem free_comma (rest : List Char) : Free (',' :: rest) := by
  simp [Free, NoDigit]

/-- A text from which elements are read up to a closing bracket. -/
inductive Listed (close : Char) (element : BareScanner α) :
    List Char → List α → List Char → Prop
  | last {text blanks rest : List Char} {value : α}
    (read : element text = .ok (value, blanks ++ close :: rest)) (blank : Blanks blanks) :
    Listed close element text [value] rest
  | more {text blanks blanks' next rest : List Char} {c : Char} {value : α} {values : List α}
    (read : element text = .ok (value, blanks ++ ',' :: (blanks' ++ c :: next)))
    (blank : Blanks blanks) (blank' : Blanks blanks') (solid : isBlank c = false)
    (goes : c ≠ close) (behind : Listed close element (c :: next) values rest) :
    Listed close element text (value :: values) rest

section Lists

variable {close : Char} {element : BareScanner α} {list : BareScanner (List α)}
  (lists : Lists close element list) (closes : Closes close)

include lists in
/-- A list fails where its first element does. -/
theorem Lists.error {text : List Char} {cause : Cause} (read : element text = .error cause) :
    list text = .error cause := by
  obtain ⟨ends, expected, lists⟩ := lists
  rw [lists, andThen, read, error_bind]

include lists closes

/-- An element in front of the end is the last of its list. -/
theorem Lists.last {text blanks rest : List Char} {value : α}
    (read : element text = .ok (value, blanks ++ close :: rest)) (blank : Blanks blanks) :
    list text = .ok ([value], rest) := by
  obtain ⟨ends, expected, lists⟩ := lists
  rw [lists, andThen, read, ok_bind, skipBlanks_append blank, skipBlanks_cons closes.solid, follow,
    if_pos rfl]

/-- An element in front of a comma is followed by the rest of its list. -/
theorem Lists.more {text blanks blanks' next : List Char} {c : Char} {value : α}
    (read : element text = .ok (value, blanks ++ ',' :: (blanks' ++ c :: next)))
    (blank : Blanks blanks) (blank' : Blanks blanks') (solid : isBlank c = false)
    (goes : c ≠ close) : list text = mapped (value :: ·) list (c :: next) := by
  obtain ⟨ends, expected, lists⟩ := lists
  have comma : isBlank ',' = false := by decide
  rw [congrFun lists text]
  simp only [andThen, read, ok_bind, skipBlanks_append blank, skipBlanks_cons comma, follow,
    closes.comma_ne, ↓reduceIte, skipBlanks_append blank', skipBlanks_cons solid, goes]

/-- What is listed is read. -/
theorem Listed.read {text rest : List Char} {values : List α}
    (listed : Listed close element text values rest) : list text = .ok (values, rest) := by
  induction listed with
  | last read blank => exact lists.last closes read blank
  | more read blank blank' solid goes behind ih =>
      rw [lists.more closes read blank blank' solid goes, mapped, ih]
      rfl

omit closes in
/-- What is read as a list are its elements, one after the other. -/
theorem Lists.listed (settled : ∀ text, Settled Free element text) {text rest : List Char}
    {values : List α} (read : list text = .ok (values, rest)) :
    Listed close element text values rest := by
  obtain ⟨ends, expected, lists⟩ := lists
  induction length : text.length using Nat.strong_induction_on generalizing text values with
  | _ bound ih =>
      subst length
      rw [lists, andThen] at read
      obtain ⟨⟨value, behind⟩, found, goes⟩ := bind_eq_ok_iff.mp read
      obtain ⟨used, split, -⟩ := settled text value behind found
      dsimp only at goes
      generalize next : skipBlanks behind = text' at goes
      cases text' with
      | nil => cases goes
      | cons c tail =>
          obtain ⟨blanks, blank, rfl, -⟩ := exists_blanks next
          rw [follow] at goes
          split at goes
          · rename_i same
            cases same
            cases goes
            exact .last found blank
          · split at goes
            · rename_i comma
              cases comma
              generalize next' : skipBlanks tail = text' at goes
              cases text' with
              | nil => cases goes
              | cons c tail' =>
                  obtain ⟨blanks', blank', rfl, solid⟩ := exists_blanks next'
                  dsimp only at goes
                  split at goes
                  · cases goes
                  · rename_i other
                    obtain ⟨⟨more, after⟩, readMore, same⟩ := map_eq_ok_iff.mp goes
                    cases same
                    refine .more found blank blank' solid other (ih _ ?_ readMore rfl)
                    simp only [split, List.length_append, List.length_cons]
                    omega
            · cases goes

/-- A list does not depend on what follows its end, if its elements do not depend on what follows
them. -/
theorem Lists.settled (settled : ∀ text, Settled Free element text) (text : List Char) :
    Settled fits list text := by
  intro values rest read
  have listed := lists.listed settled read
  -- The text up to the closing bracket is not empty, so its first character stays the same.
  suffices more : ∃ used, used ≠ [] ∧ text = used ++ rest ∧
      ∀ rest', Listed close element (used ++ rest') values rest' by
    obtain ⟨used, -, split, each⟩ := more
    exact ⟨used, split, fun rest' _ => (each rest').read lists closes⟩
  clear read
  induction listed with
  | @last text blanks rest value read blank =>
      obtain ⟨used, rfl, keeps⟩ := settled text value _ read
      refine ⟨used ++ (blanks ++ [close]), by simp, by simp, fun rest' => ?_⟩
      have free := free_of_blanks blank (closes.free rest')
      simpa using Listed.last (keeps _ free) blank
  | @more text blanks blanks' next rest c value values read blank blank' solid goes behind ih =>
      obtain ⟨used, rfl, keeps⟩ := settled text value _ read
      obtain ⟨used', some, split, each⟩ := ih
      obtain ⟨c', used', rfl⟩ := List.exists_cons_of_ne_nil some
      obtain ⟨rfl, rfl⟩ := List.cons.inj split
      refine ⟨used ++ (blanks ++ ',' :: (blanks' ++ c :: used')), by simp, by simp, fun rest' => ?_⟩
      have free := free_of_blanks blank (free_comma (blanks' ++ c :: (used' ++ rest')))
      simpa using Listed.more (keeps _ free) blank blank' solid goes (each rest')

end Lists

end CodeGraph.Json

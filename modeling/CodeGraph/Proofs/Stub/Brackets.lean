import Mathlib.Data.List.Basic

/-! # Brackets and lines of a text

Brackets are read with a stack of those that are open. `Reading` goes through a text once and checks
everything at its place: that brackets match, that no line is empty, and that each line begins with
two blanks for each brace that is open in front of it. A text that is read to its end is well formed
(`CodeGraph.Reading.wellIndented_of_run`).
-/

namespace CodeGraph

/-- Brackets, of all three sorts. -/
def brackets : List Char := ['(', ')', '[', ']', '{', '}']

/-- The bracket that a closing bracket closes. -/
def opener? : Char → Option Char
  | ')' => some '('
  | ']' => some '['
  | '}' => some '{'
  | _ => none

/-- Whether a character is an opening bracket. -/
def isOpening (c : Char) : Bool := c = '(' || c = '[' || c = '{'

/-- The brackets that are open behind a character, the innermost first, if it closes none but the
innermost. -/
def bracketStep (opened : List Char) (c : Char) : Option (List Char) :=
  if isOpening c then some (c :: opened)
  else match opener? c, opened with
    | none, opened => some opened
    | some opener, innermost :: outer => if innermost = opener then some outer else none
    | some _, [] => none

/-- The brackets that are open behind a text, the innermost first, if it closes none but the
innermost. -/
def openBehind (opened text : List Char) : Option (List Char) := text.foldlM bracketStep opened

/-- The brackets of a text are nested and all of them are closed. -/
def Balanced (text : List Char) : Prop := openBehind [] text = some []

instance (text : List Char) : Decidable (Balanced text) :=
  inferInstanceAs (Decidable (openBehind [] text = some []))

/-- A line of a text, with what stands in front of it and behind it. -/
structure IsLine (text front line back : List Char) : Prop where
  split : text = front ++ line ++ back
  begins : front = [] ∨ front.getLast? = some '\n'
  unbroken : '\n' ∉ line
  ends : back = [] ∨ back.head? = some '\n'

/-- No line of a text is empty, and each begins with two blanks for each brace that is open in front
of it and that the line does not close first of all. -/
structure WellIndented (text : List Char) : Prop where
  blanks : ∀ front line back, IsLine text front line back →
    ∃ opened, openBehind [] front = some opened ∧
      (line.takeWhile (· = ' ')).length =
        2 * (opened.count '{' - if (line.dropWhile (· = ' ')).head? = some '}' then 1 else 0)
  filled : ∀ front line back, IsLine text front line back → line = [] → text = []

/-- A bracket that fits fits inside others. -/
theorem bracketStep_outside {opened closed : List Char} {c : Char}
    (step : bracketStep opened c = some closed) (outer : List Char) :
    bracketStep (opened ++ outer) c = some (closed ++ outer) := by
  unfold bracketStep at step ⊢
  by_cases opens : isOpening c = true
  · rw [if_pos opens] at step ⊢
    cases step
    rfl
  · rw [if_neg opens] at step ⊢
    cases closes : opener? c with
    | none =>
        rw [closes] at step
        cases step
        rfl
    | some opener =>
        rw [closes] at step
        cases opened with
        | nil => cases step
        | cons innermost rest =>
            obtain ⟨same, step⟩ := Option.ite_none_right_eq_some.mp step
            cases step
            exact if_pos same

/-- Brackets that are open further out make no difference. -/
theorem openBehind_outside {opened text closed : List Char}
    (reads : openBehind opened text = some closed) (outer : List Char) :
    openBehind (opened ++ outer) text = some (closed ++ outer) := by
  induction text generalizing opened with
  | nil =>
      cases reads
      rfl
  | cons c rest ih =>
      obtain ⟨next, step, later⟩ := Option.bind_eq_some_iff.mp reads
      exact Option.bind_eq_some_iff.mpr ⟨_, bracketStep_outside step outer, ih later⟩

/-- What is no bracket opens and closes nothing. -/
theorem bracketStep_of_not_mem {c : Char} (other : c ∉ brackets) (opened : List Char) :
    bracketStep opened c = some opened := by
  simp only [brackets, List.mem_cons, List.not_mem_nil, or_false, not_or] at other
  have opens : isOpening c = false := by simp [isOpening, other]
  have closes : opener? c = none := by
    unfold opener?
    split <;> simp_all
  simp [bracketStep, opens, closes]

/-- A text without brackets neither opens nor closes any. -/
theorem openBehind_of_plain {text : List Char} (plain : ∀ c ∈ text, c ∉ brackets)
    (opened : List Char) : openBehind opened text = some opened := by
  induction text with
  | nil => rfl
  | cons c rest ih =>
      obtain ⟨other, later⟩ := List.forall_mem_cons.mp plain
      exact Option.bind_eq_some_iff.mpr ⟨_, bracketStep_of_not_mem other opened, ih later⟩

/-- How far a text has been read. -/
structure Reading where
  /-- The brackets that are open, the innermost first. -/
  opened : List Char
  /-- How many braces are open at the front of the line. -/
  level : Nat
  /-- The blanks at the front of the line, until something else comes. -/
  blanks : Option Nat

namespace Reading

/-- Nothing has been read. -/
def start : Reading := ⟨[], 0, some 0⟩

/-- Reads a character, if it may stand here. Lines may end only where that is said. -/
def next (lines : Bool) (reading : Reading) (c : Char) : Option Reading :=
  if c = '\n' then
    if lines = true ∧ reading.blanks = none then
      some ⟨reading.opened, reading.opened.count '{', some 0⟩
    else none
  else match reading.blanks with
    | none => (bracketStep reading.opened c).map fun opened => { reading with opened }
    | some blanks =>
      if c = ' ' then some { reading with blanks := some (blanks + 1) }
      else if blanks = 2 * (reading.level - if c = '}' then 1 else 0) then
        (bracketStep reading.opened c).map fun opened => { reading with opened, blanks := none }
      else none

/-- Reads a text. -/
def run (lines : Bool) (reading : Reading) (text : List Char) : Option Reading :=
  text.foldlM (next lines) reading

variable {lines : Bool} {reading after : Reading}

/-- A text in two parts is read part by part. -/
theorem run_append (lines : Bool) (reading : Reading) (front back : List Char) :
    reading.run lines (front ++ back) =
      (reading.run lines front).bind fun reading => reading.run lines back :=
  List.foldlM_append

/-- Behind the front of a line only brackets matter. -/
theorem next_within (within : reading.blanks = none) {c : Char} (inLine : c ≠ '\n') :
    reading.next lines c =
      (bracketStep reading.opened c).map fun opened => { reading with opened } := by
  rw [next, if_neg inLine, within]

/-- Within a line only brackets matter. -/
theorem run_within (within : reading.blanks = none) {text closed : List Char}
    (inLine : '\n' ∉ text) (reads : openBehind reading.opened text = some closed) :
    reading.run lines text = some { reading with opened := closed } := by
  induction text generalizing reading with
  | nil =>
      cases reads
      rfl
  | cons c rest ih =>
      rw [List.mem_cons, not_or] at inLine
      obtain ⟨other, later⟩ := inLine
      obtain ⟨opened, step, reads⟩ := Option.bind_eq_some_iff.mp reads
      have first : reading.next lines c = some { reading with opened } := by
        rw [next_within within (Ne.symm other), step]
        rfl
      exact Option.bind_eq_some_iff.mpr ⟨_, first, ih within later reads⟩

/-- Blanks at the front of a line are counted. -/
theorem run_blanks {blanks : Nat} (front : reading.blanks = some blanks) (more : Nat) :
    reading.run lines (List.replicate more ' ') =
      some { reading with blanks := some (blanks + more) } := by
  induction more generalizing reading blanks with
  | zero =>
      obtain ⟨opened, level, _⟩ := reading
      cases front
      rfl
  | succ more ih =>
      have first : reading.next lines ' ' = some { reading with blanks := some (blanks + 1) } := by
        rw [next, if_neg (by decide), front]
        rfl
      rw [List.replicate_succ, run, List.foldlM_cons, first]
      exact (ih rfl).trans (by rw [Nat.add_right_comm, Nat.add_assoc])

/-- At its front a line has its blanks and then something else. -/
theorem run_front (front : reading.blanks = some 0) {levels : Nat} {c : Char}
    {text closed : List Char} (blanks : levels = reading.level - if c = '}' then 1 else 0)
    (begins : c ≠ ' ') (inLine : '\n' ∉ c :: text)
    (reads : openBehind reading.opened (c :: text) = some closed) :
    reading.run lines (List.replicate (2 * levels) ' ' ++ c :: text) =
      some { reading with opened := closed, blanks := none } := by
  rw [List.mem_cons, not_or] at inLine
  obtain ⟨other, later⟩ := inLine
  obtain ⟨opened, step, reads⟩ := Option.bind_eq_some_iff.mp reads
  have first : { reading with blanks := some (0 + 2 * levels) }.next lines c =
      some { reading with opened, blanks := none } := by
    simp only [next, if_neg (Ne.symm other), if_neg begins, Nat.zero_add, blanks, if_true, step]
    rfl
  rw [run_append, run_blanks front, Option.bind_some, run, List.foldlM_cons, first]
  exact run_within rfl later reads

/-- What reading a character of a line does. -/
structure InLine (reading : Reading) (c : Char) (after : Reading) : Prop where
  inLine : c ≠ '\n'
  opened : bracketStep reading.opened c = some after.opened
  level : after.level = reading.level
  blanks : reading.blanks = none ∧ after.blanks = none ∨
    ∃ blanks, reading.blanks = some blanks ∧
      (c = ' ' ∧ after.blanks = some (blanks + 1) ∨
        c ≠ ' ' ∧ blanks = 2 * (reading.level - if c = '}' then 1 else 0) ∧ after.blanks = none)

/-- A character that is read ends a line that is not empty, or it stands in one. -/
theorem next_cases {c : Char} (read : reading.next lines c = some after) :
    (c = '\n' ∧ lines = true ∧ reading.blanks = none ∧
      after = ⟨reading.opened, reading.opened.count '{', some 0⟩) ∨ InLine reading c after := by
  unfold next at read
  by_cases ends : c = '\n'
  · rw [if_pos ends] at read
    obtain ⟨⟨allowed, begun⟩, read⟩ := Option.ite_none_right_eq_some.mp read
    cases read
    exact .inl ⟨ends, allowed, begun, rfl⟩
  · rw [if_neg ends] at read
    right
    cases begun : reading.blanks with
    | none =>
        rw [begun] at read
        obtain ⟨opened, step, rfl⟩ := Option.map_eq_some_iff.mp read
        exact ⟨ends, step, rfl, .inl ⟨begun, rfl⟩⟩
    | some blanks =>
        rw [begun] at read
        by_cases blank : c = ' '
        · simp only [if_pos blank] at read
          cases read
          subst blank
          exact ⟨ends, rfl, rfl, .inr ⟨blanks, begun, .inl ⟨rfl, rfl⟩⟩⟩
        · simp only [if_neg blank] at read
          obtain ⟨fits, read⟩ := Option.ite_none_right_eq_some.mp read
          obtain ⟨opened, step, rfl⟩ := Option.map_eq_some_iff.mp read
          exact ⟨ends, step, rfl, .inr ⟨blanks, begun, .inr ⟨blank, fits, rfl⟩⟩⟩

/-- A reading keeps track of the brackets that are open. -/
theorem openBehind_of_run {text : List Char} (read : reading.run lines text = some after) :
    openBehind reading.opened text = some after.opened := by
  induction text generalizing reading with
  | nil =>
      cases read
      rfl
  | cons c rest ih =>
      obtain ⟨between, first, later⟩ := Option.bind_eq_some_iff.mp read
      refine Option.bind_eq_some_iff.mpr ⟨between.opened, ?_, ih later⟩
      rcases next_cases first with ⟨rfl, -, -, rfl⟩ | inLine
      · rfl
      · exact inLine.opened

/-- Where lines may not end, none does. -/
theorem unbroken_of_run {text : List Char} (read : reading.run false text = some after) :
    '\n' ∉ text := by
  induction text generalizing reading with
  | nil => exact List.not_mem_nil
  | cons c rest ih =>
      obtain ⟨between, first, later⟩ := Option.bind_eq_some_iff.mp read
      rw [List.mem_cons, not_or]
      refine ⟨?_, ih later⟩
      rcases next_cases first with ⟨-, impossible, -⟩ | inLine
      · cases impossible
      · exact inLine.inLine.symm

/-- At the front of a line the braces that are open are counted. -/
theorem front_of_run {text : List Char} (read : start.run lines text = some after)
    (begins : text = [] ∨ text.getLast? = some '\n') :
    after.blanks = some 0 ∧ after.level = after.opened.count '{' := by
  rcases begins with rfl | ends
  · cases read
    exact ⟨rfl, rfl⟩
  · obtain ⟨front, rfl⟩ := List.getLast?_eq_some_iff.mp ends
    rw [run_append] at read
    obtain ⟨between, -, last⟩ := Option.bind_eq_some_iff.mp read
    obtain ⟨final, ended, last⟩ := Option.bind_eq_some_iff.mp last
    cases last
    rcases next_cases ended with ⟨-, -, -, rfl⟩ | inLine
    · exact ⟨rfl, rfl⟩
    · exact absurd rfl inLine.inLine

/-- A character within a line stands in it. -/
theorem inLine_of_run {c : Char} {rest : List Char}
    (read : reading.run lines (c :: rest) = some after) (unbroken : '\n' ∉ c :: rest) :
    '\n' ∉ rest ∧ ∃ between, InLine reading c between ∧ between.run lines rest = some after := by
  rw [List.mem_cons, not_or] at unbroken
  obtain ⟨between, first, later⟩ := Option.bind_eq_some_iff.mp read
  rcases next_cases first with ⟨rfl, -⟩ | inLine
  · exact absurd rfl unbroken.1
  · exact ⟨unbroken.2, between, inLine, later⟩

/-- Without the end of a line a reading stays within the line. -/
theorem within_of_run {text : List Char} (read : reading.run lines text = some after)
    (unbroken : '\n' ∉ text) (within : reading.blanks = none) : after.blanks = none := by
  induction text generalizing reading with
  | nil =>
      cases read
      exact within
  | cons c rest ih =>
      obtain ⟨unbroken, between, inLine, later⟩ := inLine_of_run read unbroken
      rcases inLine.blanks with ⟨-, still⟩ | ⟨blanks, front, -⟩
      · exact ih later unbroken still
      · cases within.symm.trans front

/-- A line that is read is all blanks, or it has as many in front of something else as it should. -/
theorem line_of_run {line : List Char} (read : reading.run lines line = some after)
    (unbroken : '\n' ∉ line) {blanks : Nat} (front : reading.blanks = some blanks) :
    (∃ more, after.blanks = some more) ∨
      after.blanks = none ∧ line ≠ [] ∧ blanks + (line.takeWhile (· = ' ')).length =
        2 * (reading.level - if (line.dropWhile (· = ' ')).head? = some '}' then 1 else 0) := by
  induction line generalizing reading blanks with
  | nil =>
      cases read
      exact .inl ⟨blanks, front⟩
  | cons c rest ih =>
      obtain ⟨restUnbroken, between, inLine, later⟩ := inLine_of_run read unbroken
      rcases inLine.blanks with ⟨within, -⟩ | ⟨found, same, next⟩
      · cases front.symm.trans within
      · cases front.symm.trans same
        rcases next with ⟨rfl, one⟩ | ⟨other, fits, begun⟩
        · rcases ih later restUnbroken one with still | ⟨begun, -, fits⟩
          · exact .inl still
          · refine .inr ⟨begun, List.cons_ne_nil _ _, ?_⟩
            rw [inLine.level] at fits
            simpa [Nat.add_assoc, Nat.add_comm 1] using fits
        · exact .inr ⟨within_of_run later restUnbroken begun, List.cons_ne_nil _ _,
            by simp [other, fits]⟩

/-- Each line of a text that is read to its end has its blanks, unless there is no text. -/
theorem blanks_of_run {text front line back : List Char} (read : start.run lines text = some after)
    (ends : after.blanks = none ∨ text = []) (here : IsLine text front line back) :
    text = [] ∨ line ≠ [] ∧ ∃ opened, openBehind [] front = some opened ∧
      (line.takeWhile (· = ' ')).length =
        2 * (opened.count '{' - if (line.dropWhile (· = ' ')).head? = some '}' then 1 else 0) := by
  obtain ⟨rfl, begins, unbroken, behind⟩ := here
  rw [List.append_assoc, run_append] at read
  obtain ⟨atFront, readFront, read⟩ := Option.bind_eq_some_iff.mp read
  rw [run_append] at read
  obtain ⟨atEnd, readLine, read⟩ := Option.bind_eq_some_iff.mp read
  obtain ⟨none, level⟩ := front_of_run readFront begins
  rcases line_of_run readLine unbroken none with ⟨more, blank⟩ | ⟨-, nonempty, fits⟩
  · left
    rcases behind with rfl | newline
    · cases read
      rw [blank] at ends
      exact ends.resolve_left nofun
    · obtain ⟨rest, rfl⟩ := List.head?_eq_some_iff.mp newline
      obtain ⟨between, ended, -⟩ := Option.bind_eq_some_iff.mp read
      rcases next_cases ended with ⟨-, -, begun, -⟩ | inLine
      · cases blank.symm.trans begun
      · exact absurd rfl inLine.inLine
  · rw [Nat.zero_add, level] at fits
    exact .inr ⟨nonempty, _, openBehind_of_run readFront, fits⟩

/-- **A text that is read to its end is well indented.** -/
theorem wellIndented_of_run {text : List Char} (read : start.run lines text = some after)
    (ends : after.blanks = none ∨ text = []) : WellIndented text where
  blanks := by
    intro front line back here
    rcases blanks_of_run read ends here with rfl | ⟨-, fits⟩
    · obtain ⟨nothing, -, -, -⟩ := here
      obtain ⟨rfl, rfl, -⟩ : front = [] ∧ line = [] ∧ back = [] := by simpa using nothing.symm
      exact ⟨[], rfl, rfl⟩
    · exact fits
  filled := by
    intro front line back here empty
    exact (blanks_of_run read ends here).resolve_right fun filled => filled.1 empty

end Reading

end CodeGraph

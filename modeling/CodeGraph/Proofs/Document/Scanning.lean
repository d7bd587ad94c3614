import CodeGraph.Document.Json.Value
import CodeGraph.Proofs.Outcome
import Mathlib.Data.List.TakeWhile

/-! # Scanning

What a scanner reads is seen here without the place of its fault and without the proof that it reads
on (`CodeGraph.Json.bare`). A scanner is settled if it reads a piece in the same way whatever
stands behind the piece (`CodeGraph.Json.Settled`). A numeral goes on as long as there are
characters that can belong to it, so scanners of values are settled only before texts that do not go
on as a numeral (`CodeGraph.Json.Free`).
-/

namespace CodeGraph.Json

section Words

variable {belongs : Char → Bool} {word rest : List Char}

/-- A word ends where a character follows that does not belong to it. -/
theorem takeWhile_append_of_stop (all : ∀ c ∈ word, belongs c = true)
    (stop : ∀ c ∈ rest.head?, belongs c = false) : (word ++ rest).takeWhile belongs = word := by
  have none : rest.takeWhile belongs = [] := by
    cases rest with
    | nil => rfl
    | cons c rest => simp [stop c rfl]
  rw [List.takeWhile_append_of_pos all, none, List.append_nil]

/-- What is left behind a word is the rest, where it does not go on as the word does. -/
theorem dropWhile_append_of_stop (all : ∀ c ∈ word, belongs c = true)
    (stop : ∀ c ∈ rest.head?, belongs c = false) : (word ++ rest).dropWhile belongs = rest := by
  have none : rest.dropWhile belongs = rest := by
    cases rest with
    | nil => rfl
    | cons c rest => simp [stop c rfl]
  rw [List.dropWhile_append_of_pos all, none]

/-- A text begins with one word only, if what follows ends the word. -/
theorem word_append_inj {word' rest' : List Char} (all : ∀ c ∈ word, belongs c = true)
    (all' : ∀ c ∈ word', belongs c = true) (stop : ∀ c ∈ rest.head?, belongs c = false)
    (stop' : ∀ c ∈ rest'.head?, belongs c = false) (same : word ++ rest = word' ++ rest') :
    word = word' ∧ rest = rest' := by
  constructor
  · rw [← takeWhile_append_of_stop all stop, same, takeWhile_append_of_stop all' stop']
  · rw [← dropWhile_append_of_stop all stop, same, dropWhile_append_of_stop all' stop']

end Words

variable {α β : Type}

/-- What was read and the characters behind it, or the cause of the fault. -/
def strip {holds : List Char → Prop} :
    Except Fault (α × { rest // holds rest }) → Except Cause (α × List Char)
  | .ok (value, rest) => .ok (value, rest.val)
  | .error fault => .error fault.cause

@[simp]
theorem strip_ok {holds : List Char → Prop} (value : α) (rest : { rest // holds rest }) :
    strip (.ok (value, rest)) = .ok (value, rest.val) := rfl

@[simp]
theorem strip_error {holds : List Char → Prop} (fault : Fault) :
    strip (.error fault : Except Fault (α × { rest // holds rest })) = .error fault.cause := rfl

/-- What is read in two steps. -/
theorem strip_bind {first second : List Char → Prop}
    {read : Except Fault (α × { rest // first rest })}
    {next : α × { rest // first rest } → Except Fault (β × { rest // second rest })}
    {next' : α × List Char → Except Cause (β × List Char)}
    (same : ∀ value rest, strip (next (value, rest)) = next' (value, rest.val)) :
    strip (read >>= next) = strip read >>= next' := by
  cases read with
  | error fault => rfl
  | ok read => exact same read.1 read.2

/-- Reads one piece from the front of a text, or finds the cause of a fault there. -/
abbrev BareScanner (α : Type) := List Char → Except Cause (α × List Char)

/-- What a scanner reads of a text and the characters behind it, or the cause of its fault. -/
def bare {holds : List Char → List Char → Prop}
    (scan : (text : List Char) → Except Fault (α × { rest // holds text rest }))
    (text : List Char) : Except Cause (α × List Char) :=
  strip (scan text)

/-- A bare scanner finds what the scanner finds, and forgets only the bound on the rest. -/
theorem bare_eq_ok_iff {holds : List Char → List Char → Prop}
    {scan : (text : List Char) → Except Fault (α × { rest // holds text rest })} {value : α}
    {text rest : List Char} :
    bare scan text = .ok (value, rest) ↔ ∃ held, scan text = .ok (value, ⟨rest, held⟩) := by
  unfold bare
  cases scan text with
  | error fault => simp
  | ok found =>
      obtain ⟨found, behind, held⟩ := found
      constructor
      · rintro ⟨⟩
        exact ⟨held, rfl⟩
      · rintro ⟨_, ⟨⟩⟩
        rfl

/-- A bare scanner leaves less than it was given, if the scanner does. -/
theorem length_lt_of_bare {scan : Scanner α} {value : α} {text rest : List Char}
    (read : bare scan text = .ok (value, rest)) : rest.length < text.length :=
  (bare_eq_ok_iff.mp read).1

/-- Reads a piece, and then what the piece calls for. -/
def andThen (scan : BareScanner α) (next : α → BareScanner β) : BareScanner β :=
  fun text => scan text >>= fun read => next read.1 read.2

/-- Reads a piece as something else. -/
def mapped (f : α → β) (scan : BareScanner α) : BareScanner β :=
  fun text => (fun read => (f read.1, read.2)) <$> scan text

/-- Changing what was read commutes with forgetting the bounds. -/
theorem strip_mapped {first second : List Char → Prop}
    {read : Except Fault (α × { rest // first rest })}
    {next : α × { rest // first rest } → Except Fault (β × { rest // second rest })} {f : α → β}
    (same : ∀ value rest, strip (next (value, rest)) = .ok (f value, rest.val)) :
    strip (read >>= next) = (fun read => (f read.1, read.2)) <$> strip read := by
  cases read with
  | error fault => rfl
  | ok read => exact same read.1 read.2

/-- Reading two pieces and combining them is reading one after the other. -/
theorem andThen_mapped_bind {γ δ : Type} {scan : BareScanner α} {scan' : BareScanner β}
    {f : α → β → γ} {text : List Char} {next : γ × List Char → Except Cause (δ × List Char)} :
    andThen scan (fun first => mapped (f first) scan') text >>= next =
      scan text >>= fun first => scan' first.2 >>= fun second =>
        next (f first.1 second.1, second.2) := by
  rw [andThen]
  cases scan text with
  | error cause => rfl
  | ok first =>
      simp only [ok_bind, mapped]
      cases scan' first.2 <;> rfl

/-! ## Blanks -/

/-- A run of blanks. -/
def Blanks (text : List Char) : Prop := ∀ c ∈ text, isBlank c = true

section Blanks

variable {blanks rest : List Char}

/-- Blanks in front are skipped. -/
theorem skipBlanks_append (blank : Blanks blanks) (rest : List Char) :
    skipBlanks (blanks ++ rest) = skipBlanks rest :=
  List.dropWhile_append_of_pos blank

/-- Nothing is skipped in front of a character that is not blank. -/
theorem skipBlanks_cons {c : Char} (solid : isBlank c = false) (tail : List Char) :
    skipBlanks (c :: tail) = c :: tail :=
  List.dropWhile_cons_of_neg (by rw [solid]; decide)

/-- Before the next character that is no blank there are only blanks. -/
theorem exists_blanks {text tail : List Char} {c : Char} (next : skipBlanks text = c :: tail) :
    ∃ blanks, Blanks blanks ∧ text = blanks ++ c :: tail ∧ isBlank c = false := by
  refine ⟨text.takeWhile isBlank, fun _ => List.mem_takeWhile_imp, ?_, ?_⟩
  · rw [← next]
    exact List.takeWhile_append_dropWhile.symm
  · have stops := List.head?_dropWhile_not isBlank text
    rw [← skipBlanks, next] at stops
    exact stops

end Blanks

/-! ## Texts that do not go on -/

/-- A text that does not go on with digits. -/
def NoDigit (text : List Char) : Prop := ∀ c ∈ text.head?, c.isDigit = false

/-- A text that does not go on as a numeral. -/
def Free (text : List Char) : Prop :=
  NoDigit text ∧ ∀ c ∈ text.head?, c ≠ '.' ∧ c ≠ 'e' ∧ c ≠ 'E'

/-- A text that goes on with neither a digit nor a fraction. -/
def NoFraction (text : List Char) : Prop := NoDigit text ∧ text.head? ≠ some '.'

/-- A text that does not go on as a numeral does not go on as a fraction. -/
theorem Free.noFraction {text : List Char} (free : Free text) : NoFraction text :=
  ⟨free.1, fun point => (free.2 '.' point).1 rfl⟩

theorem free_nil : Free [] := ⟨nofun, nofun⟩

/-- Blanks in front of a text do not make it go on as a numeral. -/
theorem free_of_blanks {blanks rest : List Char} (blank : Blanks blanks) (free : Free rest) :
    Free (blanks ++ rest) := by
  cases blanks with
  | nil => exact free
  | cons c blanks =>
      have first := blank c List.mem_cons_self
      simp only [isBlank, Bool.or_eq_true, decide_eq_true_eq] at first
      rcases first with ((rfl | rfl) | rfl) | rfl <;> simp [Free, NoDigit]

/-! ## Settled scanners -/

/-- What a scanner reads of a text it reads in the same way before every rest that fits. -/
def Settled (fits : List Char → Prop) (scan : BareScanner α) (text : List Char) : Prop :=
  ∀ value rest, scan text = .ok (value, rest) → ∃ used, text = used ++ rest ∧
    ∀ rest', fits rest' → scan (used ++ rest') = .ok (value, rest')

/-- Any text. -/
def Anything (_ : List Char) : Prop := True

namespace Settled

variable {fits : List Char → Prop} {scan : BareScanner α} {text : List Char}

/-- Reading nothing does not depend on what follows. -/
theorem pure (value : α) : Settled fits (fun text => .ok (value, text)) text := by
  rintro value rest ⟨⟩
  exact ⟨[], rfl, fun _ _ => rfl⟩

/-- Where nothing is read, nothing depends on what follows. -/
theorem error (cause : List Char → Cause) :
    Settled fits (fun text => .error (cause text) : BareScanner α) text := nofun

/-- A scanner that chooses by a condition on no text is settled if both choices are. -/
theorem ite {p : Prop} [Decidable p] {scan' : BareScanner α}
    (pos : p → Settled fits scan text) (neg : ¬ p → Settled fits scan' text) :
    Settled fits (fun text => if p then scan text else scan' text) text := by
  split
  · rename_i held
    exact pos held
  · rename_i not
    exact neg not

/-- Two scanners in a row are settled if the second is settled behind what the first has read. -/
theorem andThen {next : α → BareScanner β} (first : Settled Anything scan text)
    (second : ∀ value rest, scan text = .ok (value, rest) → Settled fits (next value) rest) :
    Settled fits (andThen scan next) text := by
  intro value rest read
  obtain ⟨⟨found, behind⟩, readFirst, readSecond⟩ := bind_eq_ok_iff.mp read
  obtain ⟨used, rfl, settled⟩ := first found behind readFirst
  obtain ⟨used', rfl, settled'⟩ := second found behind readFirst value rest readSecond
  refine ⟨used ++ used', (List.append_assoc ..).symm, fun rest' held => ?_⟩
  simp only [Json.andThen, List.append_assoc, settled _ trivial, ok_bind, settled' rest' held]

/-- Changing what was read keeps a scanner settled. -/
theorem mapped (f : α → β) (settled : Settled fits scan text) :
    Settled fits (mapped f scan) text := by
  intro value rest read
  obtain ⟨⟨found, behind⟩, readFirst, same⟩ := map_eq_ok_iff.mp read
  cases same
  obtain ⟨used, split, settled⟩ := settled found behind readFirst
  refine ⟨used, split, fun rest' held => ?_⟩
  simp only [Json.mapped, settled rest' held, map_ok]

/-- A scanner is settled on a text if it is settled behind its first character. -/
theorem cons {c : Char} {tail : List Char}
    (settled : Settled fits (fun tail => scan (c :: tail)) tail) :
    Settled fits scan (c :: tail) := by
  intro value rest read
  obtain ⟨used, split, keeps⟩ := settled value rest read
  exact ⟨c :: used, congrArg (c :: ·) split, keeps⟩

/-- A scanner that reads at least one character is settled behind the first. -/
theorem uncons {c : Char} {tail : List Char}
    (reads : ∀ value rest, scan (c :: tail) = .ok (value, rest) →
      rest.length < (c :: tail).length)
    (settled : Settled fits scan (c :: tail)) :
    Settled fits (fun tail => scan (c :: tail)) tail := by
  intro value rest read
  obtain ⟨used, split, keeps⟩ := settled value rest read
  have shorter := reads value rest read
  cases used with
  | nil =>
      rw [split, List.nil_append] at shorter
      exact absurd shorter (Nat.lt_irrefl _)
  | cons c' used =>
      obtain ⟨rfl, behind⟩ := List.cons.inj split
      exact ⟨used, behind, keeps⟩

/-- Blanks before a piece are skipped, whatever stands behind it. -/
theorem blanks (reads : ∀ value rest, scan (skipBlanks text) = .ok (value, rest) →
      rest.length < (skipBlanks text).length)
    (settled : Settled fits scan (skipBlanks text)) :
    Settled fits (fun text => scan (skipBlanks text)) text := by
  intro value rest read
  obtain ⟨used, split, settled⟩ := settled value rest read
  have shorter := reads value rest read
  cases used with
  | nil =>
      rw [split, List.nil_append] at shorter
      exact absurd shorter (Nat.lt_irrefl _)
  | cons c used =>
      obtain ⟨blanks, blank, whole, solid⟩ := exists_blanks split
      refine ⟨blanks ++ c :: used, by rw [whole, List.append_assoc]; rfl, fun rest' held => ?_⟩
      simp only [List.append_assoc, List.cons_append, skipBlanks_append blank,
        skipBlanks_cons solid]
      exact settled rest' held

end Settled

end CodeGraph.Json

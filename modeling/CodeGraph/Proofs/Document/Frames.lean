import CodeGraph.Proofs.Document.Replacing
import CodeGraph.Proofs.Document.Values

/-! # Integers in a text

A document text with an integer in the document has the literal of the integer in a frame: the
characters before it and those behind it. With another literal in the frame the text is read as the
document with the other number, or not at all if the literal is out of range
(`CodeGraph.Json.value_framed`).
-/

namespace CodeGraph

/-- Nothing is below a scalar. -/
theorem Node.follow_of_scalar {node : Node} (scalar : node.shape.isScalar = true) {step : Step}
    {path : Path} : node.follow (step :: path) = none := by
  cases node with
  | array items => cases scalar
  | object entries => cases scalar
  | _ => cases step <;> rfl

end CodeGraph

namespace CodeGraph.Json

variable {α β : Type}

/-- The characters of a text around a literal. -/
structure Frame where
  before : List Char
  after : List Char

namespace Frame

/-- The text of a frame with a literal in it, before a rest. -/
def fill (frame : Frame) (literal : Literal) (rest : List Char) : List Char :=
  frame.before ++ (literal.spell ++ (frame.after ++ rest))

/-- With any literal in it, a frame is read as `put` says of the number that the literal spells. -/
def Holds (frame : Frame) (scan : BareScanner α) (put : Number → α) : Prop :=
  ∀ literal rest, Free rest →
    scan (frame.fill literal rest) = Numeral.outcome put rest literal.number?

end Frame

/-- What is read of a text has an integer in it, in a frame that takes other literals. -/
def Framed (scan : BareScanner α) (text rest : List Char) (value : Int) (put : Number → α) : Prop :=
  ∃ (frame : Frame) (old : Literal),
    text = frame.fill old rest ∧ old.value = value ∧ frame.Holds scan put

/-- A literal begins with a minus or a digit. -/
theorem Literal.first (literal : Literal) : ∃ c tail, literal.spell = c :: tail ∧
    (c = '-' ∨ c.isDigit = true) := by
  obtain ⟨c, digits, whole, digit⟩ := literal.whole.first
  rw [spell, whole]
  cases literal.negative with
  | true => exact ⟨'-', c :: digits, rfl, .inl rfl⟩
  | false => exact ⟨c, digits, rfl, .inr digit⟩

/-- A text with a literal in a frame starts with a character that starts the frame, or a literal. -/
theorem Frame.first (frame : Frame) {old : Literal} {rest next : List Char} {c : Char}
    (start : frame.fill old rest = c :: next) (solid : isBlank c = false) (literal : Literal)
    (rest' : List Char) : ∃ c' next', frame.fill literal rest' = c' :: next' ∧
      isBlank c' = false ∧ ∀ close, Closes close → c ≠ close → c' ≠ close := by
  obtain ⟨before, after⟩ := frame
  cases before with
  | cons first before =>
      cases (List.cons.inj start).1
      exact ⟨_, _, rfl, solid, fun close _ => id⟩
  | nil =>
      obtain ⟨c', tail, spelled, first⟩ := literal.first
      refine ⟨c', tail ++ (after ++ rest'), by rw [fill, spelled]; rfl, ?_, ?_⟩
      · by_contra blank
        simp only [isBlank, Bool.not_eq_false, Bool.or_eq_true, decide_eq_true_eq] at blank
        rcases blank with ((rfl | rfl) | rfl) | rfl <;> simp at first
      · rintro close closes - rfl
        rcases closes with rfl | rfl <;> simp at first

namespace Framed

variable {scan : BareScanner α} {text rest : List Char} {value : Int}
  {put : Number → α}

/-- The frame of a literal is extended by a character in front. -/
theorem cons {c : Char} {tail : List Char}
    (framed : Framed (fun tail => scan (c :: tail)) tail rest value put) :
    Framed scan (c :: tail) rest value put := by
  obtain ⟨⟨before, after⟩, old, split, same, holds⟩ := framed
  exact ⟨⟨c :: before, after⟩, old, congrArg (c :: ·) split, same, holds⟩

/-- Changing what was read changes the value that is put around the literal. -/
theorem mapped (f : α → β) (framed : Framed scan text rest value put) :
    Framed (mapped f scan) text rest value (f ∘ put) := by
  obtain ⟨frame, old, split, same, holds⟩ := framed
  refine ⟨frame, old, split, same, fun literal rest' free => ?_⟩
  rw [Json.mapped, holds literal rest' free]
  cases literal.number? <;> rfl

/-- What is read in front of the literal becomes a part of its frame. -/
theorem andThen {next : α → BareScanner β} {put : Number → β} {found : α} {behind : List Char}
    (first : Settled Anything scan text)
    (read : scan text = .ok (found, behind))
    (framed : Framed (next found) behind rest value put) :
    Framed (andThen scan next) text rest value put := by
  obtain ⟨used, rfl, keeps⟩ := first found behind read
  obtain ⟨⟨before, after⟩, old, rfl, same, holds⟩ := framed
  refine ⟨⟨used ++ before, after⟩, old, by simp [Frame.fill], same, fun literal rest' free => ?_⟩
  have scanned := keeps (Frame.fill ⟨before, after⟩ literal rest') trivial
  rw [← holds literal rest' free, Frame.fill, List.append_assoc, Json.andThen]
  rw [Frame.fill] at scanned
  rw [scanned]
  rfl

/-- Blanks in front become a part of the frame. -/
theorem blanks (framed : Framed scan (skipBlanks text) rest value put) :
    Framed (fun text => scan (skipBlanks text)) text rest value put := by
  obtain ⟨⟨before, after⟩, old, split, same, holds⟩ := framed
  cases next : skipBlanks text with
  | nil =>
      obtain ⟨c, tail, spelled, -⟩ := old.first
      rw [next, Frame.fill, spelled] at split
      simp at split
  | cons c tail =>
      obtain ⟨blanks, blank, rfl, solid⟩ := exists_blanks next
      rw [next] at split
      refine ⟨⟨blanks ++ before, after⟩, old, by simp [split, Frame.fill], same, ?_⟩
      intro literal rest' free
      obtain ⟨c', next', filled, solid', -⟩ := Frame.first _ split.symm solid literal rest'
      rw [← holds literal rest' free, Frame.fill, List.append_assoc]
      rw [Frame.fill] at filled ⊢
      simp only [skipBlanks_append blank, filled, skipBlanks_cons solid']

/-- What is read behind a piece with an integer in it goes into the frame. -/
theorem extend {scan' : BareScanner β} {put' : Number → β} {more : List Char}
    (framed : Framed scan text (more ++ rest) value put)
    (free : ∀ rest', Free (more ++ rest'))
    (fails : ∀ text cause, scan text = .error cause → scan' text = .error cause)
    (goes : ∀ text number rest', scan text = .ok (put number, more ++ rest') →
      scan' text = .ok (put' number, rest')) : Framed scan' text rest value put' := by
  obtain ⟨⟨before, after⟩, old, split, same, holds⟩ := framed
  have filled (literal : Literal) (rest' : List Char) :
      Frame.fill ⟨before, after ++ more⟩ literal rest' =
        Frame.fill ⟨before, after⟩ literal (more ++ rest') := by
    simp only [Frame.fill, List.append_assoc]
  refine ⟨⟨before, after ++ more⟩, old, by rw [filled, split], same, fun literal rest' _ => ?_⟩
  have read := holds literal (more ++ rest') (free rest')
  rw [filled]
  cases spelled : literal.number? with
  | none => exact fails _ _ (by rw [read, spelled]; rfl)
  | some number => exact goes _ number rest' (by rw [read, spelled]; rfl)

end Framed

section Lists

variable {close : Char} {element : BareScanner α} {list : BareScanner (List α)}
  (lists : Lists close element list) (closes : Closes close)
  {text rest blanks blanks' next : List Char} {c : Char} {first : α} {value : Int}
include lists closes

/-- A last element with an integer in it is framed up to the closing bracket. -/
theorem Lists.framed_last {put : Number → α} (blank : Blanks blanks)
    (framed : Framed element text (blanks ++ close :: rest) value put) :
    Framed list text rest value fun number => [put number] := by
  have framed : Framed element text ((blanks ++ [close]) ++ rest) value put := by simpa using framed
  refine framed.extend (fun rest' => ?_) (fun _ _ => lists.error) fun text number rest' read => ?_
  · simpa using free_of_blanks blank (closes.free rest')
  · exact lists.last closes (by simpa using read) blank

/-- An element with an integer in it is framed with the elements behind it, which are read again. -/
theorem Lists.framed_front {put : Number → α} {values : List α} (blank : Blanks blanks)
    (blank' : Blanks blanks') (solid : isBlank c = false) (goes : c ≠ close)
    (framed : Framed element text (blanks ++ ',' :: (blanks' ++ c :: next)) value put)
    (behind : list (c :: next) = .ok (values, rest))
    (rereads : Settled Anything (fun tail => list (c :: tail)) next) :
    Framed list text rest value fun number => put number :: values := by
  obtain ⟨used, rfl, keeps⟩ := rereads values rest behind
  have framed : Framed element text ((blanks ++ ',' :: (blanks' ++ c :: used)) ++ rest) value
      put := by
    simpa using framed
  refine framed.extend (fun rest' => ?_) (fun _ _ => lists.error) fun text number rest' read => ?_
  · simpa using free_of_blanks blank (free_comma (blanks' ++ c :: (used ++ rest')))
  · have kept : list (c :: (used ++ rest')) = .ok (values, rest') := keeps rest' trivial
    have read : element text =
        .ok (put number, blanks ++ ',' :: (blanks' ++ c :: (used ++ rest'))) := by
      simpa using read
    rw [lists.more closes read blank blank' solid goes, mapped, kept]
    rfl

/-- An element goes into the frame of what is behind it. -/
theorem Lists.framed_behind {put : Number → List α} (blank : Blanks blanks)
    (blank' : Blanks blanks') (solid : isBlank c = false) (goes : c ≠ close)
    (settled : Settled Free element text)
    (read : element text = .ok (first, blanks ++ ',' :: (blanks' ++ c :: next)))
    (framed : Framed list (c :: next) rest value put) :
    Framed list text rest value fun number => first :: put number := by
  obtain ⟨⟨before, after⟩, old, split, same, holds⟩ := framed
  obtain ⟨used, rfl, keeps⟩ := settled first _ read
  have filled (literal : Literal) (rest' : List Char) :
      Frame.fill ⟨used ++ (blanks ++ ',' :: (blanks' ++ before)), after⟩ literal rest' =
        used ++ (blanks ++ ',' :: (blanks' ++ Frame.fill ⟨before, after⟩ literal rest')) := by
    simp [Frame.fill]
  refine ⟨⟨used ++ (blanks ++ ',' :: (blanks' ++ before)), after⟩, old, by rw [filled, split], same,
    fun literal rest' free => ?_⟩
  -- The list behind the comma starts with another character if the frame starts with its literal.
  obtain ⟨c', next', start, solid', other⟩ := Frame.first _ split.symm solid literal rest'
  have read' := keeps (blanks ++ ',' :: (blanks' ++ c' :: next'))
    (free_of_blanks blank (free_comma _))
  rw [filled, start, lists.more closes read' blank blank' solid' (other close closes goes), mapped,
    ← start, holds literal rest' free]
  cases literal.number? <;> rfl

/-- An element with an integer in it is framed by the list. -/
theorem Lists.framed {values : List α} {position : Nat} {found : α} {put : Number → α}
    (settled : ∀ text, Settled Free element text)
    (reads : ∀ text values rest, list text = .ok (values, rest) → rest.length < text.length)
    (listed : Listed close element text values rest) (here : values[position]? = some found)
    (framed : ∀ text rest, element text = .ok (found, rest) → Framed element text rest value put) :
    Framed list text rest value fun number => values.set position (put number) := by
  induction listed generalizing position with
  | @last text blanks rest first read blank =>
      obtain ⟨rfl, rfl⟩ : position = 0 ∧ first = found := by
        cases position <;> simp_all
      exact lists.framed_last closes blank (framed text _ read)
  | @more text blanks blanks' next rest c first values read blank blank' solid goes behind ih =>
      cases position with
      | zero =>
          cases here
          exact lists.framed_front closes blank blank' solid goes (framed text _ read)
            (behind.read lists closes)
            (.uncons (reads (c :: next)) (lists.settled closes settled (c :: next)))
      | succ position =>
          exact lists.framed_behind closes blank blank' solid goes (settled text) read (ih here)

end Lists

/-- A list with an integer in it is framed by its brackets. -/
theorem bracketed_framed {close : Char} {ends : Cause} {list : BareScanner (List α)}
    (closes : Closes close)
    {text rest : List Char} {values : List α} {value : Int} {put : Number → List α}
    (some : values ≠ []) (read : bracketed close ends list (skipBlanks text) = .ok (values, rest))
    (framed : ∀ text, list text = .ok (values, rest) → Framed list text rest value put) :
    Framed (fun text => bracketed close ends list (skipBlanks text)) text rest value put := by
  refine .blanks ?_
  cases next : skipBlanks text with
  | nil =>
      rw [next] at read
      cases read
  | cons c tail =>
      obtain ⟨-, -, -, solid⟩ := exists_blanks next
      rw [next, bracketed] at read
      split at read
      · cases read
        exact absurd rfl some
      · rename_i goes
        obtain ⟨frame, old, split, same, holds⟩ := framed _ read
        refine ⟨frame, old, split, same, fun literal rest' free => ?_⟩
        obtain ⟨c', next', filled, -, other⟩ := frame.first split.symm solid literal rest'
        rw [filled, bracketed, if_neg (other close closes goes), ← filled, holds literal rest' free]

/-- Behind a bracket an array is read. -/
theorem bare_valueAt_bracket (item : Scanner Node) :
    (fun tail => bare (valueAt (some item)) ('[' :: tail)) = mapped .array (bare (array item)) := by
  rw [bare_valueAt_cons]
  simp

/-- Behind a brace an object is read. -/
theorem bare_valueAt_brace (item : Scanner Node) :
    (fun tail => bare (valueAt (some item)) ('\x7b' :: tail)) =
      mapped Node.ofEntries (bare (object item)) := by
  rw [bare_valueAt_cons]
  simp

/-- In front of a literal a number is read. -/
theorem valueAt_literal (inner : Option (Scanner Node)) (literal : Literal) (rest : List Char) :
    bare (valueAt inner) (literal.spell ++ rest) =
      mapped .number (bare Numeral.scan) (literal.spell ++ rest) := by
  obtain ⟨c, tail, spelled, first⟩ := literal.first
  have others : c ≠ 'n' ∧ c ≠ 't' ∧ c ≠ 'f' := by
    refine ⟨?_, ?_, ?_⟩ <;> rintro rfl <;> simp at first
  have numeral := congrFun (bare_valueAt_cons inner c) (tail ++ rest)
  rw [spelled, List.cons_append, numeral]
  simp only [others.1, others.2.1, others.2.2, first, ↓reduceIte]

/-- What a value is, by how it was read. -/
theorem valueAt_cases {inner : Option (Scanner Node)} {c : Char} {tail rest : List Char}
    {node : Node} (read : bare (valueAt inner) (c :: tail) = .ok (node, rest)) :
    (∃ number, node = .number number ∧ bare Numeral.scan (c :: tail) = .ok (number, rest)) ∨
    (∃ item values, inner = some item ∧ c = '[' ∧ node = .array values ∧
      bare (array item) tail = .ok (values, rest)) ∨
    (∃ item entries, inner = some item ∧ c = '\x7b' ∧ node = .ofEntries entries ∧
      bare (object item) tail = .ok (entries, rest)) ∨
    (node.shape.isScalar = true ∧ node.shape ≠ .number) := by
  have told := congrFun (bare_valueAt_cons inner c) tail
  rw [read] at told
  split at told
  · cases (spelled_eq_ok_iff.mp told.symm).1
    simp [Node.shape, Shape.isScalar]
  split at told
  · cases (spelled_eq_ok_iff.mp told.symm).1
    simp [Node.shape, Shape.isScalar]
  split at told
  · cases (spelled_eq_ok_iff.mp told.symm).1
    simp [Node.shape, Shape.isScalar]
  split at told
  · obtain ⟨⟨number, behind⟩, scanned, same⟩ := map_eq_ok_iff.mp told.symm
    cases same
    exact .inl ⟨number, rfl, scanned⟩
  split at told
  · obtain ⟨⟨content, behind⟩, scanned, same⟩ := map_eq_ok_iff.mp told.symm
    cases same
    simp [Node.shape, Shape.isScalar]
  split at told
  · rename_i bracket
    cases inner with
    | none => cases told
    | some item =>
        obtain ⟨⟨values, behind⟩, scanned, same⟩ := map_eq_ok_iff.mp told.symm
        cases same
        exact .inr (.inl ⟨item, values, rfl, bracket, rfl, scanned⟩)
  split at told
  · rename_i brace
    cases inner with
    | none => cases told
    | some item =>
        obtain ⟨⟨entries, behind⟩, scanned, same⟩ := map_eq_ok_iff.mp told.symm
        cases same
        exact .inr (.inr (.inl ⟨item, entries, rfl, brace, rfl, scanned⟩))
  · cases told

/-- How a document reads with another number in the place of an integer. -/
def putNumber (node : Node) (path : Path) (number : Number) : Node := node.put path (.number number)

section Items

variable {item : Scanner Node} (settled : ∀ text, Settled Free (bare item) text)
  {path : Path} {value : Int}
  (framed : ∀ {text rest node}, bare item text = .ok (node, rest) →
    node.follow path = some (.number (.integer value)) →
      Framed (bare item) text rest value (putNumber node path))
include settled framed

/-- A literal inside an item of an array is framed by the array. -/
theorem array_framed {text rest : List Char} {items : List Node} {position : Nat}
    (read : bare (array item) text = .ok (items, rest))
    (leads : (Node.array items).follow (.index position :: path) =
      some (.number (.integer value))) :
    Framed (mapped .array (bare (array item))) text rest value
      (putNumber (.array items) (.index position :: path)) := by
  obtain ⟨found, here, below⟩ := Option.bind_eq_some_iff.mp leads
  have inside : items[position]? = some found := here
  have put : putNumber (.array items) (.index position :: path) =
      Node.array ∘ fun number => items.set position (putNumber found path number) := by
    funext number
    simp [putNumber, Node.put, List.modify_eq_set_getElem?, inside]
  have some : items ≠ [] := by
    rintro rfl
    cases inside
  rw [put]
  refine .mapped _ ?_
  rw [bare_array] at read ⊢
  refine bracketed_framed (.inl rfl) some read fun text read => ?_
  have lists := items_lists item
  exact lists.framed (.inl rfl) settled (fun _ _ _ => length_lt_of_bare)
    (lists.listed settled read) inside fun text rest read => framed read below

omit settled in
/-- A literal inside the value of a member is framed by the member. -/
theorem member_framed {text rest : List Char} {name : String} {node : Node}
    (read : member item text = .ok ((name, node), rest))
    (leads : node.follow path = some (.number (.integer value))) :
    Framed (member item) text rest value fun number => (name, putNumber node path number) := by
  cases text with
  | nil => cases read
  | cons c tail =>
      rw [member] at read
      split at read
      · rename_i quote
        obtain ⟨⟨name, behind⟩, readKey, readItem⟩ := bind_eq_ok_iff.mp read
        obtain ⟨⟨node, after⟩, scanned, same⟩ := map_eq_ok_iff.mp readItem
        cases same
        refine .cons ?_
        simp only [member, quote, ↓reduceIte]
        exact .andThen (key_settled tail) readKey (.mapped _ (framed scanned leads))
      · cases read

/-- A literal inside a field of an object is framed by the object. Of several members with the name
of the field the last one holds the literal. -/
theorem object_framed {text rest : List Char} {entries : List (String × Node)} {name : String}
    (read : bare (object item) text = .ok (entries, rest))
    (leads : (Node.ofEntries entries).follow (.field name :: path) =
      some (.number (.integer value))) :
    Framed (mapped .ofEntries (bare (object item))) text rest value
      (putNumber (.ofEntries entries) (.field name :: path)) := by
  obtain ⟨found, here, below⟩ := Option.bind_eq_some_iff.mp leads
  obtain ⟨position, inside, anew⟩ := Node.exists_written_of_get? here
  have put : putNumber (.ofEntries entries) (.field name :: path) = Node.ofEntries ∘
      fun number => entries.set position (name, putNumber found path number) := by
    funext number
    have present : (Node.ofEntries entries).entries.lookup name = some found := here
    rw [Function.comp, anew, putNumber, putNumber]
    rw [Node.ofEntries, Node.entries] at present
    simp [Node.ofEntries, Node.put, present, Node.entries]
  have some : entries ≠ [] := by
    rintro rfl
    cases inside
  rw [put]
  refine .mapped _ ?_
  rw [bare_object] at read ⊢
  refine bracketed_framed (.inr rfl) some read fun text read => ?_
  have lists := quotedMembers_lists item
  exact lists.framed (.inr rfl) (member_settled settled) length_lt_of_quotedMembers
    (lists.listed (member_settled settled) read) inside
    fun text rest read => member_framed framed read below

end Items

/-- A literal inside a value is framed by the text of the value. -/
theorem valueAt_framed {inner : Option (Scanner Node)}
    (settled : ∀ item ∈ inner, ∀ text, Settled Free (bare item) text) {value : Int}
    (framed : ∀ item ∈ inner, ∀ {text rest node path}, bare item text = .ok (node, rest) →
      node.follow path = some (.number (.integer value)) →
        Framed (bare item) text rest value (putNumber node path))
    {text rest : List Char} {node : Node} {path : Path}
    (read : bare (valueAt inner) text = .ok (node, rest))
    (leads : node.follow path = some (.number (.integer value))) :
    Framed (bare (valueAt inner)) text rest value (putNumber node path) := by
  cases text with
  | nil => cases read
  | cons c tail =>
      rcases valueAt_cases read with ⟨number, rfl, scanned⟩ |
        ⟨item, items, rfl, rfl, rfl, scanned⟩ | ⟨item, entries, rfl, rfl, rfl, scanned⟩ | scalar
      · cases path with
        | nil =>
            cases leads
            obtain ⟨old, split, same⟩ := exists_literal scanned
            refine ⟨⟨[], []⟩, old, split, same, fun literal rest' free => ?_⟩
            simp only [Frame.fill, List.nil_append]
            rw [valueAt_literal, mapped, literal.scan_append free]
            cases literal.number? <;> rfl
        | cons step path =>
            rw [Node.follow_of_scalar rfl] at leads
            cases leads
      · refine .cons ?_
        rw [bare_valueAt_bracket]
        cases path with
        | nil => cases leads
        | cons step path =>
            cases step with
            | index position =>
                exact array_framed (settled item rfl) (framed item rfl) scanned leads
            | field name => cases leads
      · refine .cons ?_
        rw [bare_valueAt_brace]
        cases path with
        | nil => cases leads
        | cons step path =>
            cases step with
            | index position => cases leads
            | field name => exact object_framed (settled item rfl) (framed item rfl) scanned leads
      · obtain ⟨scalar, other⟩ := scalar
        cases path with
        | nil =>
            cases leads
            exact absurd rfl other
        | cons step path =>
            rw [Node.follow_of_scalar scalar] at leads
            cases leads

/-- **An integer of a value is spelled by a literal, and with another literal in its place the value
is read with the other number there, or not at all if that is out of range.** -/
theorem value_framed {depth : Nat} {text rest : List Char} {node : Node} {path : Path} {value : Int}
    (read : bare (Json.value depth) text = .ok (node, rest))
    (leads : node.follow path = some (.number (.integer value))) :
    Framed (bare (Json.value depth)) text rest value (putNumber node path) := by
  induction depth generalizing text rest node path with
  | zero =>
      rw [bare_value] at read ⊢
      refine .blanks (valueAt_framed ?_ ?_ read leads)
      · rintro item ⟨⟩
      · rintro item ⟨⟩
  | succ depth ih =>
      rw [bare_value] at read ⊢
      refine .blanks (valueAt_framed ?_ ?_ read leads)
      · rintro item ⟨⟩
        exact value_settled depth
      · rintro item ⟨⟩
        exact ih

/-! ## Documents -/

/-- A document is one value with nothing but blanks behind it. -/
theorem document_eq_ok_iff {text : List Char} {node : Node} : document text = .ok node ↔
    ∃ rest, bare (value maxDepth) text = .ok (node, rest) ∧ skipBlanks rest = [] := by
  rw [document, bare]
  cases value maxDepth text with
  | error fault => simp
  | ok read =>
      obtain ⟨found, behind⟩ := read
      simp only [ok_bind, strip_ok]
      cases next : skipBlanks behind.val <;> simp [next]

/-- A document fails as its value does. -/
theorem document_of_bare_error {text : List Char} {cause : Cause}
    (fails : bare (value maxDepth) text = .error cause) :
    ∃ fault, document text = .error fault ∧ fault.cause = cause := by
  rw [bare] at fails
  rw [document]
  cases read : value maxDepth text with
  | ok read =>
      rw [read] at fails
      cases fails
  | error fault =>
      rw [read] at fails
      exact ⟨fault, rfl, Except.error.inj fails⟩

end CodeGraph.Json

namespace CodeGraph.Node

/-- An integer of a document is spelled by a literal in its text, and every other literal can stand
in its place: the text spells the document with the other number, unless that is out of range. -/
theorem ofJson_framed {text : String} {document : Node} {path : Path} {value : Int}
    (parsed : ofJson text = .ok document)
    (leads : document.follow path = some (.number (.integer value))) :
    ∃ (before after : List Char) (old : Json.Literal),
      text.toList = before ++ (old.spell ++ after) ∧ old.value = value ∧
      ∀ literal : Json.Literal,
        (∀ number, literal.number? = some number →
          ofJson (String.ofList (before ++ (literal.spell ++ after))) =
            .ok (document.put path (.number number))) ∧
        (literal.number? = none → ∃ fault : Json.Fault, fault.cause = .numberOutOfRange ∧
          ofJson (String.ofList (before ++ (literal.spell ++ after))) =
            .error (fault.toReadError (before ++ (literal.spell ++ after)))) := by
  obtain ⟨rest, read, blank⟩ := Json.document_eq_ok_iff.mp (mapError_eq_ok_iff.mp parsed)
  obtain ⟨⟨before, after⟩, old, split, same, holds⟩ := Json.value_framed read leads
  have blanks : Json.Blanks rest := List.dropWhile_eq_nil_iff.mp blank
  have free : Json.Free rest := by
    simpa using Json.free_of_blanks blanks Json.free_nil
  refine ⟨before, after ++ rest, old, split, same, fun literal => ?_⟩
  have read' := holds literal rest free
  rw [Json.Frame.fill] at read'
  simp only [ofJson, String.toList_ofList]
  constructor
  · intro number spelled
    rw [spelled] at read'
    exact mapError_eq_ok_iff.mpr (Json.document_eq_ok_iff.mpr ⟨rest, read', blank⟩)
  · intro spelled
    rw [spelled] at read'
    obtain ⟨fault, fails, cause⟩ := Json.document_of_bare_error read'
    exact ⟨fault, cause, mapError_eq_error_iff.mpr ⟨fault, fails, rfl⟩⟩

end CodeGraph.Node

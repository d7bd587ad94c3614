import CodeGraph.Document.Json.Value
import CodeGraph.Proofs.Outcome

/-! # Ways into a document

A path leads from the root of a document to one of its nodes, by the keys of objects and the
positions of arrays. Documents come from texts, where a repeated key replaces the value of the
earlier one, so no object of a document has a key twice (`CodeGraph.Node.keysDistinct_of_ofJson`)
and each of its entries is found under its key.
-/

namespace CodeGraph

namespace Node

/-- The node that a path leads to. -/
def follow : Node → Path → Option Node
  | node, [] => some node
  | node, .field name :: rest => (node.get? name).bind fun value => value.follow rest
  | node, .index position :: rest =>
    (node.items?.bind fun items => items[position]?).bind fun item => item.follow rest

/-- A path in two parts is followed part by part. -/
theorem follow_append (node : Node) (outer inner : Path) :
    node.follow (outer ++ inner) = (node.follow outer).bind fun found => found.follow inner := by
  induction outer generalizing node with
  | nil => rfl
  | cons step rest ih =>
      cases step with
      | field name =>
          simp only [List.cons_append, follow, ih]
          rw [Option.bind_assoc]
      | index position =>
          simp only [List.cons_append, follow, ih]
          rw [← Option.bind_assoc]

/-- Every object of a document has each of its keys once. -/
inductive KeysDistinct : Node → Prop
  | null : KeysDistinct null
  | bool (value : Bool) : KeysDistinct (bool value)
  | number (value : Number) : KeysDistinct (number value)
  | string (text : String) : KeysDistinct (string text)
  | array {items : List Node} (inner : ∀ item ∈ items, KeysDistinct item) :
    KeysDistinct (array items)
  | object {entries : List (String × Node)} (keys : (entries.map Prod.fst).Nodup)
    (inner : ∀ entry ∈ entries, KeysDistinct entry.2) : KeysDistinct (object entries)

attribute [simp] KeysDistinct.null KeysDistinct.bool KeysDistinct.number KeysDistinct.string

/-- In a list the keys of objects are distinct if they are in each item. -/
@[simp]
theorem keysDistinct_array_iff {items : List Node} :
    (array items).KeysDistinct ↔ ∀ item ∈ items, item.KeysDistinct := by
  constructor
  · intro distinct
    cases distinct with
    | array inner => exact inner
  · exact .array

/-- In an object the keys are distinct, and so they are in each value. -/
@[simp]
theorem keysDistinct_object_iff {entries : List (String × Node)} :
    (object entries).KeysDistinct ↔
      (entries.map Prod.fst).Nodup ∧ ∀ entry ∈ entries, entry.2.KeysDistinct := by
  constructor
  · intro distinct
    cases distinct with
    | object keys inner => exact ⟨keys, inner⟩
  · exact fun both => .object both.1 both.2

/-- Where keys are distinct, every entry is found under its key. -/
theorem lookup_of_mem {α : Type} {entries : List (String × α)}
    (keys : (entries.map Prod.fst).Nodup) {key : String} {value : α}
    (member : (key, value) ∈ entries) :
    entries.lookup key = some value := by
  induction entries with
  | nil => cases member
  | cons entry rest ih =>
      obtain ⟨other, found⟩ := entry
      rw [List.map_cons, List.nodup_cons] at keys
      rw [lookup_cons]
      rcases List.mem_cons.mp member with same | later
      · cases same
        exact if_pos rfl
      · have different : key ≠ other := by
          rintro rfl
          exact keys.1 (List.mem_map.mpr ⟨(key, value), later, rfl⟩)
        rw [if_neg different]
        exact ih keys.2 later

section Entries

variable {key : String} {value : Node} {entries : List (String × Node)}

/-- Setting a key adds no entry but the new one. -/
theorem mem_setEntry {entry : String × Node} (member : entry ∈ setEntry key value entries) :
    entry = (key, value) ∨ entry ∈ entries := by
  fun_induction setEntry key value entries <;> grind

/-- Setting a key keeps the keys there are, and puts a new one behind them. -/
theorem map_fst_setEntry : (setEntry key value entries).map Prod.fst =
    if key ∈ entries.map Prod.fst then entries.map Prod.fst
    else entries.map Prod.fst ++ [key] := by
  fun_induction setEntry key value entries <;> grind

end Entries

/-- However often a text repeats keys, in the object that it spells they are distinct. -/
theorem ofEntries_keysDistinct {written : List (String × Node)}
    (inner : ∀ entry ∈ written, KeysDistinct entry.2) : KeysDistinct (ofEntries written) := by
  suffices kept : ∀ entries : List (String × Node), (entries.map Prod.fst).Nodup →
      (∀ entry ∈ entries, KeysDistinct entry.2) →
      KeysDistinct (object (written.foldl
        (fun entries entry => setEntry entry.1 entry.2 entries) entries)) from
    kept [] List.nodup_nil (by simp)
  induction written with
  | nil => exact fun entries keys values => .object keys values
  | cons entry rest ih =>
      obtain ⟨first, later⟩ := List.forall_mem_cons.mp inner
      intro entries keys values
      apply ih later
      · rw [map_fst_setEntry]
        split
        · exact keys
        · rename_i fresh
          exact List.nodup_append.mpr ⟨keys, by simp, by grind⟩
      · intro other member
        rcases mem_setEntry member with rfl | old
        · exact first
        · exact values other old

end Node

namespace Json

/-- Every value that a scanner finds has a property. -/
def Finds {α : Type} (holds : α → Prop) (scan : Scanner α) : Prop :=
  ∀ text value rest, scan text = .ok (value, rest) → holds value

/-- Behind the first character that is not blank, the text is shorter. -/
theorem length_lt_of_skipBlanks {text tail : List Char} {c : Char}
    (skipped : skipBlanks text = c :: tail) : tail.length < text.length := by
  have bounded := length_skipBlanks_le text
  rw [skipped, List.length_cons] at bounded
  exact bounded

variable {item : Scanner Node} (inner : Finds Node.KeysDistinct item)
include inner

/-- The items of a list have distinct keys if the scanner of items finds only such. -/
theorem items_finds : Finds (fun values => ∀ value ∈ values, value.KeysDistinct) (items item) := by
  intro text
  induction length : text.length using Nat.strongRecOn generalizing text with
  | ind n ih =>
      intro values rest found
      rw [items] at found
      simp only [bind_eq_ok_iff] at found
      obtain ⟨⟨value, ⟨after, shorter⟩⟩, first, found⟩ := found
      have distinct := inner _ _ _ first
      split at found
      · cases found
      · rename_i closing tail opened
        have shorterTail := length_lt_of_skipBlanks opened
        split at found
        · cases found
          simpa using distinct
        · split at found
          · split at found
            · cases found
            · rename_i next spaced
              have shorterNext := length_skipBlanks_le tail
              split at found
              · cases found
              · simp only [bind_eq_ok_iff] at found
                obtain ⟨⟨later, left⟩, found, same⟩ := found
                cases same
                have laterDistinct := ih _ (by grind) _ rfl later left found
                exact List.forall_mem_cons.mpr ⟨distinct, laterDistinct⟩
          · cases found

/-- A list is empty or has the items that were found. -/
theorem array_finds : Finds (fun values => ∀ value ∈ values, value.KeysDistinct) (array item) := by
  intro text values rest found
  unfold array at found
  split at found
  · cases found
  · split at found
    · cases found
      simp
    · simp only [bind_eq_ok_iff] at found
      obtain ⟨⟨later, left⟩, found, same⟩ := found
      cases same
      exact items_finds inner _ _ _ found

/-- The values of members have distinct keys if the scanner of items finds only such. -/
theorem members_finds :
    Finds (fun entries => ∀ entry ∈ entries, entry.2.KeysDistinct) (members item) := by
  intro text
  induction length : text.length using Nat.strongRecOn generalizing text with
  | ind n ih =>
      intro entries rest found
      rw [members] at found
      simp only [bind_eq_ok_iff] at found
      obtain ⟨⟨name, ⟨afterKey, shorterKey⟩⟩, -, ⟨value, ⟨after, shorter⟩⟩, first, found⟩ := found
      have distinct := inner _ _ _ first
      split at found
      · cases found
      · rename_i closing tail opened
        have shorterTail := length_lt_of_skipBlanks opened
        split at found
        · cases found
          simpa using distinct
        · split at found
          · split at found
            · cases found
            · rename_i next spaced
              have shorterNext := length_lt_of_skipBlanks spaced
              split at found
              · cases found
              · split at found
                · simp only [bind_eq_ok_iff] at found
                  obtain ⟨⟨later, left⟩, found, same⟩ := found
                  cases same
                  have laterDistinct := ih _ (by grind) _ rfl later left found
                  exact List.forall_mem_cons.mpr ⟨distinct, laterDistinct⟩
                · cases found
          · cases found

/-- An object is empty or has the members that were found. -/
theorem object_finds :
    Finds (fun entries => ∀ entry ∈ entries, entry.2.KeysDistinct) (object item) := by
  intro text entries rest found
  unfold object at found
  split at found
  · cases found
  · split at found
    · cases found
      simp
    · split at found
      · simp only [bind_eq_ok_iff] at found
        obtain ⟨⟨later, left⟩, found, same⟩ := found
        cases same
        exact members_finds inner _ _ _ found
      · cases found

omit inner in
/-- A value has distinct keys if the values within it have. -/
theorem valueAt_finds {inner : Option (Scanner Node)}
    (finds : ∀ item ∈ inner, Finds Node.KeysDistinct item) :
    Finds Node.KeysDistinct (valueAt inner) := by
  intro text node rest found
  cases text with
  | nil => cases found
  | cons c text =>
      unfold valueAt at found
      simp only at found
      split at found
      · obtain ⟨_, -, same⟩ := bind_eq_ok_iff.mp found
        cases same
        exact .null
      split at found
      · obtain ⟨_, -, same⟩ := bind_eq_ok_iff.mp found
        cases same
        exact .bool true
      split at found
      · obtain ⟨_, -, same⟩ := bind_eq_ok_iff.mp found
        cases same
        exact .bool false
      split at found
      · obtain ⟨⟨number, _⟩, -, same⟩ := bind_eq_ok_iff.mp found
        cases same
        exact .number number
      split at found
      · obtain ⟨⟨content, _⟩, -, same⟩ := bind_eq_ok_iff.mp found
        cases same
        exact .string _
      split at found
      · cases inner with
        | none => cases found
        | some item =>
            obtain ⟨⟨values, _⟩, scanned, same⟩ := bind_eq_ok_iff.mp found
            cases same
            exact .array (array_finds (finds item rfl) _ _ _ scanned)
      split at found
      · cases inner with
        | none => cases found
        | some item =>
            obtain ⟨⟨entries, _⟩, scanned, same⟩ := bind_eq_ok_iff.mp found
            cases same
            exact Node.ofEntries_keysDistinct (object_finds (finds item rfl) _ _ _ scanned)
      · cases found

omit inner in
/-- Every value that is scanned has distinct keys, however deep it nests. -/
theorem value_finds (depth : Nat) : Finds Node.KeysDistinct (value depth) := by
  induction depth with
  | zero =>
      intro text node rest found
      obtain ⟨⟨inside, _⟩, scanned, same⟩ := bind_eq_ok_iff.mp found
      cases same
      exact valueAt_finds (by simp) _ _ _ scanned
  | succ depth ih =>
      intro text node rest found
      obtain ⟨⟨inside, _⟩, scanned, same⟩ := bind_eq_ok_iff.mp found
      cases same
      exact valueAt_finds (by simpa using ih) _ _ _ scanned

end Json

/-- No object of a document that a text spells has a key twice. -/
theorem Node.keysDistinct_of_ofJson {text : String} {document : Node}
    (parsed : Node.ofJson text = .ok document) : document.KeysDistinct := by
  simp only [Node.ofJson, mapError_eq_ok_iff, Json.document, bind_eq_ok_iff] at parsed
  obtain ⟨⟨node, rest⟩, scanned, ended⟩ := parsed
  split at ended
  · cases ended
    exact Json.value_finds Json.maxDepth _ _ _ scanned
  · cases ended

end CodeGraph

import CodeGraph.Proofs.Document.Paths
import CodeGraph.Proofs.Document.Reading
import Mathlib.Data.List.Induction

/-! # Another node in a document

A document can be given another node at the end of a path (`CodeGraph.Node.put`). What is not on the
way there stays as it is: an object keeps its other fields (`CodeGraph.Node.field?_put_of_ne`), a
list its other items, and every node on the way its shape.
-/

namespace CodeGraph.Node

/-- A way into an item of a field finds a list there. -/
theorem exists_items_of_follow {node found : Node} {field : String} {position : Nat} {rest : Path}
    (leads : node.follow (.field field :: .index position :: rest) = some found) :
    ∃ items item, node.field? field = some (.array items) ∧ items[position]? = some item ∧
      item.follow rest = some found := by
  obtain ⟨value, present, below⟩ := Option.bind_eq_some_iff.mp leads
  obtain ⟨item, inside, leads⟩ := Option.bind_eq_some_iff.mp below
  obtain ⟨items, list, here⟩ := Option.bind_eq_some_iff.mp inside
  cases items?_eq_some_iff.mp list
  refine ⟨items, item, ?_, here, leads⟩
  rw [field?, present]
  rfl

/-- A document with another node at the end of a path. Where the path leads nowhere the document
stays as it is. -/
def put : Node → Path → Node → Node
  | _, [], new => new
  | object entries, .field name :: rest, new =>
    match entries.lookup name with
    | some value => object (setEntry name (value.put rest new) entries)
    | none => object entries
  | array items, .index position :: rest, new =>
    array (items.modify position fun item => item.put rest new)
  | node, _ :: _, _ => node

@[simp]
theorem put_nil (node new : Node) : node.put [] new = new := by
  cases node <;> rfl

/-- Putting a node below another one does not change the shape of the other. -/
@[simp]
theorem shape_put_cons (node : Node) (step : Step) (rest : Path) (new : Node) :
    (node.put (step :: rest) new).shape = node.shape := by
  cases node with
  | object entries =>
      cases step with
      | field name =>
          rw [put]
          split <;> rfl
      | index position => rfl
  | _ => cases step <;> rfl

/-- Putting a node below another one does not change whether the other is a text. -/
theorem string?_put_cons (node : Node) (step : Step) (rest : Path) (new : Node) :
    (node.put (step :: rest) new).string? = node.string? := by
  cases node with
  | object entries =>
      cases step with
      | field name =>
          rw [put]
          split <;> rfl
      | index position => rfl
  | _ => cases step <;> rfl

section Fields

variable (node : Node) (name : String) (rest : Path) (new : Node)

/-- Below a key only what stands under this key is changed. -/
theorem get?_put (asked : String) :
    (node.put (.field name :: rest) new).get? asked =
      if asked = name then (node.get? asked).map (·.put rest new) else node.get? asked := by
  cases node with
  | object entries =>
      rw [put, get?]
      cases found : entries.lookup name with
      | some value =>
          rw [get?, lookup_setEntry]
          grind
      | none =>
          rw [get?]
          grind
  | _ => simp [put, get?]

/-- Fields of other names keep their values. -/
theorem field?_put_of_ne {asked : String} (other : asked ≠ name) :
    (node.put (.field name :: rest) new).field? asked = node.field? asked := by
  rw [field?, get?_put, if_neg other]
  rfl

end Fields

/-- A change below a step leaves every field as it is that the step does not lead into. -/
theorem field?_put_of_step_ne {step : Step} {asked : String} (other : step ≠ .field asked)
    (node : Node) (rest : Path) (new : Node) :
    (node.put (step :: rest) new).field? asked = node.field? asked := by
  cases step with
  | field name => exact field?_put_of_ne node name rest new fun same => other (by rw [same])
  | index position => cases node <;> rfl

/-- A change below the value of a field is a change of that value. -/
theorem field?_put_cons (node : Node) (name : String) (step : Step) (rest : Path) (new : Node) :
    (node.put (.field name :: step :: rest) new).field? name =
      (node.field? name).map (·.put (step :: rest) new) := by
  rw [field?, get?_put, if_pos rfl, field?, Option.filter_map]
  simp [Function.comp_def]

/-- The field itself gets the new value, if that is not null. -/
theorem field?_put_nil {node value new : Node} {name : String} (found : node.get? name = some value)
    (there : new.shape ≠ .null) : (node.put [.field name] new).field? name = some new := by
  rw [field?, get?_put, if_pos rfl, found]
  simp [there]

/-- Below a position only the item at this position is changed. -/
theorem items?_put_index (node : Node) (position : Nat) (rest : Path) (new : Node) :
    (node.put (.index position :: rest) new).items? =
      node.items?.map (·.modify position fun item => item.put rest new) := by
  cases node <;> rfl

/-- A change below an item of an optional list is a change of that item. -/
theorem readArrayOrEmpty_put (node : Node) (name : String) (position : Nat) (rest : Path)
    (new : Node) :
    (node.put (.field name :: .index position :: rest) new).readArrayOrEmpty name =
      (·.modify position fun item => item.put rest new) <$> node.readArrayOrEmpty name := by
  rw [readArrayOrEmpty, readArrayOrEmpty, field?_put_cons]
  cases node.field? name with
  | none => simp
  | some value =>
      simp only [Option.map_some, viewField, items?_put_index, shape_put_cons]
      cases value.items? <;> rfl

/-- Setting a key changes its value in place. -/
theorem setEntry_append {entries before after : List (String × Node)} {name : String}
    {value : Node} (split : entries = before ++ (name, value) :: after)
    (fresh : ∀ entry ∈ before, entry.1 ≠ name) (new : Node) :
    setEntry name new entries = before ++ (name, new) :: after := by
  subst split
  induction before with
  | nil => exact if_pos rfl
  | cons entry rest ih =>
      obtain ⟨different, later⟩ := List.forall_mem_cons.mp fresh
      rw [List.cons_append, setEntry, if_neg different, ih later]
      rfl

/-- Where a name is found first in a list of entries. -/
theorem exists_split_of_lookup {entries : List (String × Node)} {name : String} {value : Node}
    (found : entries.lookup name = some value) :
    ∃ before after, entries = before ++ (name, value) :: after ∧
      ∀ entry ∈ before, entry.1 ≠ name := by
  obtain ⟨before, after, split, fresh⟩ := List.lookup_eq_some_iff.mp found
  refine ⟨before, after, split, fun entry member same => ?_⟩
  simpa [same] using fresh entry member

/-- A document in which a node is put where it stands already. -/
theorem put_of_follow {document node : Node} {path : Path}
    (leads : document.follow path = some node) : document.put path node = document := by
  induction path generalizing document with
  | nil =>
      cases leads
      exact put_nil _ _
  | cons step rest ih =>
      cases step with
      | field name =>
          obtain ⟨value, found, below⟩ := Option.bind_eq_some_iff.mp leads
          cases document with
          | object entries =>
              rw [get?] at found
              obtain ⟨before, after, split, fresh⟩ := exists_split_of_lookup found
              simp only [put, found, ih below, setEntry_append split fresh]
              rw [split]
          | _ => cases found
      | index position =>
          obtain ⟨item, found, leads⟩ := Option.bind_eq_some_iff.mp leads
          obtain ⟨items, list, here⟩ := Option.bind_eq_some_iff.mp found
          cases items?_eq_some_iff.mp list
          rw [put, Node.array.injEq]
          apply List.ext_getElem?
          intro index
          rw [List.getElem?_modify]
          grind

/-! ## Objects as they are written -/

/-- Of two values set for a key the later one stays. -/
theorem setEntry_setEntry (name : String) (value new : Node) (entries : List (String × Node)) :
    setEntry name new (setEntry name value entries) = setEntry name new entries := by
  induction entries with
  | nil => simp [setEntry]
  | cons entry rest ih =>
      rw [setEntry]
      split
      · rename_i same
        rw [setEntry, if_pos rfl, setEntry, if_pos same]
      · rename_i other
        rw [setEntry, if_neg other, setEntry, if_neg other, ih]

/-- A name that is there keeps its place, so it can be given a value before another one. -/
theorem setEntry_comm {name other : String} (differ : other ≠ name) (value new : Node)
    {entries : List (String × Node)} {old : Node} (present : entries.lookup name = some old) :
    setEntry other value (setEntry name new entries) =
      setEntry name new (setEntry other value entries) := by
  induction entries with
  | nil => cases present
  | cons entry rest ih =>
      obtain ⟨key, found⟩ := entry
      rw [lookup_cons] at present
      grind [setEntry]

/-- What an object holds under a name was written there last, and can be written anew. -/
theorem exists_written_of_get? {written : List (String × Node)} {name : String} {value : Node}
    (found : (ofEntries written).get? name = some value) :
    ∃ position, written[position]? = some (name, value) ∧ ∀ new,
      ofEntries (written.set position (name, new)) =
        object (setEntry name new (ofEntries written).entries) := by
  induction written using List.reverseRecOn with
  | nil => cases found
  | append_singleton front entry ih =>
      obtain ⟨key, last⟩ := entry
      have folded (front : List (String × Node)) : ofEntries (front ++ [(key, last)]) =
          object (setEntry key last (ofEntries front).entries) := by
        simp [ofEntries, entries]
      rw [folded, get?, lookup_setEntry] at found
      by_cases same : name = key
      · subst same
        rw [if_pos rfl] at found
        cases found
        refine ⟨front.length, by simp, fun new => ?_⟩
        have replaced : (front ++ [(name, value)]).set front.length (name, new) =
            front ++ [(name, new)] := by simp
        rw [replaced, folded, entries, setEntry_setEntry]
        simp [ofEntries, entries]
      · rw [if_neg same] at found
        obtain ⟨position, here, anew⟩ := ih found
        have inside := (List.getElem?_eq_some_iff.mp here).1
        refine ⟨position, by rw [List.getElem?_append_left inside, here], fun new => ?_⟩
        rw [List.set_append_left _ _ inside, folded, folded, anew, entries, entries,
          setEntry_comm (Ne.symm same) _ _ found]

end CodeGraph.Node

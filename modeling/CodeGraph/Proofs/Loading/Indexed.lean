import CodeGraph.Proofs.Loading.Blame
import CodeGraph.Proofs.Loading.Readings

/-! # Numbers in the place of indices

An index stands at the end of a path below an entry (`CodeGraph.FieldReading.HoldsIndex`): it is a
field, an item of a list, a field of an item, or the value behind a name. With another number there,
an entry that was read fails as that number is read as an index, and in no other way
(`CodeGraph.Kind.runAll_put`).
-/

namespace CodeGraph

open LoadResult

namespace Draft

/-- How a number is read as an index, where a required field or something else holds it. -/
def readNumber (draft : Draft) (role : Role) (field : Option String) (number : Number) :
    LoadResult Unit :=
  match number with
  | .integer value =>
    outcome (draft.resolveIndex (min value Decimal.maxSigned) : LoadResult (Ref role))
  | .real =>
    .error (.of (.malformed (match field with
      | some name => .wrongType name .number .number
      | none => .unexpectedShape .number .number)))

variable {draft : Draft} {role : Role} {number : Number}

/-- A number is read as an index if it is an integer, and then resolved. -/
theorem outcome_refOfIndexNode :
    (draft.refOfIndexNode (.number number) : LoadResult (Ref role)).outcome =
      draft.readNumber role none number := by
  cases number <;> rfl

/-- A number in a field is read as an index, with the field as its path. -/
theorem outcome_readIndex {node : Node} {field : String}
    (present : node.field? field = some (.number number)) :
    (draft.readIndex node field : LoadResult (Ref role)).outcome =
      (draft.readNumber role (some field) number).within [.field field] := by
  have object : node.shape = .object := by
    cases node with
    | object entries => rfl
    | _ => cases present
  cases number with
  | integer value =>
      have read : node.readInt field = .ok (min value Decimal.maxSigned) :=
        Node.readInt_eq_ok_iff.mpr ⟨_, present, rfl⟩
      simp only [readIndex, read, readNumber]
      rw [← outcome_within]
      rfl
  | real =>
      have failed : node.readInt field = .error (.wrongType field .number .number) := by
        rw [Node.readInt, Node.field_eq_ok_iff.mpr present]
        rfl
      simp only [readIndex, failed, readNumber]
      rfl

end Draft

/-! ## Fields one after the other -/

section Fields

variable {α : Type} {fields : List (String × α)} {field : String} {reading : α}
  {run run' : String × α → LoadResult Unit}

/-- Where one of some fields is read in another way, all of them are read as that field is. -/
theorem forM_of_field (distinct : (fields.map Prod.fst).Nodup) (listed : (field, reading) ∈ fields)
    (worked : fields.forM run = .ok ())
    (others : ∀ other ∈ fields, other.1 ≠ field → run' other = run other) :
    fields.forM run' = run' (field, reading) := by
  obtain ⟨before, after, rfl⟩ := List.append_of_mem listed
  have all := forM_eq_ok_iff.mp worked
  simp only [List.map_append, List.map_cons, List.nodup_append, List.nodup_cons] at distinct
  obtain ⟨-, ⟨freshAfter, -⟩, freshBefore⟩ := distinct
  have first : before.forM run' = .ok () := by
    refine forM_eq_ok_iff.mpr fun other member => ?_
    have different : other.1 ≠ field :=
      freshBefore _ (List.mem_map_of_mem member) _ List.mem_cons_self
    rw [others other (by simp [member]) different, all other (by simp [member])]
  have last : after.forM run' = .ok () := by
    refine forM_eq_ok_iff.mpr fun other member => ?_
    have different : other.1 ≠ field := by
      rintro rfl
      exact freshAfter (List.mem_map_of_mem member)
    rw [others other (by simp [member]) different, all other (by simp [member])]
  simp only [List.forM_eq_forM] at first last ⊢
  rw [List.forM_append, first, ok_bind, List.forM_cons, last]
  cases run' (field, reading) <;> rfl

end Fields

namespace ItemReading

variable {draft : Draft} {node node' : Node} {field : String}

/-- A reading of an item depends on its own field alone. -/
theorem run_congr (reading : ItemReading) (shape : node.shape = node'.shape)
    (same : node.field? field = node'.field? field) :
    reading.run draft node field = reading.run draft node' field := by
  cases reading <;>
    simp only [run, Node.readString, Draft.readIndex, Node.readInt, Node.field_congr shape same]

/-- With a number in the place of an index, an item that was read fails as the number does. -/
theorem runAll_put {fields : List (String × ItemReading)}
    (distinct : (fields.map Prod.fst).Nodup) {role : Role} (listed : (field, index role) ∈ fields)
    (worked : runAll draft fields node = .ok ()) (number : Number) :
    runAll draft fields (node.put [.field field] (.number number)) =
      (draft.readNumber role (some field) number).within [.field field] := by
  have indexed := forM_eq_ok_iff.mp worked _ listed
  have found : ∃ value, node.get? field = some value := by
    simp only [run, outcome_eq_ok_iff, Draft.readIndex, bind_eq_ok_iff, liftRead_eq_ok_iff,
      Node.readInt_eq_ok_iff] at indexed
    obtain ⟨_, _, ⟨value, present, -⟩, -⟩ := indexed
    exact ⟨value, Node.get?_of_field? present⟩
  obtain ⟨value, found⟩ := found
  have there : (node.put [.field field] (.number number)).field? field = some (.number number) :=
    Node.field?_put_nil found fun same => by cases same
  rw [runAll, forM_of_field distinct listed worked]
  · exact Draft.outcome_readIndex there
  · intro other _ different
    exact run_congr other.2 (Node.shape_put_cons _ _ _ _)
      (Node.field?_put_of_ne node field [] (.number number) different)

end ItemReading

namespace FieldReading

variable {draft : Draft} {node node' : Node} {field : String}

/-- A reading of an entry depends on its own field alone. -/
theorem run_congr (reading : FieldReading) (shape : node.shape = node'.shape)
    (same : node.field? field = node'.field? field) :
    reading.run draft node field = reading.run draft node' field := by
  cases reading <;>
    simp only [run, Node.readString, Draft.readIndex, Node.readInt, Node.readArray,
      Draft.readIndex?, Draft.readIndexList, Draft.readIndexListOrEmpty, Draft.readKey,
      Draft.readKeyListOrEmpty, Node.readArrayOrEmpty, Node.readObjectOrEmpty, same,
      Node.field_congr shape same]

/-- An index of a role stands at the end of a path below a field. It is read with its holder, if it
is a required field of something, and otherwise by itself. -/
inductive HoldsIndex (field : String) : FieldReading → Path → Role → Option String → Prop
  | index (role : Role) : HoldsIndex field (.index role) [] role (some field)
  | index? (role : Role) : HoldsIndex field (.index? role) [] role none
  | indices (role : Role) (position : Nat) :
    HoldsIndex field (.indices role) [.index position] role none
  | indicesOrEmpty (role : Role) (position : Nat) :
    HoldsIndex field (.indicesOrEmpty role) [.index position] role none
  | items {fields : List (String × ItemReading)} {name : String} {role : Role}
    (listed : (name, .index role) ∈ fields) (position : Nat) :
    HoldsIndex field (.items fields) [.index position, .field name] role (some name)
  | methods (name : String) : HoldsIndex field .methods [.field name] (.only .signature) none

section Put

variable {old : Node} {role : Role} {position : Nat} {items : List Node}

/-- With a number at a position, a list of indices that was read fails as the number does. -/
theorem refs_put (here : items[position]? = some old)
    (worked : (LoadResult.atField field (forItems
      (fun item => (draft.refOfIndexNode item : LoadResult (Ref role))) 0 items)).outcome = .ok ())
    (number : Number) :
    (LoadResult.atField field (forItems
        (fun item => (draft.refOfIndexNode item : LoadResult (Ref role))) 0
        (items.modify position fun item => item.put [] (.number number)))).outcome =
      (draft.readNumber role none number).within [.field field, .index position] := by
  rw [LoadResult.atField, outcome_within, within_eq_ok_iff] at worked
  rw [LoadResult.atField, outcome_within, outcome_forItems_modify worked here, Node.put_nil,
    Draft.outcome_refOfIndexNode, within_within, Nat.zero_add]
  rfl

/-- With a number in a field of one of its items, a list that was read fails as the number does. -/
theorem items_put {fields : List (String × ItemReading)} (distinct : (fields.map Prod.fst).Nodup)
    {name : String} (listed : (name, .index role) ∈ fields) (here : items[position]? = some old)
    (worked : (LoadResult.atField field
      (forItems (ItemReading.runAll draft fields) 0 items)).outcome = .ok ()) (number : Number) :
    (LoadResult.atField field (forItems (ItemReading.runAll draft fields) 0
        (items.modify position fun item => item.put [.field name] (.number number)))).outcome =
      (draft.readNumber role (some name) number).within
        [.field field, .index position, .field name] := by
  rw [LoadResult.atField, outcome_within, within_eq_ok_iff] at worked
  obtain ⟨_, read⟩ := outcome_eq_ok_iff.mp worked
  obtain ⟨_, first⟩ :=
    exists_value_of_mapM (forItems_eq_ok_iff.mp read) (List.mem_of_getElem? here)
  rw [LoadResult.atField, outcome_within, outcome_forItems_modify worked here, outcome_unit,
    ItemReading.runAll_put distinct listed first, within_within, within_within, Nat.zero_add]
  rfl

/-- With a number behind a name, a map of methods that was read fails as the number does. -/
theorem methods_put {entries : List (String × Node)} {name : String}
    (found : entries.lookup name = some old)
    (worked : (LoadResult.atField field (entries.mapM (readMethodEntry draft))).outcome = .ok ())
    (number : Number) :
    (LoadResult.atField field ((Node.setEntry name (.number number) entries).mapM
        (readMethodEntry draft))).outcome =
      (draft.readNumber (.only .signature) none number).within [.field field, .field name] := by
  rw [LoadResult.atField, outcome_within, within_eq_ok_iff] at worked
  obtain ⟨_, worked⟩ := outcome_eq_ok_iff.mp worked
  have fails : (readMethodEntry draft (name, .number number)).outcome =
      (draft.readNumber (.only .signature) none number).within [.field name] := by
    rw [readMethodEntry, LoadResult.atField, outcome_within, ← Draft.outcome_refOfIndexNode]
    simp
  obtain ⟨before, after, rfl, fresh⟩ := Node.exists_split_of_lookup found
  have others : ∀ entry ∈ before ++ after, ∃ pair, readMethodEntry draft entry = .ok pair :=
    fun entry member => exists_value_of_mapM worked (by simp at member ⊢; tauto)
  rw [LoadResult.atField, outcome_within, Node.setEntry_append rfl fresh,
    show [Step.field field, Step.field name] = [.field field] ++ [.field name] from rfl,
    ← within_within, ← fails]
  congr 1
  cases first : readMethodEntry draft (name, .number number) with
  | ok pair =>
      rw [outcome_ok, outcome_eq_ok_iff]
      apply exists_mapM_eq_ok
      intro entry member
      rcases List.mem_append.mp member with earlier | rest
      · exact others entry (List.mem_append_left _ earlier)
      rcases List.mem_cons.mp rest with rfl | later
      · exact ⟨pair, first⟩
      · exact others entry (List.mem_append_right _ later)
  | error error =>
      rw [outcome_error, outcome_eq_error_iff, mapM_eq_error_iff]
      exact ⟨before, _, after, rfl,
        fun entry member => others entry (List.mem_append_left _ member), first⟩

end Put

/-- With a number in the place of an index, a field that was read fails as the number does. -/
theorem run_put {reading : FieldReading} {path : Path} {role : Role} {holder : Option String}
    (place : HoldsIndex field reading path role holder)
    (distinct : ∀ fields, reading = .items fields → (fields.map Prod.fst).Nodup) {old : Node}
    (leads : node.follow (.field field :: path) = some old)
    (worked : reading.run draft node field = .ok ()) (number : Number) :
    reading.run draft (node.put (.field field :: path) (.number number)) field =
      (draft.readNumber role holder number).within (.field field :: path) := by
  have single (below : path = []) :
      (node.put (.field field :: path) (.number number)).field? field = some (.number number) := by
    subst below
    obtain ⟨value, found, -⟩ := Option.bind_eq_some_iff.mp leads
    exact Node.field?_put_nil found nofun
  -- The field is a list with something at the position, and the list is changed there alone.
  have behind {position : Nat} {rest : Path} (below : path = .index position :: rest) :
      ∃ items item, node.field? field = some (.array items) ∧ items[position]? = some item ∧
        (node.put (.field field :: path) (.number number)).field? field =
          some (.array (items.modify position fun item => item.put rest (.number number))) := by
    subst below
    obtain ⟨items, item, present, here, -⟩ := Node.exists_items_of_follow leads
    refine ⟨items, item, present, here, ?_⟩
    rw [Node.field?_put_cons, present]
    rfl
  cases place with
  | index => exact Draft.outcome_readIndex (single rfl)
  | index? =>
      rw [run, Draft.readIndex?, single rfl]
      change (LoadResult.atField _ _).outcome = _
      rw [LoadResult.atField, outcome_within, outcome_map, Draft.outcome_refOfIndexNode]
  | indices _ position =>
      obtain ⟨items, item, present, here, changed⟩ := behind rfl
      have list := Node.readArray_eq_ok_iff.mpr ⟨_, present, rfl⟩
      have list' := Node.readArray_eq_ok_iff.mpr ⟨_, changed, rfl⟩
      rw [run, Draft.readIndexList, list] at worked
      rw [run, Draft.readIndexList, list']
      exact refs_put here worked number
  | indicesOrEmpty _ position =>
      obtain ⟨items, item, present, here, changed⟩ := behind rfl
      rw [run, Draft.readIndexListOrEmpty, present] at worked
      rw [run, Draft.readIndexListOrEmpty, changed]
      exact refs_put here worked number
  | items listed position =>
      obtain ⟨items, item, present, here, changed⟩ := behind rfl
      have list := Node.readArrayOrEmpty_eq_ok_iff.mpr (.inr present)
      have list' := Node.readArrayOrEmpty_eq_ok_iff.mpr (.inr changed)
      rw [run, list] at worked
      rw [run, list']
      exact items_put (distinct _ rfl) listed here worked number
  | methods name =>
      obtain ⟨value, found, below⟩ := Option.bind_eq_some_iff.mp leads
      obtain ⟨_, inside, -⟩ := Option.bind_eq_some_iff.mp below
      cases value with
      | object entries =>
          rw [Node.get?] at inside
          have present : node.field? field = some (.object entries) := by
            rw [Node.field?, found]
            rfl
          have changed : (node.put [.field field, .field name] (.number number)).field? field =
              some (.object (Node.setEntry name (.number number) entries)) := by
            rw [Node.field?_put_cons, present, Option.map_some, Node.put, inside]
            simp only [Node.put_nil]
          have map := Node.readObjectOrEmpty_eq_ok_iff.mpr (.inr present)
          have map' := Node.readObjectOrEmpty_eq_ok_iff.mpr (.inr changed)
          rw [run, map] at worked
          rw [run, map']
          exact methods_put inside worked number
      | _ => cases inside

end FieldReading

namespace Kind

variable {draft : Draft} {kind : Kind} {node : Node} {field : String}

/-- An entry reads each of its fields once. -/
theorem distinct_readings (kind : Kind) : (kind.readings.map Prod.fst).Nodup := by
  cases kind <;> decide

/-- An item reads each of its fields once. -/
theorem distinct_items {fields : List (String × ItemReading)}
    (listed : (field, .items fields) ∈ kind.readings) : (fields.map Prod.fst).Nodup := by
  have one : fields = ItemReading.ofArgument ∨ fields = ItemReading.ofField ∨
      fields = ItemReading.ofAbstract := by
    cases kind <;> simp [readings] at listed <;> grind
  rcases one with rfl | rfl | rfl <;> decide

/-- With a number in the place of an index, an entry that was read fails as the number does. -/
theorem runAll_put {reading : FieldReading} (listed : (field, reading) ∈ kind.readings)
    {path : Path} {role : Role} {holder : Option String}
    (place : reading.HoldsIndex field path role holder) {old : Node}
    (leads : node.follow (.field field :: path) = some old)
    (worked : kind.runAll draft node = .ok ()) (number : Number) :
    kind.runAll draft (node.put (.field field :: path) (.number number)) =
      (draft.readNumber role holder number).within (.field field :: path) := by
  have distinct : ∀ fields, reading = .items fields → (fields.map Prod.fst).Nodup := by
    rintro fields rfl
    exact distinct_items listed
  rw [runAll, forM_of_field kind.distinct_readings listed worked]
  · exact FieldReading.run_put place distinct leads (forM_eq_ok_iff.mp worked _ listed) number
  · intro other _ different
    exact other.2.run_congr (Node.shape_put_cons _ _ _ _)
      (Node.field?_put_of_ne node field path (.number number) different)

end Kind

end CodeGraph

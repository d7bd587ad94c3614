import CodeGraph.Document.Reading
import CodeGraph.Proofs.Outcome

/-! # What typed reads find

A required read takes a view of a field's value; it finds what the view sees of a value that is
there, and fails for one of three reasons. An optional list is empty where its field is absent, and
is otherwise read like a required one.
-/

namespace CodeGraph.Node

variable {node : Node} {name : String} {expected : Shape}

/-- A field that is there stands under its name. -/
theorem get?_of_field? {value : Node} (present : node.field? name = some value) :
    node.get? name = some value :=
  (Option.filter_eq_some_iff.mp present).1

/-- What stands under a name is among the entries of the object. -/
theorem mem_entries_of_get? {value : Node} (found : node.get? name = some value) :
    (name, value) ∈ node.entries := by
  cases node with
  | object entries =>
      obtain ⟨before, after, split, -⟩ := List.lookup_eq_some_iff.mp found
      rw [Node.entries, split]
      exact List.mem_append_right _ List.mem_cons_self
  | _ => cases found

/-- A field that is there is among the entries of the object. -/
theorem mem_entries_of_field? {value : Node} (present : node.field? name = some value) :
    (name, value) ∈ node.entries :=
  mem_entries_of_get? (get?_of_field? present)

/-- A field is found if it is there and not null. -/
theorem field_eq_ok_iff {value : Node} :
    node.field name = .ok value ↔ node.field? name = some value := by
  cases node with
  | object entries =>
      unfold field
      cases (object entries).field? name <;> simp
  | _ => simp [field, field?, get?]

/-- What comes of looking for a field: its value, or one of two complaints. -/
theorem field_eq (node : Node) (name : String) :
    node.field name =
      if node.shape = .object then
        match node.field? name with
        | some value => .ok value
        | none => .error (.missingField name)
      else .error (.notAnObject node.shape) := by
  cases node <;> rfl

/-- Looking for a field depends on the shape of the node and on this field alone. -/
theorem field_congr {node' : Node} (shape : node.shape = node'.shape)
    (same : node.field? name = node'.field? name) : node.field name = node'.field name := by
  rw [field_eq, field_eq, shape, same]

section Views

variable {α : Type} {view : Node → Option α}

/-- A value is read as what its view makes of it. -/
theorem viewField_eq_ok_iff {value : Node} {seen : α} :
    viewField name expected view value = .ok seen ↔ view value = some seen := by
  unfold viewField
  cases view value <;> simp

/-- A required field is read if it is there and has the right shape. -/
theorem required_eq_ok_iff {seen : α} :
    (node.field name >>= viewField name expected view) = .ok seen ↔
      ∃ value, node.field? name = some value ∧ view value = some seen := by
  simp only [bind_eq_ok_iff, field_eq_ok_iff, viewField_eq_ok_iff]

/-- A value of the wrong shape is blamed with the shape it has. -/
theorem viewField_eq_error {value : Node} {error : ReadError}
    (failed : viewField name expected view value = .error error) :
    error = .wrongType name expected value.shape := by
  unfold viewField at failed
  cases seen : view value <;> simp_all

/-- A required field is missed in three ways: in no object, by absence, and by its shape. -/
theorem required_eq_error {error : ReadError}
    (failed : (node.field name >>= viewField name expected view) = .error error) :
    error = .notAnObject node.shape ∨
      (node.shape = .object ∧ node.field? name = none ∧ error = .missingField name) ∨
      ∃ value, node.field? name = some value ∧ error = .wrongType name expected value.shape := by
  cases present : node.field? name with
  | some value =>
      rw [field_eq_ok_iff.mpr present, ok_bind] at failed
      exact .inr (.inr ⟨value, rfl, viewField_eq_error failed⟩)
  | none =>
      cases node with
      | object entries =>
          simp only [field, present, error_bind, Except.error.injEq] at failed
          exact .inr (.inl ⟨rfl, rfl, failed.symm⟩)
      | _ =>
          cases failed
          exact .inl rfl

end Views

/-- A required text is read if the field holds a text. -/
theorem readString_eq_ok_iff {text : String} :
    node.readString name = .ok text ↔
      ∃ value, node.field? name = some value ∧ value.string? = some text :=
  required_eq_ok_iff

theorem readInt_eq_ok_iff {index : Int} :
    node.readInt name = .ok index ↔
      ∃ value, node.field? name = some value ∧ value.int? = some index :=
  required_eq_ok_iff

/-- A required list is read if the field holds a list. -/
theorem readArray_eq_ok_iff {items : List Node} :
    node.readArray name = .ok items ↔
      ∃ value, node.field? name = some value ∧ value.items? = some items :=
  required_eq_ok_iff

/-- Only lists have items. -/
theorem items?_eq_some_iff {items : List Node} : node.items? = some items ↔ node = array items := by
  cases node <;> simp [items?]

/-- Only texts can be seen as a text. -/
theorem string?_eq_some_iff {text : String} : node.string? = some text ↔ node = string text := by
  cases node <;> simp [string?]

/-- Only objects can be seen as an object. -/
theorem object?_eq_some_iff {entries : List (String × Node)} :
    node.object? = some entries ↔ node = object entries := by
  cases node <;> simp [object?]

/-- An optional list is empty where the field is absent, and otherwise what the field lists. -/
theorem readArrayOrEmpty_eq_ok_iff {items : List Node} :
    node.readArrayOrEmpty name = .ok items ↔
      (node.field? name = none ∧ items = []) ∨ node.field? name = some (array items) := by
  unfold readArrayOrEmpty
  cases node.field? name with
  | none => simp [eq_comm]
  | some value => simp [viewField_eq_ok_iff, items?_eq_some_iff]

/-- An optional object is empty where the field is absent, and otherwise what the field holds. -/
theorem readObjectOrEmpty_eq_ok_iff {entries : List (String × Node)} :
    node.readObjectOrEmpty name = .ok entries ↔
      (node.field? name = none ∧ entries = []) ∨ node.field? name = some (object entries) := by
  unfold readObjectOrEmpty
  cases node.field? name with
  | none => simp [eq_comm]
  | some value => simp [viewField_eq_ok_iff, object?_eq_some_iff]

/-- An integer is expected where one can be seen. -/
theorem expectInt_eq_ok_iff {index : Int} :
    node.expectInt = .ok index ↔ node.int? = some index := by
  unfold expectInt
  cases node.int? <;> simp

/-- A text is expected where there is one. -/
theorem expectString_eq_ok_iff {text : String} :
    node.expectString = .ok text ↔ node = string text := by
  cases node <;> simp [expectString, string?]

/-- A list is expected where there is one. -/
theorem expectArray_eq_ok_iff {items : List Node} :
    node.expectArray = .ok items ↔ node = array items := by
  cases node <;> simp [expectArray, items?]

end CodeGraph.Node

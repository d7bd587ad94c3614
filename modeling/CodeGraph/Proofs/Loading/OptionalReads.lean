import CodeGraph.Draft.Reading
import CodeGraph.Proofs.Document.Reading

/-! # Optional and required reads

An optional read takes the same view of a field as the required one, and differs from it in what it
makes of failures. Scalars have a default for every failure, lists only for a field that is absent.
A reference whose field is there is read as if it were required, except that a value of the wrong
shape is complained about in other words (`CodeGraph.Node.optional_reads_agree`).
-/

namespace CodeGraph

/-- What a list comes to that need not be there: it is empty where a required one would be
missed. -/
def ReadError.orEmpty {α : Type} : Except ReadError (List α) → Except ReadError (List α)
  | .error (.missingField _) | .error (.notAnObject _) => .ok []
  | result => result

/-- Changing a value that was read from a field does not change the path of an error. -/
theorem LoadResult.atField_map {α β : Type} (f : α → β) (field : String)
    (result : LoadResult α) : atField field (f <$> result) = f <$> result.atField field := by
  cases result <;> rfl

namespace Node

/-- A node has no value in a field: it is no object, or the field is absent or null. -/
def Lacks (node : Node) (field : String) : Prop :=
  node.shape ≠ .object ∨ node.get? field = none ∨ node.get? field = some .null

variable {α : Type} {node value : Node} {field : String}

/-- A field is lacking if there is none that is not null. -/
theorem lacks_iff : node.Lacks field ↔ node.field? field = none := by
  unfold Lacks field?
  cases node with
  | object entries =>
      cases (object entries).get? field with
      | none => simp [shape]
      | some value => cases value <;> simp [shape, Option.filter]
  | _ => simp [get?, shape]

/-- A required field that is lacking is missed, or what should have it is no object. -/
theorem field_of_lacking (lacking : node.field? field = none) :
    node.field field = .error (.missingField field) ∨
      node.field field = .error (.notAnObject node.shape) := by
  rw [field_eq, lacking]
  split
  · exact .inl rfl
  · exact .inr rfl

/-! ## Scalars and lists -/

section Views

variable {view : Node → Option α} {expected : Shape}

/-- A value is read where its view makes something of it. -/
theorem toOption_viewField :
    (viewField field expected view value).toOption = view value := by
  unfold viewField
  cases view value <;> rfl

/-- A required field is read where it is there and can be viewed. -/
theorem toOption_required :
    (node.field field >>= viewField field expected view).toOption =
      (node.field? field).bind view := by
  cases present : node.field? field with
  | some value =>
      rw [field_eq_ok_iff.mpr present]
      exact toOption_viewField
  | none => rcases field_of_lacking present with failed | failed <;> rw [failed] <;> rfl

/-- A field of the wrong shape is no matter of absence. -/
theorem orEmpty_viewField {view : Node → Option (List α)} :
    ReadError.orEmpty (viewField field expected view value) =
      viewField field expected view value := by
  unfold viewField
  cases view value <;> rfl

/-- Where absence counts as empty, a list is empty if its field is absent and read otherwise. -/
theorem orEmpty_required {view : Node → Option (List α)} :
    ReadError.orEmpty (node.field field >>= viewField field expected view) =
      match node.field? field with
      | some value => viewField field expected view value
      | none => .ok [] := by
  cases present : node.field? field with
  | some value =>
      rw [field_eq_ok_iff.mpr present]
      exact orEmpty_viewField
  | none => rcases field_of_lacking present with failed | failed <;> rw [failed] <;> rfl

end Views

/-! ## References -/

/-- Two readings of a field that fail over the shape of its value. -/
def BothMisshapen {α β : Type} (field : String) (first : LoadResult α) (second : LoadResult β) :
    Prop :=
  ∃ complaint other, first = .error ⟨[.field field], .malformed complaint⟩ ∧
    second = .error ⟨[.field field], .malformed other⟩

section References

variable {draft : Draft} {role : Role} (present : node.field? field = some value)
include present

/-- A required index that is there is viewed and resolved. -/
theorem readIndex_of_present :
    (draft.readIndex node field : LoadResult (Ref role)) =
      liftM (viewField field .number int? value) >>= fun index =>
        LoadResult.atField field (draft.resolveIndex index) := by
  unfold Draft.readIndex readInt
  rw [field_eq_ok_iff.mpr present]
  rfl

/-- An optional index that is there is resolved. -/
theorem readIndex?_of_present :
    (draft.readIndex? node field : LoadResult (Option (Ref role))) =
      LoadResult.atField field (some <$> draft.refOfIndexNode value) := by
  unfold Draft.readIndex?
  rw [present]

/-- A required list that is there is viewed and resolved item by item. -/
theorem readIndexList_of_present :
    (draft.readIndexList node field : LoadResult (List (Ref role))) =
      liftM (viewField field .array items? value) >>= fun items =>
        LoadResult.atField field (LoadResult.forItems draft.refOfIndexNode 0 items) := by
  unfold Draft.readIndexList readArray
  rw [field_eq_ok_iff.mpr present]
  rfl

/-- An optional list that is there is resolved item by item. -/
theorem readIndexListOrEmpty_of_present :
    (draft.readIndexListOrEmpty node field : LoadResult (List (Ref role))) =
      LoadResult.atField field (Draft.refsOfListNode draft.refOfIndexNode value) := by
  unfold Draft.readIndexListOrEmpty
  rw [present]

/-- An integer is resolved as an optional index as it is as a required one. -/
theorem readIndex?_of_integer {index : Int} (integer : value.int? = some index) :
    (draft.readIndex? node field : LoadResult (Option (Ref role))) =
      some <$> draft.readIndex node field := by
  have spelled : (draft.refOfIndexNode value : LoadResult (Ref role)) =
      draft.resolveIndex index := by
    unfold Draft.refOfIndexNode
    rw [expectInt_eq_ok_iff.mpr integer]
    rfl
  rw [readIndex?_of_present present, readIndex_of_present present, spelled,
    viewField_eq_ok_iff.mpr integer]
  exact LoadResult.atField_map some field (draft.resolveIndex index)

/-- Both reads of an index complain about what is no integer. -/
theorem bothMisshapen_index (other : value.int? = none) :
    BothMisshapen field (draft.readIndex node field : LoadResult (Ref role))
      (draft.readIndex? node field : LoadResult (Option (Ref role))) := by
  rw [readIndex?_of_present present, readIndex_of_present present]
  unfold viewField Draft.refOfIndexNode expectInt
  rw [other]
  exact ⟨_, _, rfl, rfl⟩

/-- A list is resolved item by item, whether it had to be there or not. -/
theorem readIndexListOrEmpty_of_items {items : List Node} (list : value.items? = some items) :
    (draft.readIndexListOrEmpty node field : LoadResult (List (Ref role))) =
      draft.readIndexList node field := by
  rw [readIndexListOrEmpty_of_present present, readIndexList_of_present present,
    viewField_eq_ok_iff.mpr list, Draft.refsOfListNode, expectArray, list]
  rfl

/-- Both reads of a list complain about what is no list. -/
theorem bothMisshapen_list (other : value.items? = none) :
    BothMisshapen field (draft.readIndexList node field : LoadResult (List (Ref role)))
      (draft.readIndexListOrEmpty node field : LoadResult (List (Ref role))) := by
  rw [readIndexListOrEmpty_of_present present, readIndexList_of_present present]
  unfold viewField Draft.refsOfListNode expectArray
  rw [other]
  exact ⟨_, _, rfl, rfl⟩

end References

/-- **Optional reads agree with required ones.** Optional scalars are what is required, or the
default where that fails. Optional lists are what is required, or empty where nothing is there.
Optional references are nothing where nothing is there and required ones fail. Where there is a
value, both give the same references or the same error, unless the value has the wrong shape: then
both errors say so, at the same place. -/
theorem optional_reads_agree (node : Node) (field : String) :
    node.optionalString field = (node.readString field).toOption.getD "" ∧
    node.optionalBool field = (node.readBool field).toOption.getD false ∧
    node.optionalInt field = (node.readInt field).toOption.getD 0 ∧
    node.readArrayOrEmpty field = ReadError.orEmpty (node.readArray field) ∧
    node.readObjectOrEmpty field = ReadError.orEmpty (node.readObject field) ∧
    ∀ (draft : Draft) (role : Role),
      let required : LoadResult (Ref role) := draft.readIndex node field
      let optional : LoadResult (Option (Ref role)) := draft.readIndex? node field
      let requiredList : LoadResult (List (Ref role)) := draft.readIndexList node field
      let optionalList : LoadResult (List (Ref role)) := draft.readIndexListOrEmpty node field
      (node.Lacks field → optional = .ok none ∧ optionalList = .ok [] ∧
        (∃ error, required = .error error) ∧ ∃ error, requiredList = .error error) ∧
      (¬ node.Lacks field → ∃ value, node.get? field = some value ∧
        (value.int? ≠ none → optional = some <$> required) ∧
        (value.int? = none → BothMisshapen field required optional) ∧
        (value.items? ≠ none → optionalList = requiredList) ∧
        (value.items? = none → BothMisshapen field requiredList optionalList)) := by
  refine ⟨?_, ?_, ?_, orEmpty_required.symm, orEmpty_required.symm, ?_⟩
  · rw [readString, toOption_required, optionalString]
  · rw [readBool, toOption_required, optionalBool]
  · rw [readInt, toOption_required, optionalInt]
  intro draft role required optional requiredList optionalList
  constructor
  · intro lacking
    have lacking := lacks_iff.mp lacking
    refine ⟨?_, ?_, ?_, ?_⟩
    · simp only [optional, Draft.readIndex?, lacking]
      rfl
    · simp only [optionalList, Draft.readIndexListOrEmpty, lacking]
      rfl
    all_goals
      simp only [required, requiredList, Draft.readIndex, Draft.readIndexList, readInt, readArray]
      rcases field_of_lacking lacking with failed | failed <;> rw [failed] <;> exact ⟨_, rfl⟩
  · intro present
    rw [lacks_iff] at present
    obtain ⟨value, present⟩ := Option.ne_none_iff_exists'.mp present
    refine ⟨value, get?_of_field? present, ?_, bothMisshapen_index present, ?_,
      bothMisshapen_list present⟩
    · intro integer
      obtain ⟨index, integer⟩ := Option.ne_none_iff_exists'.mp integer
      exact readIndex?_of_integer present integer
    · intro list
      obtain ⟨items, list⟩ := Option.ne_none_iff_exists'.mp list
      exact readIndexListOrEmpty_of_items present list

/-- An instance whose receiver is spelled out, whose second type argument is out of range, and that
resolves to nothing. -/
def sampleInst : Node :=
  .object [("receiver", .string "List"), ("resolved", .null),
    ("typeArgs", .array [.number (.integer 1), .number (.integer 9)])]

/-- The receiver of that instance has the wrong shape, what it resolves to is lacking, and its type
arguments fail at the second of them. -/
theorem optional_reads_agree_sample :
    let draft := Draft.compose [⟨.basic, some "int"⟩] ⟨[0], [], [], [], []⟩
    (sampleInst.Lacks "resolved" ∧
      (draft.readIndex? sampleInst "resolved" : LoadResult (Option SignatureRef)) = .ok none) ∧
    (¬ sampleInst.Lacks "receiver" ∧
      BothMisshapen "receiver" (draft.readIndex sampleInst "receiver" : LoadResult ObjectInstRef)
        (draft.readIndex? sampleInst "receiver" : LoadResult (Option ObjectInstRef))) ∧
    ¬ sampleInst.Lacks "typeArgs" ∧
      (draft.readIndexListOrEmpty sampleInst "typeArgs" : LoadResult (List TypeRef)) =
        .error ⟨[.field "typeArgs", .index 1], .indexOutOfRange 9 .types 1⟩ := by
  intro draft
  obtain ⟨-, -, -, -, -, resolved⟩ := optional_reads_agree sampleInst "resolved"
  obtain ⟨-, -, -, -, -, receiver⟩ := optional_reads_agree sampleInst "receiver"
  obtain ⟨-, -, -, -, -, typeArgs⟩ := optional_reads_agree sampleInst "typeArgs"
  have lacking : sampleInst.Lacks "resolved" := .inr (.inr rfl)
  have spelled : ¬ sampleInst.Lacks "receiver" := by rw [lacks_iff]; exact nofun
  have listed : ¬ sampleInst.Lacks "typeArgs" := by rw [lacks_iff]; exact nofun
  obtain ⟨_, found, -, misshapen, -⟩ := (receiver draft (.only .objectInst)).2 spelled
  cases found
  obtain ⟨_, found, -, -, same, -⟩ := (typeArgs draft .anyType).2 listed
  cases found
  refine ⟨⟨lacking, ((resolved draft (.only .signature)).1 lacking).1⟩, ⟨spelled, misshapen rfl⟩,
    listed, ?_⟩
  exact (same nofun).trans rfl

end Node

end CodeGraph

import CodeGraph.Proofs.Document.Paths
import CodeGraph.Proofs.Document.Reading
import CodeGraph.Proofs.Loading.Places

/-! # What a failing load complains about

Each complaint of a reader is about the node it reads or about a node below it, and its path grows
by one step wherever it passes from a node to the node above (`CodeGraph.Node.Faulty`). All readers
of constructs keep to that (`CodeGraph.Construct.ofNode_blames`), as long as an entry is read as a
kind that can stand where the entry stands (`CodeGraph.Placement.Suits`).
-/

namespace CodeGraph

namespace Node

/-- What may be complained about at a node, with the path from the node. `refuses` says what may be
wrong with a node as a reference. -/
inductive Fault (refuses : Node → LoadError.Cause → Prop) : Node → LoadError → Prop
  | missing {node : Node} {name : String} (object : node.shape = .object)
    (absent : node.field? name = none) : Fault refuses node ⟨[.field name], .missingField name⟩
  | mistyped {node value : Node} {name : String} (expected : Shape)
    (present : node.field? name = some value) :
    Fault refuses node ⟨[.field name], .malformed (.wrongType name expected value.shape)⟩
  | noObject (node : Node) : Fault refuses node (.of (.malformed (.notAnObject node.shape)))
  | noArray (node : Node) : Fault refuses node (.of (.malformed (.notAnArray node.shape)))
  | misshapen (node : Node) (expected : Shape) :
    Fault refuses node (.of (.malformed (.unexpectedShape expected node.shape)))
  | refused {node : Node} {cause : LoadError.Cause} (refused : refuses node cause) :
    Fault refuses node (.of cause)

/-- What may be complained about at a node or below it. -/
inductive Faulty (refuses : Node → LoadError.Cause → Prop) : Node → LoadError → Prop
  | here {node : Node} {error : LoadError} (fault : Fault refuses node error) :
    Faulty refuses node error
  | entry {node value : Node} {name : String} {error : LoadError}
    (member : (name, value) ∈ node.entries) (inner : Faulty refuses value error) :
    Faulty refuses node (error.within [.field name])
  | item {items : List Node} {position : Nat} {item : Node} {error : LoadError}
    (here : items[position]? = some item) (inner : Faulty refuses item error) :
    Faulty refuses (array items) (error.within [.index position])

/-- A fault remains one if more is refused. -/
theorem Fault.imp {refuses refuses' : Node → LoadError.Cause → Prop} {node : Node}
    {error : LoadError} (weaker : ∀ node cause, refuses node cause → refuses' node cause)
    (fault : Fault refuses node error) : Fault refuses' node error := by
  cases fault with
  | missing object absent => exact .missing object absent
  | mistyped expected present => exact .mistyped expected present
  | noObject => exact .noObject node
  | noArray => exact .noArray node
  | misshapen expected => exact .misshapen node expected
  | refused refused => exact .refused (weaker _ _ refused)

/-- What is faulty remains so if more is refused. -/
theorem Faulty.imp {refuses refuses' : Node → LoadError.Cause → Prop} {node : Node}
    {error : LoadError} (weaker : ∀ node cause, refuses node cause → refuses' node cause)
    (faulty : Faulty refuses node error) : Faulty refuses' node error := by
  induction faulty with
  | here fault => exact .here (fault.imp weaker)
  | entry member _ ih => exact .entry member ih
  | item here _ ih => exact .item here ih

/-- A complaint about a node is one about every node on the way to it. -/
theorem Faulty.of_follow {refuses : Node → LoadError.Cause → Prop} {root node : Node} {path : Path}
    (leads : root.follow path = some node) {error : LoadError}
    (faulty : Faulty refuses node error) :
    Faulty refuses root (error.within path) := by
  induction path generalizing root with
  | nil =>
      cases leads
      exact faulty
  | cons step rest ih =>
      cases step with
      | field name =>
          obtain ⟨value, found, leads⟩ := Option.bind_eq_some_iff.mp leads
          exact .entry (mem_entries_of_get? found) (ih leads)
      | index position =>
          rw [follow, Option.bind_eq_some_iff] at leads
          obtain ⟨item, found, leads⟩ := leads
          cases root with
          | array items => exact .item found (ih leads)
          | _ => cases found

end Node

/-- Every failure of a result is a complaint about a node or about one below it. -/
def LoadResult.Blames {α : Type} (refuses : Node → LoadError.Cause → Prop) (node : Node)
    (result : LoadResult α) : Prop :=
  ∀ error, result = .error error → node.Faulty refuses error

namespace LoadResult

variable {α β : Type} {refuses : Node → LoadError.Cause → Prop} {node : Node} {field : String}

theorem Blames.pure (value : α) : Blames refuses node (pure value) :=
  FailsWith.pure value

/-- Two steps blame the same node if each of them does. -/
theorem Blames.bind {result : LoadResult α} {next : α → LoadResult β}
    (first : Blames refuses node result)
    (later : ∀ value, result = .ok value → Blames refuses node (next value)) :
    Blames refuses node (result >>= next) :=
  FailsWith.bind first later

theorem Blames.map {result : LoadResult α} (f : α → β) (blames : Blames refuses node result) :
    Blames refuses node (f <$> result) :=
  FailsWith.map f blames

/-- What blames the value of a field blames the field of its node. -/
theorem Blames.atField {value : Node} {result : LoadResult α}
    (member : (field, value) ∈ node.entries) (inner : Blames refuses value result) :
    Blames refuses node (result.atField field) := by
  intro error failed
  obtain ⟨cause, below, rfl⟩ := mapError_eq_error_iff.mp failed
  exact .entry member (inner cause below)

/-- What blames a node blames the place where the node stands. -/
theorem Blames.within {path : Path} {root : Node} {result : LoadResult α}
    (leads : root.follow path = some node) (inner : Blames refuses node result) :
    Blames refuses root (result.within path) := by
  intro error failed
  obtain ⟨cause, below, rfl⟩ := mapError_eq_error_iff.mp failed
  exact (inner cause below).of_follow leads

/-- Steps in a row blame a node if the step of each item does. -/
theorem Blames.mapM {γ : Type} {items : List γ} {read : γ → LoadResult β}
    (each : ∀ item ∈ items, Blames refuses node (read item)) :
    Blames refuses node (items.mapM read) :=
  FailsWith.mapM each

/-- A list that is worked through fails as one of its items does. -/
theorem forItems_eq_error {read : Node → LoadResult β} {position : Nat} {items : List Node}
    {error : LoadError} (failed : forItems read position items = .error error) :
    ∃ offset item cause, items[offset]? = some item ∧ read item = .error cause ∧
      error = cause.within [.index (position + offset)] := by
  induction items generalizing position with
  | nil => cases failed
  | cons first rest ih =>
      rw [forItems] at failed
      cases atFirst : read first with
      | error cause =>
          rw [atFirst] at failed
          cases failed
          exact ⟨0, first, cause, rfl, atFirst, rfl⟩
      | ok value =>
          cases later : forItems read (position + 1) rest with
          | ok values =>
              rw [atFirst, later] at failed
              cases failed
          | error cause =>
              rw [atFirst, later] at failed
              cases failed
              obtain ⟨offset, item, inner, here, below, rfl⟩ := ih later
              exact ⟨offset + 1, item, inner, here, below, by rw [Nat.add_right_comm]; rfl⟩

/-- What blames the items blames their positions in the list. -/
theorem Blames.forItems {read : Node → LoadResult β} (items : List Node)
    (each : ∀ item ∈ items, Blames refuses item (read item)) :
    Blames refuses (.array items) (forItems read 0 items) := by
  intro error failed
  obtain ⟨offset, item, cause, here, below, rfl⟩ := forItems_eq_error failed
  rw [Nat.zero_add]
  exact .item here (each item (List.mem_of_getElem? here) cause below)

/-! ## Typed reads -/

/-- A required field is blamed for its absence or its shape. -/
theorem required_blames {view : Node → Option α} {expected : Shape} :
    Blames refuses node
      (liftM (node.field field >>= Node.viewField field expected view) : LoadResult α) := by
  intro error failed
  obtain ⟨cause, unread, rfl⟩ := mapError_eq_error_iff.mp failed
  rcases Node.required_eq_error unread with rfl | ⟨object, absent, rfl⟩ | ⟨value, present, rfl⟩
  · exact .here (.noObject node)
  · exact .here (.missing object absent)
  · exact .here (.mistyped expected present)

/-- A required text that cannot be read is blamed. -/
theorem readString_blames :
    Blames refuses node (liftM (node.readString field) : LoadResult String) :=
  required_blames

/-- An optional list is blamed for its shape. -/
theorem readArrayOrEmpty_blames :
    Blames refuses node (liftM (node.readArrayOrEmpty field) : LoadResult (List Node)) := by
  intro error failed
  obtain ⟨cause, unread, rfl⟩ := mapError_eq_error_iff.mp failed
  unfold Node.readArrayOrEmpty at unread
  split at unread
  · rename_i value present
    cases Node.viewField_eq_error unread
    exact .here (.mistyped _ present)
  · cases unread

/-- An optional object is blamed for its shape. -/
theorem readObjectOrEmpty_blames :
    Blames refuses node (liftM (node.readObjectOrEmpty field) : LoadResult _) := by
  intro error failed
  obtain ⟨cause, unread, rfl⟩ := mapError_eq_error_iff.mp failed
  unfold Node.readObjectOrEmpty at unread
  split at unread
  · rename_i value present
    cases Node.viewField_eq_error unread
    exact .here (.mistyped _ present)
  · cases unread

/-- What is not a list is blamed where a list is expected. -/
theorem expectArray_blames : Blames refuses node (liftM node.expectArray : LoadResult _) := by
  intro error failed
  obtain ⟨cause, unread, rfl⟩ := mapError_eq_error_iff.mp failed
  unfold Node.expectArray at unread
  split at unread <;> cases unread
  exact .here (.noArray node)

/-- What is not an integer is blamed where an integer is expected. -/
theorem expectInt_blames : Blames refuses node (liftM node.expectInt : LoadResult _) := by
  intro error failed
  obtain ⟨cause, unread, rfl⟩ := mapError_eq_error_iff.mp failed
  unfold Node.expectInt at unread
  split at unread <;> cases unread
  exact .here (.misshapen node .number)

/-- What is not a text is blamed where a text is expected. -/
theorem expectString_blames : Blames refuses node (liftM node.expectString : LoadResult _) := by
  intro error failed
  obtain ⟨cause, unread, rfl⟩ := mapError_eq_error_iff.mp failed
  unfold Node.expectString at unread
  split at unread <;> cases unread
  exact .here (.misshapen node .string)

/-- A read of a node succeeds as part of a load with the same value. -/
theorem liftRead_eq_ok_iff {result : Except ReadError α} {value : α} :
    (liftM result : LoadResult α) = .ok value ↔ result = .ok value :=
  mapError_eq_ok_iff

end LoadResult

open LoadResult

namespace Draft

/-- A node that has the shape of an index or of a key, but leads nowhere. Only methods are referred
to by key. -/
inductive Refuses (draft : Draft) : Node → LoadError.Cause → Prop
  | index {role : Role} {node : Node} {index : Int} {cause : LoadError.Cause}
    (integer : node.int? = some index)
    (unresolved : (draft.resolveIndex index : LoadResult (Ref role)) = .error (.of cause)) :
    Refuses draft node cause
  | key {text : String} {cause : LoadError.Cause}
    (unresolved : (draft.resolveKey text : LoadResult MethodDeclRef) = .error (.of cause)) :
    Refuses draft (.string text) cause

variable {draft : Draft} {role : Role} {node : Node} {field : String}

/-- An index fails without a path of its own. -/
theorem resolveIndex_eq_error {index : Int} {error : LoadError}
    (failed : (draft.resolveIndex index : LoadResult (Ref role)) = .error error) :
    ∃ cause, error = .of cause := by
  unfold resolveIndex at failed
  simp only at failed
  split at failed
  · cases failed
    exact ⟨_, rfl⟩
  · rename_i id _
    cases known : draft.kind id with
    | error fault =>
        rw [known] at failed
        cases failed
        exact ⟨_, rfl⟩
    | ok kind =>
        rw [known, liftBounds_ok, ok_bind] at failed
        split at failed
        · cases failed
        · cases failed
          exact ⟨_, rfl⟩

/-- A key fails without a path of its own. -/
theorem resolveKey_eq_error {text : String} {error : LoadError}
    (failed : (draft.resolveKey text : LoadResult (Ref role)) = .error error) :
    ∃ cause, error = .of cause := by
  unfold resolveKey Key.parse at failed
  cases parsed : Key.parse? text with
  | none =>
      rw [parsed] at failed
      cases failed
      exact ⟨_, rfl⟩
  | some key =>
      simp only [parsed, ok_bind] at failed
      split at failed
      · cases failed
        exact ⟨_, rfl⟩
      · split at failed
        · cases failed
          exact ⟨_, rfl⟩
        · exact resolveIndex_eq_error failed

/-- An index that leads nowhere is refused at the node that holds it. -/
theorem resolveIndex_blames {index : Int} (integer : node.int? = some index) :
    Blames draft.Refuses node (draft.resolveIndex index : LoadResult (Ref role)) := by
  intro error failed
  obtain ⟨cause, rfl⟩ := resolveIndex_eq_error failed
  exact .here (.refused (.index integer failed))

/-- A key that leads nowhere is refused at the text that spells it. -/
theorem resolveKey_blames (text : String) :
    Blames draft.Refuses (.string text) (draft.resolveKey text : LoadResult MethodDeclRef) := by
  intro error failed
  obtain ⟨cause, rfl⟩ := resolveKey_eq_error failed
  exact .here (.refused (.key failed))

/-- A node that should hold an index is blamed for its shape or its index. -/
theorem refOfIndexNode_blames :
    Blames draft.Refuses node (draft.refOfIndexNode node : LoadResult (Ref role)) :=
  expectInt_blames.bind fun _ read =>
    resolveIndex_blames (Node.expectInt_eq_ok_iff.mp (liftRead_eq_ok_iff.mp read))

/-- A node that should hold a key is blamed for its shape or its key. -/
theorem refOfKeyNode_blames :
    Blames draft.Refuses node (draft.refOfKeyNode node : LoadResult MethodDeclRef) :=
  expectString_blames.bind fun text read => by
    cases Node.expectString_eq_ok_iff.mp (liftRead_eq_ok_iff.mp read)
    exact resolveKey_blames text

/-- A list of references is blamed for its shape or at an item. -/
theorem refsOfListNode_blames {read : Node → LoadResult (Ref role)}
    (each : ∀ item, Blames draft.Refuses item (read item)) :
    Blames draft.Refuses node (refsOfListNode read node) :=
  expectArray_blames.bind fun items found => by
    cases Node.expectArray_eq_ok_iff.mp (liftRead_eq_ok_iff.mp found)
    exact .forItems items fun item _ => each item

theorem readIndex_blames :
    Blames draft.Refuses node (draft.readIndex node field : LoadResult (Ref role)) :=
  required_blames.bind fun _ read => by
    obtain ⟨value, present, integer⟩ := Node.readInt_eq_ok_iff.mp (liftRead_eq_ok_iff.mp read)
    exact (resolveIndex_blames integer).atField (Node.mem_entries_of_field? present)

theorem readIndex?_blames :
    Blames draft.Refuses node (draft.readIndex? node field : LoadResult (Option (Ref role))) := by
  unfold readIndex?
  split
  · exact .pure none
  · rename_i value present
    exact (refOfIndexNode_blames.map some).atField (Node.mem_entries_of_field? present)

theorem readIndexList_blames :
    Blames draft.Refuses node (draft.readIndexList node field : LoadResult (List (Ref role))) :=
  required_blames.bind fun items read => by
    obtain ⟨value, present, list⟩ := Node.readArray_eq_ok_iff.mp (liftRead_eq_ok_iff.mp read)
    cases Node.items?_eq_some_iff.mp list
    exact (Blames.forItems items fun _ _ => refOfIndexNode_blames).atField
      (Node.mem_entries_of_field? present)

theorem readIndexListOrEmpty_blames :
    Blames draft.Refuses node
      (draft.readIndexListOrEmpty node field : LoadResult (List (Ref role))) := by
  unfold readIndexListOrEmpty
  split
  · exact .pure []
  · rename_i value present
    exact (refsOfListNode_blames fun _ => refOfIndexNode_blames).atField
      (Node.mem_entries_of_field? present)

theorem readKey_blames :
    Blames draft.Refuses node (draft.readKey node field : LoadResult MethodDeclRef) :=
  readString_blames.bind fun text read => by
    obtain ⟨value, present, spelled⟩ := Node.readString_eq_ok_iff.mp (liftRead_eq_ok_iff.mp read)
    cases Node.string?_eq_some_iff.mp spelled
    exact (resolveKey_blames text).atField (Node.mem_entries_of_field? present)

theorem readKeyListOrEmpty_blames :
    Blames draft.Refuses node
      (draft.readKeyListOrEmpty node field : LoadResult (List MethodDeclRef)) := by
  unfold readKeyListOrEmpty
  split
  · exact .pure []
  · rename_i value present
    exact (refsOfListNode_blames fun _ => refOfKeyNode_blames).atField
      (Node.mem_entries_of_field? present)

end Draft

section Constructs

open Draft

variable {draft : Draft} {node : Node}

/-- Items of an optional list are read with complaints about the list only. -/
theorem LoadResult.Blames.optionalItems {α : Type} {refuses : Node → LoadError.Cause → Prop}
    {field : String} {items : List Node} {read : Node → LoadResult α}
    (found : node.readArrayOrEmpty field = .ok items)
    (each : ∀ item, Blames refuses item (read item)) :
    Blames refuses node (LoadResult.atField field (LoadResult.forItems read 0 items)) := by
  rcases Node.readArrayOrEmpty_eq_ok_iff.mp found with ⟨-, rfl⟩ | present
  · exact .pure []
  · exact (Blames.forItems items fun item _ => each item).atField
      (Node.mem_entries_of_field? present)

/-- A name that is missed is blamed on the entry. -/
theorem identityName_blames {refuses : Node → LoadError.Cause → Prop} {kind : Kind} :
    Blames refuses node (identityName kind node) := by
  unfold identityName
  split
  · exact .pure none
  · split
    · exact .pure _
    · exact readString_blames.bind fun _ _ => .pure _

/-- An abstract method that is written as an item is blamed within the item. -/
theorem readAbstract_blames : Blames draft.Refuses node (readAbstract draft node) :=
  readString_blames.bind fun _ _ => readIndex_blames.bind fun _ _ => .pure _

/-- A method that is written under its name is blamed at the field of this name. -/
theorem readMethodEntries_blames {entries : List (String × Node)}
    (found : node.readObjectOrEmpty "methods" = .ok entries) :
    Blames draft.Refuses node (atField "methods" (entries.mapM (readMethodEntry draft))) := by
  rcases Node.readObjectOrEmpty_eq_ok_iff.mp found with ⟨-, rfl⟩ | present
  · exact .pure []
  · refine Blames.atField (Node.mem_entries_of_field? present) (.mapM ?_)
    intro entry member
    exact (refOfIndexNode_blames.bind fun _ _ => .pure _).atField member

theorem InterfaceDesc.ofNode_blames : Blames draft.Refuses node (InterfaceDesc.ofNode draft node) :=
  readObjectOrEmpty_blames.bind fun _ foundMethods =>
  (readMethodEntries_blames (liftRead_eq_ok_iff.mp foundMethods)).bind fun _ _ =>
  readArrayOrEmpty_blames.bind fun _ foundAbstracts =>
  (Blames.optionalItems (liftRead_eq_ok_iff.mp foundAbstracts) fun _ => readAbstract_blames).bind
    fun _ _ =>
  readIndexListOrEmpty_blames.bind fun _ _ =>
  readIndexListOrEmpty_blames.bind fun _ _ =>
  readIndexListOrEmpty_blames.bind fun _ _ => .pure _

/-- Arguments are blamed at the item of their list. -/
theorem Argument.readList_blames {field : String} :
    Blames draft.Refuses node (Argument.readList draft node field) :=
  readArrayOrEmpty_blames.bind fun _ found =>
  Blames.optionalItems (liftRead_eq_ok_iff.mp found) fun _ =>
    readIndex_blames.bind fun _ _ => .pure _

theorem Signature.ofNode_blames : Blames draft.Refuses node (Signature.ofNode draft node) :=
  readIndexListOrEmpty_blames.bind fun _ _ =>
  Argument.readList_blames.bind fun _ _ =>
  Argument.readList_blames.bind fun _ _ => .pure _

theorem Field.ofNode_blames : Blames draft.Refuses node (Field.ofNode draft node) :=
  readString_blames.bind fun _ _ => readIndex_blames.bind fun _ _ => .pure _

theorem StructDesc.ofNode_blames : Blames draft.Refuses node (StructDesc.ofNode draft node) :=
  readArrayOrEmpty_blames.bind fun _ found =>
  (Blames.optionalItems (liftRead_eq_ok_iff.mp found) fun _ => Field.ofNode_blames).bind
    fun _ _ => .pure _

theorem DeclHeader.ofNode_blames {owner : PackageRef} :
    Blames draft.Refuses node (DeclHeader.ofNode draft owner node) :=
  readString_blames.bind fun _ _ => readIndexListOrEmpty_blames.bind fun _ _ => .pure _

end Constructs

namespace Construct

open Draft

variable {draft : Draft} {kind : Kind} {node : Node}

theorem ofTypeNode_blames (suits : Placement.topLevel.Suits kind) :
    Blames draft.Refuses node (ofTypeNode draft kind node) := by
  cases kind with
  | basic => exact identityName_blames.bind fun _ _ => .pure _
  | interfaceDesc => exact InterfaceDesc.ofNode_blames.bind fun _ _ => .pure _
  | named => exact readString_blames.bind fun _ _ => readIndex_blames.bind fun _ _ => .pure _
  | signature => exact Signature.ofNode_blames.bind fun _ _ => .pure _
  | solid => exact readIndex_blames.bind fun _ _ => readIndexList_blames.bind fun _ _ => .pure _
  | structDesc => exact StructDesc.ofNode_blames.bind fun _ _ => .pure _
  | union =>
      exact readIndexListOrEmpty_blames.bind fun _ _ =>
        readIndexListOrEmpty_blames.bind fun _ _ => .pure _
  | _ => simp [Placement.Suits, Allocation.typeLists] at suits

theorem ofMemberNode_blames {owner : PackageRef} (suits : (Placement.member owner).Suits kind) :
    Blames draft.Refuses node (ofMemberNode draft kind owner node) := by
  cases kind with
  | interfaceDecl =>
      exact DeclHeader.ofNode_blames.bind fun _ _ => readIndex_blames.bind fun _ _ => .pure _
  | interfaceInst =>
      exact readIndex_blames.bind fun _ _ => readIndexList_blames.bind fun _ _ =>
        readIndex_blames.bind fun _ _ => .pure _
  | objectDecl =>
      exact DeclHeader.ofNode_blames.bind fun _ _ => readIndex_blames.bind fun _ _ =>
        readKeyListOrEmpty_blames.bind fun _ _ => .pure _
  | objectInst =>
      exact readIndex_blames.bind fun _ _ => readIndexList_blames.bind fun _ _ =>
        readIndex_blames.bind fun _ _ => readIndexListOrEmpty_blames.bind fun _ _ => .pure _
  | methodDecl =>
      exact DeclHeader.ofNode_blames.bind fun _ _ => readIndex_blames.bind fun _ _ =>
        readIndex?_blames.bind fun _ _ => .pure _
  | methodInst =>
      exact readKey_blames.bind fun _ _ => readIndexList_blames.bind fun _ _ =>
        readIndex_blames.bind fun _ _ => readIndex?_blames.bind fun _ _ => .pure _
  | value =>
      exact readString_blames.bind fun _ _ => readIndex?_blames.bind fun _ _ => .pure _
  | _ => simp [Placement.Suits, Allocation.memberLists] at suits

/-- An entry that stands where its kind can stand is read with complaints about the entry only. -/
theorem ofNode_blames {placement : Placement} (suits : placement.Suits kind) :
    Blames draft.Refuses node (ofNode draft kind placement node) := by
  cases placement with
  | topLevel => exact ofTypeNode_blames suits
  | member owner => exact ofMemberNode_blames suits
  | package members =>
      cases suits
      exact readString_blames.bind fun _ _ => readIndexListOrEmpty_blames.bind fun _ _ => .pure _

end Construct

end CodeGraph

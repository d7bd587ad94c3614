import CodeGraph.Proofs.Loading.Readings
import CodeGraph.Proofs.Loading.Replaced

/-! # Where loading can fail

A reader fails over the node it reads, over a field that it asks for, or over an item of a list. So
the paths of all errors are known from the names of the lists and from what each kind reads
(`CodeGraph.Project.load_failsAt`). Nearly all of their steps are fixed names and positions;
only the older map of methods brings in names of the document's own.
-/

namespace CodeGraph

namespace LoadResult

variable {α β : Type} {places below : Path → Prop} {result : LoadResult α}

/-- Every failure of a result is at one of the given places. -/
def FailsAt (places : Path → Prop) (result : LoadResult α) : Prop :=
  FailsWith (fun error => places error.path) result

/-- What fails at certain places fails at any that include them. -/
theorem FailsAt.imp (weaker : ∀ path, below path → places path) (fails : FailsAt below result) :
    FailsAt places result :=
  fun error failed => weaker _ (fails error failed)

theorem FailsAt.pure (value : α) : FailsAt places (pure value) :=
  FailsWith.pure value

/-- Two steps fail at certain places if each of them does. -/
theorem FailsAt.bind {next : α → LoadResult β} (first : FailsAt places result)
    (later : ∀ value, result = .ok value → FailsAt places (next value)) :
    FailsAt places (result >>= next) :=
  FailsWith.bind first later

theorem FailsAt.map (f : α → β) (fails : FailsAt places result) :
    FailsAt places (f <$> result) :=
  FailsWith.map f fails

/-- Steps in a row fail at certain places if the step of each item does. -/
theorem FailsAt.mapM {items : List α} {read : α → LoadResult β}
    (each : ∀ item ∈ items, FailsAt places (read item)) : FailsAt places (items.mapM read) :=
  FailsWith.mapM each

/-- The outcome of a result fails where the result does. -/
theorem failsAt_outcome : FailsAt places result.outcome ↔ FailsAt places result := by
  simp only [FailsAt, FailsWith, outcome_eq_error_iff]

/-- What fails within a path fails at the path, extended by the place inside. -/
theorem FailsAt.within {outer : Path}
    (inner : FailsAt (fun path => places (outer ++ path)) result) :
    FailsAt places (result.within outer) := by
  intro error failed
  obtain ⟨cause, unread, rfl⟩ := mapError_eq_error_iff.mp failed
  exact inner cause unread

/-- Steps in a row that give no value fail where the step of each item does. -/
theorem FailsAt.forM {items : List α} {read : α → LoadResult Unit}
    (each : ∀ item ∈ items, FailsAt places (read item)) : FailsAt places (items.forM read) := by
  intro error failed
  obtain ⟨item, member, unread⟩ := exists_item_of_forM_error failed
  exact each item member error unread

/-- Items fail at their positions. -/
theorem FailsAt.forItems {read : Node → LoadResult β} {items : List Node}
    (each : ∀ position item, FailsAt (fun path => places (.index position :: path)) (read item)) :
    FailsAt places (forItems read 0 items) := by
  intro error failed
  obtain ⟨position, item, cause, -, unread, rfl⟩ := forItems_eq_error failed
  exact each _ item cause unread

end LoadResult

open LoadResult

/-! ## Reading a node -/

/-- Places of a node that is asked for a field, when those below the field are known. -/
inductive Path.AtField (field : String) (below : Path → Prop) : Path → Prop
  | here : AtField field below []
  | field {inner : Path} (inside : below inner) : AtField field below (.field field :: inner)

section Fields

variable {α : Type} {node : Node} {field : String} {below : Path → Prop}

/-- What is read from a field fails below the field. -/
theorem LoadResult.FailsAt.atField {result : LoadResult α} (inner : FailsAt below result) :
    FailsAt (Path.AtField field below) (result.atField field) :=
  .within (inner.imp fun _ => .field)

/-- A read of a node fails where its error says. -/
theorem failsAt_read {places : Path → Prop} {result : Except ReadError α}
    (each : ∀ error, result = .error error → places (LoadError.ofReadError error).path) :
    FailsAt places (liftM result : LoadResult α) := by
  intro error failed
  obtain ⟨cause, unread, rfl⟩ := mapError_eq_error_iff.mp failed
  exact each cause unread

/-- A required read fails over the node or over the field. -/
theorem failsAt_required (here : below []) {view : Node → Option α} {expected : Shape} :
    FailsAt (Path.AtField field below)
      (liftM (node.field field >>= Node.viewField field expected view) : LoadResult α) := by
  refine failsAt_read fun error failed => ?_
  rcases Node.required_eq_error failed with rfl | ⟨-, -, rfl⟩ | ⟨value, -, rfl⟩
  · exact .here
  · exact .field here
  · exact .field here

/-- An optional read fails over the field only. -/
theorem failsAt_optional {places : Path → Prop} (place : places [.field field])
    {view : Node → Option α} {expected : Shape} {absent : α} :
    FailsAt places (liftM (match node.field? field with
      | some value => Node.viewField field expected view value
      | none => .ok absent) : LoadResult α) := by
  refine failsAt_read fun error failed => ?_
  split at failed
  · cases Node.viewField_eq_error failed
    exact place
  · cases failed

/-- An optional list fails at its field. -/
theorem failsAt_readArrayOrEmpty {places : Path → Prop} (list : places [.field field]) :
    FailsAt places (liftM (node.readArrayOrEmpty field) : LoadResult (List Node)) :=
  failsAt_optional list

/-- An optional object fails at its field. -/
theorem failsAt_readObjectOrEmpty {places : Path → Prop} (map : places [.field field]) :
    FailsAt places (liftM (node.readObjectOrEmpty field) : LoadResult (List (String × Node))) :=
  failsAt_optional map

end Fields

section References

variable {draft : Draft} {role : Role} {node : Node} {field : String} {places : Path → Prop}

/-- An index fails on the spot. -/
theorem failsAt_resolveIndex (here : places []) {index : Int} :
    FailsAt places (draft.resolveIndex index : LoadResult (Ref role)) := by
  intro error failed
  obtain ⟨cause, rfl⟩ := Draft.resolveIndex_eq_error failed
  exact here

/-- A key fails on the spot. -/
theorem failsAt_resolveKey (here : places []) {text : String} :
    FailsAt places (draft.resolveKey text : LoadResult (Ref role)) := by
  intro error failed
  obtain ⟨cause, rfl⟩ := Draft.resolveKey_eq_error failed
  exact here

/-- A node that should hold an index fails on the spot. -/
theorem failsAt_refOfIndexNode (here : places []) :
    FailsAt places (draft.refOfIndexNode node : LoadResult (Ref role)) := by
  refine FailsAt.bind (failsAt_read fun error failed => ?_) fun _ _ => failsAt_resolveIndex here
  unfold Node.expectInt at failed
  split at failed <;> cases failed
  exact here

/-- A node that should hold a key fails on the spot. -/
theorem failsAt_refOfKeyNode (here : places []) :
    FailsAt places (draft.refOfKeyNode node : LoadResult (Ref role)) := by
  refine FailsAt.bind (failsAt_read fun error failed => ?_) fun _ _ => failsAt_resolveKey here
  unfold Node.expectString at failed
  split at failed <;> cases failed
  exact here

/-- A list of references fails over the list or over one of its items. -/
theorem failsAt_refsOfListNode (here : places []) {read : Node → LoadResult (Ref role)}
    (each : ∀ position item, FailsAt (fun path => places (.index position :: path)) (read item)) :
    FailsAt places (Draft.refsOfListNode read node) := by
  refine FailsAt.bind (failsAt_read fun error failed => ?_) fun _ _ => .forItems each
  unfold Node.expectArray at failed
  split at failed <;> cases failed
  exact here

end References

/-! ## Reading an entry -/

namespace ItemReading

/-- Where reading an item can fail, seen from the item, whose fields have the given names. -/
def Places (names : List String) (path : Path) : Prop :=
  ∃ name ∈ names, Path.AtField name (· = []) path

/-- The reading of an item fails on the item or on its field. -/
theorem run_failsAt (draft : Draft) (item : Node) (field : String) (reading : ItemReading) :
    FailsAt (Path.AtField field (· = [])) (reading.run draft item field) := by
  cases reading with
  | text => exact failsAt_outcome.mpr (failsAt_required (by rfl))
  | index role =>
      exact failsAt_outcome.mpr
        ((failsAt_required (by rfl)).bind fun _ _ => (failsAt_resolveIndex (by rfl)).atField)

/-- The readings of an item fail on the item or on one of its fields. -/
theorem runAll_failsAt (draft : Draft) (fields : List (String × ItemReading)) (item : Node) :
    FailsAt (Places (fields.map Prod.fst)) (runAll draft fields item) := by
  refine .forM ?_
  rintro ⟨field, reading⟩ listed
  exact (run_failsAt draft item field reading).imp fun _ inside =>
    ⟨field, List.mem_map_of_mem listed, inside⟩

end ItemReading

namespace FieldReading

/-- Whether a field holds a list of references. -/
def isList : FieldReading → Bool
  | indices _ | indicesOrEmpty _ | keysOrEmpty _ => true
  | _ => false

/-- The names of what is read of each item of a list. -/
def itemNames : FieldReading → List String
  | items fields => fields.map Prod.fst
  | _ => []

/-- Where reading a field can fail, seen from its value. -/
inductive Places : FieldReading → Path → Prop
  | here (reading : FieldReading) : Places reading []
  | reference {reading : FieldReading} (list : reading.isList) (position : Nat) :
    Places reading [.index position]
  | item {reading : FieldReading} {inner : Path} (position : Nat)
    (inside : ItemReading.Places reading.itemNames inner) :
    Places reading (.index position :: inner)
  /-- The names of the older map are up to the document. -/
  | method (name : String) : Places methods [.field name]

/-- The reading of an entry fails on the entry, or at a place of its field. -/
theorem run_failsAt (draft : Draft) (node : Node) (field : String) (reading : FieldReading) :
    FailsAt (Path.AtField field reading.Places) (reading.run draft node field) := by
  cases reading with
  | text => exact failsAt_outcome.mpr (failsAt_required (.here _))
  | index role =>
      exact failsAt_outcome.mpr
        ((failsAt_required (.here _)).bind fun _ _ => (failsAt_resolveIndex (.here _)).atField)
  | index? role =>
      rw [run, failsAt_outcome, Draft.readIndex?]
      split
      · exact .pure none
      · exact ((failsAt_refOfIndexNode (.here _)).map some).atField
  | indices role =>
      refine failsAt_outcome.mpr ((failsAt_required (.here _)).bind fun _ _ => .atField ?_)
      exact .forItems fun position _ => failsAt_refOfIndexNode (.reference rfl position)
  | indicesOrEmpty role =>
      rw [run, failsAt_outcome, Draft.readIndexListOrEmpty]
      split
      · exact .pure []
      · exact (failsAt_refsOfListNode (.here _) fun position _ =>
          failsAt_refOfIndexNode (.reference rfl position)).atField
  | key role =>
      exact failsAt_outcome.mpr
        ((failsAt_required (.here _)).bind fun _ _ => (failsAt_resolveKey (.here _)).atField)
  | keysOrEmpty role =>
      rw [run, failsAt_outcome, Draft.readKeyListOrEmpty]
      split
      · exact .pure []
      · exact (failsAt_refsOfListNode (.here _) fun position _ =>
          failsAt_refOfKeyNode (.reference rfl position)).atField
  | items fields =>
      refine (failsAt_readArrayOrEmpty (.field (.here _))).bind fun _ _ => ?_
      refine failsAt_outcome.mpr (.atField ?_)
      exact .forItems fun position item =>
        (ItemReading.runAll_failsAt draft fields item).imp fun _ => .item position
  | methods =>
      refine (failsAt_readObjectOrEmpty (.field (.here _))).bind fun _ _ => ?_
      refine failsAt_outcome.mpr (.atField ?_)
      refine .mapM ?_
      rintro ⟨name, value⟩ -
      refine .within ?_
      exact (failsAt_refOfIndexNode (.method name)).bind fun _ _ => .pure _

end FieldReading

namespace Kind

/-- The fields that are asked for of an entry of a kind, in the first pass or in the second. -/
def fieldsRead : Kind → List (String × FieldReading)
  | basic => [("name", .text)]
  | kind => kind.readings

/-- Where reading an entry of a kind can fail, seen from the entry. -/
def Places (kind : Kind) (path : Path) : Prop :=
  ∃ field reading, (field, reading) ∈ kind.fieldsRead ∧ Path.AtField field reading.Places path

/-- The name that an entry is reserved by is among its fields. -/
theorem name_mem_fieldsRead {kind : Kind} (keyed : kind.isKeyed) :
    ("name", .text) ∈ kind.fieldsRead := by
  cases kind <;> revert keyed <;> decide

end Kind

section Entries

variable {kind : Kind} {node : Node}

/-- A name that is missed fails on the entry or on its field for the name. -/
theorem identityName_failsAt : FailsAt kind.Places (identityName kind node) := by
  have named (keyed : kind.isKeyed) :
      FailsAt kind.Places (liftM (node.readString "name") : LoadResult String) := by
    have fails : FailsAt (Path.AtField "name" FieldReading.text.Places)
        (liftM (node.readString "name") : LoadResult String) := failsAt_required (.here _)
    exact fails.imp fun _ inside => ⟨"name", .text, Kind.name_mem_fieldsRead keyed, inside⟩
  unfold identityName
  split
  · exact .pure none
  · rename_i keyed
    split
    · exact .pure _
    · exact (named (by simpa using keyed)).bind fun _ _ => .pure _

/-- An entry fails on itself or at a place of one of the fields of its kind. -/
theorem Construct.ofNode_failsAt {draft : Draft} {placement : Placement}
    (suits : placement.Suits kind) : FailsAt kind.Places (ofNode draft kind placement node) := by
  by_cases basic : kind = .basic
  · subst basic
    cases placement with
    | topLevel => exact identityName_failsAt.bind fun _ _ => .pure _
    | member owner => simp [Placement.Suits, Allocation.memberLists] at suits
    | package members => cases suits
  · have fields : kind.fieldsRead = kind.readings := by
      cases kind <;> first | rfl | exact absurd rfl basic
    rw [← failsAt_outcome, outcome_ofNode suits basic]
    refine .forM ?_
    rintro ⟨field, reading⟩ listed
    exact (reading.run_failsAt draft node field).imp fun _ inside =>
      ⟨field, reading, fields ▸ listed, inside⟩

end Entries

/-! ## Loading a document -/

/-- Where loading a document can fail. -/
inductive Project.ErrorPlace : Path → Prop
  | root : ErrorPlace []
  | list {field : String} (listed : field ∈ "packages" :: Allocation.typeLists.map Prod.fst) :
    ErrorPlace [.field field]
  | memberList {field : String} (listed : field ∈ Allocation.memberLists.map Prod.fst)
    (package : Nat) : ErrorPlace [.field "packages", .index package, .field field]
  | entry {kind : Kind} {outer inner : Path} (stands : kind.StandsAt outer)
    (inside : kind.Places inner) : ErrorPlace (outer ++ inner)

open Project

namespace Entry

variable {kind : Kind} {path : Path} {placement : Placement} {node owner : Node}

/-- An entry that cannot be reserved fails where it stands. -/
theorem ofNode_failsAt (stands : kind.StandsAt path) :
    FailsAt ErrorPlace (ofNode kind placement path node) :=
  FailsAt.bind (.within (identityName_failsAt.imp fun _ => .entry stands)) fun _ _ => .pure _

/-- A list that cannot be reserved fails at the list or at one of its entries. -/
theorem readList_failsAt {outer : Path} {field : String}
    (list : ErrorPlace (outer ++ [.field field]))
    (stand : ∀ position, kind.StandsAt (outer ++ [.field field, .index position])) :
    FailsAt ErrorPlace (readList owner outer placement field kind) :=
  FailsAt.bind (.within (failsAt_readArrayOrEmpty list)) fun _ _ => .mapM fun _ _ =>
    ofNode_failsAt (stand _)

/-- A package that cannot be reserved fails at a place of the document. -/
theorem readPackage_failsAt (id position : Nat) (node : Node) :
    FailsAt ErrorPlace (readPackage id [.field "packages", .index position] node) := by
  rw [readPackage]
  refine (ofNode_failsAt (.package position)).bind fun _ _ => ?_
  refine FailsAt.bind (.mapM ?_) fun _ _ => .pure _
  rintro ⟨field, kind⟩ listed
  have inLists : field ∈ Allocation.memberLists.map Prod.fst := List.mem_map_of_mem listed
  exact readList_failsAt (.memberList inLists position) (.member listed position)

/-- Packages that cannot be reserved fail at a place of the document. -/
theorem readPackages_failsAt (nodes : List Node) (id position : Nat) :
    FailsAt ErrorPlace (readPackages id position nodes) := by
  induction nodes generalizing id position with
  | nil => exact .pure []
  | cons node rest ih =>
      exact (readPackage_failsAt id position node).bind fun _ _ => (ih _ _).bind fun _ _ => .pure _

/-- A document that cannot be reserved fails at one of its places. -/
theorem ofDocument_failsAt (document : Node) : FailsAt ErrorPlace (ofDocument document) := by
  refine FailsAt.bind (.mapM ?_) fun _ _ => ?_
  · rintro ⟨field, kind⟩ listed
    have inLists : field ∈ Allocation.typeLists.map Prod.fst := List.mem_map_of_mem listed
    exact readList_failsAt (.list (List.mem_cons_of_mem _ inLists)) (.type listed)
  · exact (failsAt_readArrayOrEmpty (.list List.mem_cons_self)).bind fun _ _ =>
      (readPackages_failsAt _ _ _).bind fun _ _ => .pure _

end Entry

namespace Project

/-- Where a document does not load, the path of the error is a place of the format. -/
theorem load_failsAt (document : Node) : FailsAt ErrorPlace (load document) := by
  rw [load_eq]
  refine FailsAt.bind (failsAt_read fun error failed => ?_) fun _ _ => ?_
  · cases document <;> cases failed <;> exact .root
  refine (Entry.ofDocument_failsAt document).bind fun entries reserved => ?_
  refine FailsAt.bind (.mapM fun entry member => .within ?_) fun _ _ => .pure _
  have stands := Entry.standsAt_of_ofDocument reserved entry member
  have suits := (Entry.standsIn_of_ofDocument reserved entry member).suits
  exact (Construct.ofNode_failsAt suits).imp fun _ => .entry stands

/-- A text that spells no document is to blame as a whole. -/
theorem ofJson_failsAt (text : String) : FailsAt ErrorPlace (ofJson text) := by
  refine FailsAt.bind (failsAt_read fun error failed => ?_) fun document _ => load_failsAt document
  obtain ⟨fault, -, rfl⟩ := mapError_eq_error_iff.mp failed
  exact .root

end Project

end CodeGraph

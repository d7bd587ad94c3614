import CodeGraph.Proofs.Document.Spellings
import CodeGraph.Proofs.Loading.Blame
import CodeGraph.Proofs.Loading.Lookup

/-! # What reading carries over

An entry that is read over a draft is read as the same construct over every draft that goes on where
the first one ends (`CodeGraph.Draft.Continues`), and from every node that is spelled alike
(`CodeGraph.Construct.ofNode_kept`). Indices count from the front of a table and ordinals from the
front of those of a name, so what they lead to is not moved by what comes behind.
-/

namespace CodeGraph

namespace LoadResult

variable {α α' β β' : Type}

/-- Where the first result has a value, the second has one that is related to it. -/
def Carries (related : α → α' → Prop) (result : LoadResult α) (result' : LoadResult α') : Prop :=
  ∀ value, result = .ok value → ∃ value', result' = .ok value' ∧ related value value'

/-- Where the first result has a value, it is that of the second. -/
abbrev Kept (result result' : LoadResult α) : Prop := Carries Eq result result'

/-- A result is kept if the other has the same value wherever it has one. -/
theorem kept_iff {result result' : LoadResult α} :
    Kept result result' ↔ ∀ value, result = .ok value → result' = .ok value := by
  simp [Carries]

theorem Kept.refl (result : LoadResult α) : Kept result result :=
  fun value worked => ⟨value, worked, rfl⟩

section Steps

variable {related : α → α' → Prop} {relatedToo : β → β' → Prop} {result : LoadResult α}
  {result' : LoadResult α'}

theorem Carries.pure {value : α} {value' : α'} (same : related value value') :
    Carries related (pure value) (pure value') := by
  intro found worked
  cases worked
  exact ⟨value', rfl, same⟩

/-- Two steps carry over if each of them does. -/
theorem Carries.bind (carries : Carries related result result') {next : α → LoadResult β}
    {next' : α' → LoadResult β'}
    (later : ∀ value value', related value value' →
      Carries relatedToo (next value) (next' value')) :
    Carries relatedToo (result >>= next) (result' >>= next') := by
  intro last worked
  obtain ⟨value, first, worked⟩ := bind_eq_ok_iff.mp worked
  obtain ⟨value', first', same⟩ := carries value first
  obtain ⟨last', worked', sameToo⟩ := later value value' same last worked
  exact ⟨last', bind_eq_ok_iff.mpr ⟨value', first', worked'⟩, sameToo⟩

/-- A step behind one that is kept carries over if it does for equal values. -/
theorem Kept.bind {result result' : LoadResult α} (kept : Kept result result')
    {next : α → LoadResult β} {next' : α → LoadResult β'}
    (later : ∀ value, Carries relatedToo (next value) (next' value)) :
    Carries relatedToo (result >>= next) (result' >>= next') :=
  Carries.bind kept fun value _ same => same ▸ later value

/-- Changing a value that is kept keeps the change. -/
theorem Kept.map {result result' : LoadResult α} (kept : Kept result result') (f : α → β) :
    Kept (f <$> result) (f <$> result') := by
  intro value worked
  obtain ⟨found, first, rfl⟩ := map_eq_ok_iff.mp worked
  exact ⟨f found, map_eq_ok_iff.mpr ⟨found, kept_iff.mp kept found first, rfl⟩, rfl⟩

/-- The path of an error does not matter to what carries over. -/
theorem Carries.within {outer outer' : Path} (carries : Carries related result result') :
    Carries related (result.within outer) (result'.within outer') := by
  simpa only [Carries, within_eq_ok_iff] using carries

theorem Carries.atField {field field' : String} (carries : Carries related result result') :
    Carries related (result.atField field) (result'.atField field') :=
  carries.within

theorem Kept.within {outer outer' : Path} {result result' : LoadResult α}
    (kept : Kept result result') : Kept (result.within outer) (result'.within outer') :=
  Carries.within kept

theorem Kept.atField {field field' : String} {result result' : LoadResult α}
    (kept : Kept result result') : Kept (result.atField field) (result'.atField field') :=
  kept.within

end Steps

section Lists

variable {γ γ' : Type} {alike : γ → γ' → Prop} {related : α → α' → Prop} {items : List γ}
  {items' : List γ'} (same : List.Forall₂ alike items items')
include same

/-- Steps in a row carry over if they do item by item. -/
theorem Carries.mapM {read : γ → LoadResult α} {read' : γ' → LoadResult α'}
    (each : ∀ item item', alike item item' → Carries related (read item) (read' item')) :
    Carries (List.Forall₂ related) (items.mapM read) (items'.mapM read') := by
  induction same with
  | nil => exact .pure .nil
  | cons atFirst _ ih =>
      rw [List.mapM_cons, List.mapM_cons]
      exact (each _ _ atFirst).bind fun _ _ first => ih.bind fun _ _ later =>
        .pure (.cons first later)

/-- Items are kept if each of them is. -/
theorem Kept.forItems {read : γ → LoadResult α} {read' : γ' → LoadResult α}
    (each : ∀ item item', alike item item' → Kept (read item) (read' item')) (position : Nat) :
    Kept (forItems read position items) (forItems read' position items') := by
  induction same generalizing position with
  | nil => exact .refl _
  | cons atFirst _ ih =>
      exact (each _ _ atFirst).within.bind fun _ => (ih (position + 1)).bind fun _ => .pure rfl

end Lists

end LoadResult

open LoadResult

/-! ## Fields -/

namespace Node

variable {node node' : Node} {field : String} {place : Place}

/-- A field whose blank values are null is absent from both nodes or from neither. -/
theorem PartAlike.value {part : Part} (same : PartAlike part node node')
    (null : ∀ value, part.use.Blank value → value = .null) :
    node.field? part.name = none ∧ node'.field? part.name = none ∨
      ∃ value value', node.field? part.name = some value ∧ node'.field? part.name = some value' ∧
        Alike part.place value value' := by
  have absent {other : Node} (blank : ∀ value ∈ other.field? part.name, part.use.Blank value) :
      other.field? part.name = none := by
    cases present : other.field? part.name with
    | none => rfl
    | some value => exact absurd (null value (blank value present)) (field?_ne_null present)
  cases same with
  | blank left right => exact .inl ⟨absent left, absent right⟩
  | there present present' alike => exact .inr ⟨_, _, present, present', alike⟩

/-- Alike nodes have the same optional text. -/
theorem optionalString_eq (same : PartAlike (.text field) node node') :
    node.optionalString field = node'.optionalString field := by
  suffices seen : (node.field? field).bind string? = (node'.field? field).bind string? by
    rw [optionalString, optionalString, seen]
  cases same with
  | blank left right =>
      exact (Option.bind_eq_none_iff.mpr left).trans (Option.bind_eq_none_iff.mpr right).symm
  | there present present' alike =>
      exact (congrArg (·.bind string?) present).trans
        (alike.scalar.2.1.trans (congrArg (·.bind string?) present').symm)

/-- Alike nodes have the same optional truth value. -/
theorem optionalBool_eq (same : PartAlike (.flag field) node node') :
    node.optionalBool field = node'.optionalBool field := by
  suffices seen : (node.field? field).bind bool? = (node'.field? field).bind bool? by
    rw [optionalBool, optionalBool, seen]
  cases same with
  | blank left right =>
      exact (Option.bind_eq_none_iff.mpr left).trans (Option.bind_eq_none_iff.mpr right).symm
  | there present present' alike =>
      exact (congrArg (·.bind bool?) present).trans
        (alike.scalar.2.2.trans (congrArg (·.bind bool?) present').symm)

section Views

variable {α : Type} {related : α → α → Prop} {view : Node → Option α}

/-- A required field is viewed alike in nodes that are alike, if values are that are alike. -/
theorem required_carries {expected : Shape} (same : PartAlike ⟨field, .required, place⟩ node node')
    (views : ∀ value value', Alike place value value' →
      Option.Rel related (view value) (view value')) :
    Carries related
      (liftM (node.field field >>= viewField field expected view) : LoadResult α)
      (liftM (node'.field field >>= viewField field expected view)) := by
  intro seen read
  obtain ⟨value, present, sees⟩ := required_eq_ok_iff.mp (liftRead_eq_ok_iff.mp read)
  rcases same.value fun _ => id with ⟨absent, -⟩ | ⟨found, value', here, present', alike⟩
  · cases present.symm.trans absent
  · cases present.symm.trans here
    obtain ⟨seen', sees', related⟩ := exists_of_optionRel (views value value' alike) sees
    exact ⟨seen', liftRead_eq_ok_iff.mpr (required_eq_ok_iff.mpr ⟨value', present', sees'⟩),
      related⟩

theorem readString_kept (same : PartAlike (.scalar field) node node') :
    Kept (liftM (node.readString field) : LoadResult String) (liftM (node'.readString field)) :=
  required_carries same fun _ _ alike => optionRel_of_eq alike.scalar.2.1

theorem readInt_kept (same : PartAlike (.scalar field) node node') :
    Kept (liftM (node.readInt field) : LoadResult Int) (liftM (node'.readInt field)) :=
  required_carries same fun _ _ alike => optionRel_of_eq alike.scalar.1

/-- A required list carries over to a list of alike items. -/
theorem readArray_carries (same : PartAlike ⟨field, .required, .list place⟩ node node') :
    Carries (List.Forall₂ (Alike place)) (liftM (node.readArray field) : LoadResult (List Node))
      (liftM (node'.readArray field)) :=
  required_carries same fun _ _ => Alike.items

/-- What an optional list or map holds has a counterpart in nodes that are alike, nothing where the
field is absent. -/
theorem PartAlike.exists_optional {part : Part} (same : PartAlike part node node')
    {wrap : List α → Node} (injective : Function.Injective wrap)
    (blank : ∀ value, part.use.Blank value → value = .null ∨ value = wrap [])
    {related : List α → List α → Prop} (nothing : related [] [])
    (inner : ∀ items value', Alike part.place (wrap items) value' →
      ∃ items', value' = wrap items' ∧ related items items') {items : List α}
    (found : node.field? part.name = none ∧ items = [] ∨
      node.field? part.name = some (wrap items)) :
    ∃ items', (node'.field? part.name = none ∧ items' = [] ∨
      node'.field? part.name = some (wrap items')) ∧ related items items' := by
  have empty {other : Node} {value : Node} (present : other.field? part.name = some value)
      (blanks : part.use.Blank value) : value = wrap [] :=
    (blank value blanks).resolve_left (field?_ne_null present)
  cases same with
  | blank left right =>
      obtain ⟨rfl⟩ : items = [] := by
        rcases found with ⟨-, rfl⟩ | present
        · rfl
        · exact injective (empty present (left _ present))
      refine ⟨[], ?_, nothing⟩
      cases present' : node'.field? part.name with
      | none => exact .inl ⟨rfl, rfl⟩
      | some value => exact .inr (congrArg some (empty present' (right _ present')))
  | there present present' alike =>
      rcases found with ⟨absent, -⟩ | here
      · cases present.symm.trans absent
      · cases present.symm.trans here
        obtain ⟨items', rfl, related⟩ := inner items _ alike
        exact ⟨items', .inr present', related⟩

/-- An optional list carries over to a list of alike items. -/
theorem readArrayOrEmpty_carries (same : PartAlike (.list field place) node node') :
    Carries (List.Forall₂ (Alike place))
      (liftM (node.readArrayOrEmpty field) : LoadResult (List Node))
      (liftM (node'.readArrayOrEmpty field)) := by
  intro items read
  have injective : Function.Injective array := fun _ _ => array.inj
  obtain ⟨items', found', related⟩ := same.exists_optional injective (fun _ => id)
    List.Forall₂.nil
    (fun items value' alike => by
      obtain ⟨items', list', related⟩ := exists_of_optionRel alike.items rfl
      exact ⟨items', items?_eq_some_iff.mp list', related⟩)
    (readArrayOrEmpty_eq_ok_iff.mp (liftRead_eq_ok_iff.mp read))
  exact ⟨items', liftRead_eq_ok_iff.mpr (readArrayOrEmpty_eq_ok_iff.mpr found'), related⟩

/-- An optional object carries over to one with alike entries. -/
theorem readObjectOrEmpty_carries (same : PartAlike .methods node node') :
    Carries EntriesAlike
      (liftM (node.readObjectOrEmpty "methods") : LoadResult (List (String × Node)))
      (liftM (node'.readObjectOrEmpty "methods")) := by
  intro entries read
  have injective : Function.Injective object := fun _ _ => object.inj
  obtain ⟨entries', found', related⟩ := same.exists_optional injective (fun _ => id)
    (EntriesAlike.values .nil)
    (fun entries value' alike => by
      obtain ⟨entries', map', related⟩ := exists_of_optionRel alike.entries rfl
      exact ⟨entries', object?_eq_some_iff.mp map', related⟩)
    (readObjectOrEmpty_eq_ok_iff.mp (liftRead_eq_ok_iff.mp read))
  exact ⟨entries', liftRead_eq_ok_iff.mpr (readObjectOrEmpty_eq_ok_iff.mpr found'), related⟩

end Views

end Node

open Node

/-! ## References -/

namespace Draft

/-- A draft that goes on where another one ends. -/
structure Continues (later earlier : Draft) : Prop where
  tables : ∀ table, earlier.table table <+: later.table table
  keys : ∀ table name positions, (earlier.keys.get table).positions? name = some positions →
    ∃ more, (later.keys.get table).positions? name = some (positions ++ more)
  kinds : earlier.kinds <+: later.kinds

theorem Continues.refl (draft : Draft) : draft.Continues draft :=
  ⟨fun _ => List.prefix_rfl, fun _ _ positions known => ⟨[], by rw [known, List.append_nil]⟩,
    List.prefix_rfl⟩

/-- What stands at an index stands there when the list has grown. -/
theorem atIndex?_of_grown {α : Type} {items later : List α} (grown : items <+: later)
    {index : Int} {item : α} (found : atIndex? items index = some item) :
    atIndex? later index = some item := by
  obtain ⟨position, rfl, here⟩ := atIndex?_eq_some_iff.mp found
  exact atIndex?_eq_some_iff.mpr ⟨position, rfl, getElem?_of_grown grown here⟩

section References

variable {earlier later : Draft} {role : Role}

/-- An index leads to the id at its place in the table, if the role accepts the kind there. -/
theorem resolveIndex_eq_ok_iff {draft : Draft} {index : Int} {ref : Ref role} :
    draft.resolveIndex index = .ok ref ↔ atIndex? (draft.table role.table) index = some ref.id ∧
      ∃ kind, draft.kinds[ref.id]? = some kind ∧ role.accepts kind = true := by
  unfold resolveIndex
  cases found : atIndex? (draft.table role.table) index with
  | none => simp [found]
  | some id =>
      simp only [found, bind_eq_ok_iff, LoadResult.liftBounds_eq_ok_iff, kind_eq_ok_iff]
      constructor
      · intro resolved
        obtain ⟨kind, present, resolved⟩ := resolved
        split at resolved
        · rename_i accepted
          cases resolved
          exact ⟨rfl, kind, present, accepted⟩
        · cases resolved
      · intro leads
        obtain ⟨same, kind, present, accepted⟩ := leads
        cases same
        exact ⟨kind, present, by simp [accepted, pure, Except.pure]⟩

/-- A key leads to the position that its ordinal picks among those of its name. -/
theorem resolveKey_eq_ok_iff {draft : Draft} {text : String} {ref : Ref role} :
    draft.resolveKey text = .ok ref ↔ ∃ (key : Key) (positions : List Nat) (position : Nat),
      Key.parse? text = some key ∧
      (draft.keys.get role.table).positions? key.name = some positions ∧
      atIndex? positions key.ordinal = some position ∧ draft.resolveIndex position = .ok ref := by
  cases parsed : Key.parse? text with
  | none => simp [resolveKey_of_malformed parsed]
  | some key =>
      cases known : (draft.keys.get role.table).positions? key.name with
      | none => simp [resolveKey_of_unknown parsed known, known]
      | some positions =>
          rw [resolveKey_of_known parsed known]
          cases picked : atIndex? positions key.ordinal <;> simp [known, picked]

variable (grown : later.Continues earlier)
include grown

/-- An index leads where it led before the draft went on. -/
theorem resolveIndex_kept (index : Int) :
    Kept (earlier.resolveIndex index : LoadResult (Ref role)) (later.resolveIndex index) := by
  rw [kept_iff]
  intro ref found
  obtain ⟨here, kind, present, accepted⟩ := resolveIndex_eq_ok_iff.mp found
  exact resolveIndex_eq_ok_iff.mpr ⟨atIndex?_of_grown (grown.tables role.table) here, kind,
    getElem?_of_grown grown.kinds present, accepted⟩

/-- A key leads where another key of the same name and ordinal led before the draft went on. -/
theorem resolveKey_kept {text text' : String} (same : Key.parse? text = Key.parse? text') :
    Kept (earlier.resolveKey text : LoadResult (Ref role)) (later.resolveKey text') := by
  rw [kept_iff]
  intro ref found
  obtain ⟨key, positions, position, parsed, known, picked, found⟩ :=
    resolveKey_eq_ok_iff.mp found
  obtain ⟨more, known⟩ := grown.keys role.table key.name positions known
  exact resolveKey_eq_ok_iff.mpr ⟨key, positions ++ more, position, same ▸ parsed, known,
    atIndex?_of_grown (List.prefix_append positions more) picked,
    kept_iff.mp (resolveIndex_kept grown position) ref found⟩

variable {node node' : Node} {field : String}

theorem refOfIndexNode_kept (alike : Alike .plain node node') :
    Kept (earlier.refOfIndexNode node : LoadResult (Ref role)) (later.refOfIndexNode node') := by
  rw [kept_iff]
  intro ref read
  simp only [refOfIndexNode, bind_eq_ok_iff, liftRead_eq_ok_iff, expectInt_eq_ok_iff] at read ⊢
  obtain ⟨index, integer, found⟩ := read
  exact ⟨index, alike.scalar.1 ▸ integer, kept_iff.mp (resolveIndex_kept grown index) ref found⟩

theorem refOfKeyNode_kept (alike : Alike .key node node') :
    Kept (earlier.refOfKeyNode node : LoadResult (Ref role)) (later.refOfKeyNode node') := by
  rw [kept_iff]
  intro ref read
  simp only [refOfKeyNode, bind_eq_ok_iff, liftRead_eq_ok_iff, expectString_eq_ok_iff] at read ⊢
  obtain ⟨text, rfl, found⟩ := read
  obtain ⟨text', spelled, same⟩ := Option.map_eq_some_iff.mp alike.parse?_eq.symm
  exact ⟨text', string?_eq_some_iff.mp spelled,
    kept_iff.mp (resolveKey_kept grown same.symm) ref found⟩

theorem readIndex_kept (same : PartAlike (.scalar field) node node') :
    Kept (earlier.readIndex node field : LoadResult (Ref role)) (later.readIndex node' field) :=
  (readInt_kept same).bind fun index => (resolveIndex_kept grown index).atField

theorem readKey_kept (same : PartAlike (.key field) node node') :
    Kept (earlier.readKey node field : LoadResult (Ref role)) (later.readKey node' field) := by
  have texts : Carries (fun text text' => Key.parse? text = Key.parse? text')
      (liftM (node.readString field) : LoadResult String) (liftM (node'.readString field)) :=
    required_carries same fun _ _ alike => optionRel_of_map_eq alike.parse?_eq
  exact texts.bind fun _ _ parsed => (resolveKey_kept grown parsed).atField

theorem readIndex?_kept (same : PartAlike (.scalar? field) node node') :
    Kept (earlier.readIndex? node field : LoadResult (Option (Ref role)))
      (later.readIndex? node' field) := by
  unfold readIndex?
  rcases same.value fun _ => id with ⟨absent, absent'⟩ | ⟨value, value', present, present', alike⟩
  · have absent : node.field? field = none := absent
    have absent' : node'.field? field = none := absent'
    rw [absent, absent']
    exact .refl _
  · have present : node.field? field = some value := present
    have present' : node'.field? field = some value' := present'
    rw [present, present']
    exact ((refOfIndexNode_kept grown alike).map some).atField

theorem readIndexList_kept (same : PartAlike (.indices field) node node') :
    Kept (earlier.readIndexList node field : LoadResult (List (Ref role)))
      (later.readIndexList node' field) :=
  (readArray_carries same).bind fun _ _ items =>
    (Kept.forItems items (fun _ _ => refOfIndexNode_kept grown) 0).atField

end References

section Lists

variable {role : Role} {node node' : Node} {field : String}

/-- An optional list of references has those of its items, or none where it is absent. -/
theorem optionalRefs_eq_ok_iff {read : Node → LoadResult (Ref role)} {refs : List (Ref role)} :
    ((node.field? field).elim (pure []) fun value => atField field (refsOfListNode read value)) =
        .ok refs ↔
      ∃ items, node.readArrayOrEmpty field = .ok items ∧ forItems read 0 items = .ok refs := by
  cases present : node.field? field with
  | none => simp [readArrayOrEmpty_eq_ok_iff, present, forItems]
  | some value =>
      simp only [Option.elim_some, atField_eq_ok_iff, refsOfListNode, bind_eq_ok_iff,
        liftRead_eq_ok_iff, expectArray_eq_ok_iff, readArrayOrEmpty_eq_ok_iff, present,
        Option.some.injEq, reduceCtorEq, false_and, false_or]

/-- An optional list of references is kept if each of them is. -/
theorem optionalRefs_kept {place : Place} (same : PartAlike (.list field place) node node')
    {read read' : Node → LoadResult (Ref role)}
    (each : ∀ item item', Alike place item item' → Kept (read item) (read' item')) :
    Kept ((node.field? field).elim (pure []) fun value => atField field (refsOfListNode read value))
      ((node'.field? field).elim (pure []) fun value =>
        atField field (refsOfListNode read' value)) := by
  rw [kept_iff]
  intro refs found
  obtain ⟨items, list, found⟩ := optionalRefs_eq_ok_iff.mp found
  obtain ⟨items', list', alike⟩ := readArrayOrEmpty_carries same items (liftRead_eq_ok_iff.mpr list)
  exact optionalRefs_eq_ok_iff.mpr ⟨items', liftRead_eq_ok_iff.mp list',
    kept_iff.mp (Kept.forItems alike each 0) refs found⟩

variable {earlier later : Draft} (grown : later.Continues earlier)
include grown

theorem readIndexListOrEmpty_kept (same : PartAlike (.list field .plain) node node') :
    Kept (earlier.readIndexListOrEmpty node field : LoadResult (List (Ref role)))
      (later.readIndexListOrEmpty node' field) := by
  have opened (draft : Draft) (node : Node) :
      (draft.readIndexListOrEmpty node field : LoadResult (List (Ref role))) =
        (node.field? field).elim (pure []) fun value =>
          atField field (refsOfListNode draft.refOfIndexNode value) := by
    unfold readIndexListOrEmpty
    cases node.field? field <;> rfl
  rw [opened, opened]
  exact optionalRefs_kept same fun _ _ => refOfIndexNode_kept grown

theorem readKeyListOrEmpty_kept (same : PartAlike (.list field .key) node node') :
    Kept (earlier.readKeyListOrEmpty node field : LoadResult (List (Ref role)))
      (later.readKeyListOrEmpty node' field) := by
  have opened (draft : Draft) (node : Node) :
      (draft.readKeyListOrEmpty node field : LoadResult (List (Ref role))) =
        (node.field? field).elim (pure []) fun value =>
          atField field (refsOfListNode draft.refOfKeyNode value) := by
    unfold readKeyListOrEmpty
    cases node.field? field <;> rfl
  rw [opened, opened]
  exact optionalRefs_kept same fun _ _ => refOfKeyNode_kept grown

end Lists

end Draft

/-! ## Constructs -/

namespace InterfaceDesc

/-- Two methods of different names are bound in either order. -/
theorem bind_comm {name other : String} (different : name ≠ other)
    (signature signature' : SignatureRef) (bound : List (String × SignatureRef)) :
    bind name signature (bind other signature' bound) =
      bind other signature' (bind name signature bound) := by
  induction bound with
  | nil => grind [bind]
  | cons pair rest ih => grind [bind]

/-- Methods of different names are bound in any order. -/
theorem foldl_bind_perm {pairs pairs' : List (String × SignatureRef)}
    (names : (pairs.map Prod.fst).Nodup) (order : pairs.Perm pairs')
    (bound : List (String × SignatureRef)) :
    pairs.foldl (fun bound (name, sig) => bind name sig bound) bound =
      pairs'.foldl (fun bound (name, sig) => bind name sig bound) bound := by
  refine order.foldl_eq' ?_ bound
  intro pair member other memberToo bound
  by_cases same : pair.1 = other.1
  · cases List.inj_on_of_nodup_map names member memberToo same
    rfl
  · exact bind_comm (Ne.symm same) _ _ _

end InterfaceDesc

section Constructs

open Draft

variable {earlier later : Draft} (grown : later.Continues earlier) {node node' : Node}

/-- The name of a basic is the same in both of its forms. -/
theorem identityName_basic_kept (alike : Alike (.entry .basic) node node') :
    Kept (identityName .basic node) (identityName .basic node') := by
  rw [kept_iff]
  suffices same : ∀ name, identityName .basic node = .ok name ↔ identityName .basic node' = .ok name
    from fun name => (same name).mp
  induction alike using Alike.of_rewrites with
  | refl node => exact fun _ => Iff.rfl
  | symm node node' _ same => exact fun name => (same name).symm
  | step node node' rewrite =>
      rcases rewrite.basic_cases with ⟨object, object', same⟩ | ⟨name, rfl, rfl⟩
      · have opened {node : Node} (object : node.string? = none) :
            identityName .basic node = some <$> liftM (node.readString "name") := by
          simp only [identityName, object]
          rfl
        rw [opened object, opened object']
        exact fun name => ⟨kept_iff.mp ((readString_kept same).map some) name,
          kept_iff.mp ((readString_kept same.symm).map some) name⟩
      · exact fun _ => Iff.rfl

theorem identityName_kept {kind : Kind} (alike : Alike (.entry kind) node node') :
    Kept (identityName kind node) (identityName kind node') := by
  by_cases basic : kind = .basic
  · subst basic
    exact identityName_basic_kept alike
  · have named (member : Part.scalar "name" ∈ (Place.entry kind).parts) :
        Kept (do return some (← liftM (node.readString "name")))
          (do return some (← liftM (node'.readString "name"))) :=
      (readString_kept (alike.part (fun same => basic (Place.entry.inj same)) member)).bind
        fun _ => .pure rfl
    cases kind with
    | basic => exact absurd rfl basic
    | named | interfaceDecl | objectDecl | methodDecl | value | package =>
        exact named (by simp [Part.header])
    | _ => exact .refl _

include grown

theorem readMethodEntry_kept {entry entry' : String × Node}
    (alike : entry.1 = entry'.1 ∧ Alike .plain entry.2 entry'.2) :
    Kept (readMethodEntry earlier entry) (readMethodEntry later entry') := by
  rw [readMethodEntry, readMethodEntry, alike.1]
  exact ((refOfIndexNode_kept grown alike.2).bind fun _ => .pure rfl).atField

/-- Methods that are read from maps that are alike are bound to the same signatures. -/
theorem readMethodEntries_carries {entries entries' : List (String × Node)}
    (alike : EntriesAlike entries entries') :
    Carries (fun methods methods' => ∀ bound : List (String × SignatureRef),
        methods.foldl (fun bound (name, sig) => InterfaceDesc.bind name sig bound) bound =
          methods'.foldl (fun bound (name, sig) => InterfaceDesc.bind name sig bound) bound)
      (entries.mapM (readMethodEntry earlier)) (entries'.mapM (readMethodEntry later)) := by
  intro methods read
  cases alike with
  | values same =>
      obtain ⟨methods', read', related⟩ :=
        Carries.mapM same (fun _ _ => readMethodEntry_kept grown) methods read
      cases List.forall₂_eq_eq_eq ▸ related
      exact ⟨methods, read', fun _ => rfl⟩
  | order keys order =>
      have unchanged : List.Forall₂ (fun entry entry' : String × Node => entry.1 = entry'.1 ∧
          Alike .plain entry.2 entry'.2) entries entries :=
        List.forall₂_same.mpr fun entry _ => ⟨rfl, .refl entry.2⟩
      obtain ⟨methods', read', related⟩ :=
        Carries.mapM unchanged (fun _ _ => readMethodEntry_kept grown) methods read
      cases List.forall₂_eq_eq_eq ▸ related
      obtain ⟨permuted, readAll, order⟩ :=
        List.perm_comp_forall₂ order.symm (mapM_eq_ok_iff.mp read')
      refine ⟨permuted, mapM_eq_ok_iff.mpr readAll, InterfaceDesc.foldl_bind_perm ?_ order.symm⟩
      have names : methods.map Prod.fst = entries.map Prod.fst := by
        apply map_eq_of_mapM read
        intro entry _ pair readEntry
        simp only [readMethodEntry, atField_eq_ok_iff, bind_eq_ok_iff, pure_eq_ok_iff] at readEntry
        obtain ⟨signature, -, rfl⟩ := readEntry
        rfl
      rwa [names]

theorem readAbstract_kept (alike : Alike .abstract node node') :
    Kept (readAbstract earlier node) (readAbstract later node') :=
  (readString_kept (alike.part nofun (by simp))).bind fun _ =>
    (readIndex_kept grown (alike.part nofun (by simp))).bind fun _ => .pure rfl

theorem InterfaceDesc.ofNode_kept (alike : Alike (.entry .interfaceDesc) node node') :
    Kept (InterfaceDesc.ofNode earlier node) (InterfaceDesc.ofNode later node') := by
  have abstracts : PartAlike (.list "abstracts" .abstract) node node' := alike.part nofun (by simp)
  refine (readObjectOrEmpty_carries (alike.part nofun (by simp))).bind fun _ _ entries => ?_
  refine (readMethodEntries_carries grown entries).atField.bind fun methods methods' bound => ?_
  refine (readArrayOrEmpty_carries abstracts).bind fun _ _ items => ?_
  refine (Kept.forItems items (fun _ _ => readAbstract_kept grown) 0).atField.bind fun _ => ?_
  refine (readIndexListOrEmpty_kept grown (alike.part nofun (by simp))).bind fun _ => ?_
  refine (readIndexListOrEmpty_kept grown (alike.part nofun (by simp))).bind fun _ => ?_
  refine (readIndexListOrEmpty_kept grown (alike.part nofun (by simp))).bind fun _ => .pure ?_
  rw [List.foldl_append, List.foldl_append, bound]

theorem Argument.ofNode_kept (alike : Alike .argument node node') :
    Kept (Argument.ofNode earlier node) (Argument.ofNode later node') :=
  (readIndex_kept grown (alike.part nofun (by simp))).bind fun _ =>
    .pure (by rw [optionalString_eq (alike.part nofun (by simp))])

theorem Argument.readList_kept {field : String}
    (same : PartAlike (.list field .argument) node node') :
    Kept (Argument.readList earlier node field) (Argument.readList later node' field) :=
  (readArrayOrEmpty_carries same).bind fun _ _ items =>
    (Kept.forItems items (fun _ _ => Argument.ofNode_kept grown) 0).atField

theorem Signature.ofNode_kept (alike : Alike (.entry .signature) node node') :
    Kept (Signature.ofNode earlier node) (Signature.ofNode later node') :=
  (readIndexListOrEmpty_kept grown (alike.part nofun (by simp))).bind fun _ =>
    (Argument.readList_kept grown (alike.part nofun (by simp))).bind fun _ =>
    (Argument.readList_kept grown (alike.part nofun (by simp))).bind fun _ =>
    .pure (by rw [optionalBool_eq (alike.part nofun (by simp))])

theorem Field.ofNode_kept (alike : Alike .field node node') :
    Kept (Field.ofNode earlier node) (Field.ofNode later node') :=
  (readString_kept (alike.part nofun (by simp))).bind fun _ =>
    (readIndex_kept grown (alike.part nofun (by simp))).bind fun _ =>
    .pure (by rw [optionalBool_eq (alike.part nofun (by simp))])

theorem StructDesc.ofNode_kept (alike : Alike (.entry .structDesc) node node') :
    Kept (StructDesc.ofNode earlier node) (StructDesc.ofNode later node') := by
  have fields : PartAlike (.list "fields" .field) node node' := alike.part nofun (by simp)
  exact (readArrayOrEmpty_carries fields).bind fun _ _ items =>
    (Kept.forItems items (fun _ _ => Field.ofNode_kept grown) 0).atField.bind fun _ => .pure rfl

theorem DeclHeader.ofNode_kept (same : ∀ part ∈ Part.header, PartAlike part node node')
    (owner : PackageRef) :
    Kept (DeclHeader.ofNode earlier owner node) (DeclHeader.ofNode later owner node') :=
  (readString_kept (same _ (by simp [Part.header]))).bind fun _ =>
    (readIndexListOrEmpty_kept grown (same _ (by simp [Part.header]))).bind fun _ =>
    .pure (by rw [optionalString_eq (same _ (by simp [Part.header]))])

end Constructs

namespace Construct

open Draft

variable {earlier later : Draft} (grown : later.Continues earlier) {kind : Kind}
  {node node' : Node} (alike : Alike (.entry kind) node node')
include grown alike

theorem ofTypeNode_kept : Kept (ofTypeNode earlier kind node) (ofTypeNode later kind node') := by
  cases kind with
  | basic => exact (identityName_kept alike).bind fun _ => .pure rfl
  | interfaceDesc => exact (InterfaceDesc.ofNode_kept grown alike).bind fun _ => .pure rfl
  | named =>
      exact (readString_kept (alike.part nofun (by simp))).bind fun _ =>
        (readIndex_kept grown (alike.part nofun (by simp))).bind fun _ => .pure rfl
  | signature => exact (Signature.ofNode_kept grown alike).bind fun _ => .pure rfl
  | solid =>
      exact (readIndex_kept grown (alike.part nofun (by simp))).bind fun _ =>
        (readIndexList_kept grown (alike.part nofun (by simp))).bind fun _ => .pure rfl
  | structDesc => exact (StructDesc.ofNode_kept grown alike).bind fun _ => .pure rfl
  | union =>
      exact (readIndexListOrEmpty_kept grown (alike.part nofun (by simp))).bind fun _ =>
        (readIndexListOrEmpty_kept grown (alike.part nofun (by simp))).bind fun _ => .pure rfl
  | _ => exact .refl _

theorem ofMemberNode_kept (owner : PackageRef) :
    Kept (ofMemberNode earlier kind owner node) (ofMemberNode later kind owner node') := by
  cases kind with
  | interfaceDecl =>
      exact (DeclHeader.ofNode_kept grown (fun _ inHeader =>
          alike.part nofun (List.mem_append_left _ inHeader)) owner).bind fun _ =>
        (readIndex_kept grown (alike.part nofun (by simp))).bind fun _ => .pure rfl
  | interfaceInst =>
      exact (readIndex_kept grown (alike.part nofun (by simp))).bind fun _ =>
        (readIndexList_kept grown (alike.part nofun (by simp))).bind fun _ =>
        (readIndex_kept grown (alike.part nofun (by simp))).bind fun _ => .pure rfl
  | objectDecl =>
      exact (DeclHeader.ofNode_kept grown (fun _ inHeader =>
          alike.part nofun (List.mem_append_left _ inHeader)) owner).bind fun _ =>
        (readIndex_kept grown (alike.part nofun (by simp))).bind fun _ =>
        (readKeyListOrEmpty_kept grown (alike.part nofun (by simp))).bind fun _ => .pure rfl
  | objectInst =>
      exact (readIndex_kept grown (alike.part nofun (by simp))).bind fun _ =>
        (readIndexList_kept grown (alike.part nofun (by simp))).bind fun _ =>
        (readIndex_kept grown (alike.part nofun (by simp))).bind fun _ =>
        (readIndexListOrEmpty_kept grown (alike.part nofun (by simp))).bind fun _ => .pure rfl
  | methodDecl =>
      exact (DeclHeader.ofNode_kept grown (fun _ inHeader =>
          alike.part nofun (List.mem_append_left _ inHeader)) owner).bind fun _ =>
        (readIndex_kept grown (alike.part nofun (by simp))).bind fun _ =>
        (readIndex?_kept grown (alike.part nofun (by simp))).bind fun _ => .pure rfl
  | methodInst =>
      exact (readKey_kept grown (alike.part nofun (by simp))).bind fun _ =>
        (readIndexList_kept grown (alike.part nofun (by simp))).bind fun _ =>
        (readIndex_kept grown (alike.part nofun (by simp))).bind fun _ =>
        (readIndex?_kept grown (alike.part nofun (by simp))).bind fun _ => .pure rfl
  | value =>
      exact (readString_kept (alike.part nofun (by simp))).bind fun _ =>
        (readIndex?_kept grown (alike.part nofun (by simp))).bind fun _ =>
        .pure (by rw [optionalString_eq (alike.part nofun (by simp)),
          optionalBool_eq (alike.part nofun (by simp))])
  | _ => exact .refl _

theorem ofPackageNode_kept (members : Members) :
    Kept (ofPackageNode earlier kind members node) (ofPackageNode later kind members node') := by
  cases kind with
  | package =>
      exact (readString_kept (alike.part nofun (by simp))).bind fun _ =>
        (readIndexListOrEmpty_kept grown (alike.part nofun (by simp))).bind fun _ =>
        .pure (by rw [optionalString_eq (alike.part nofun (by simp))])
  | _ => exact .refl _

/-- An entry spells the same construct over a draft that goes on, and under other spellings. -/
theorem ofNode_kept (placement : Placement) :
    Kept (ofNode earlier kind placement node) (ofNode later kind placement node') := by
  cases placement with
  | topLevel => exact ofTypeNode_kept grown alike
  | member owner => exact ofMemberNode_kept grown alike owner
  | package members => exact ofPackageNode_kept grown alike members

end Construct

end CodeGraph

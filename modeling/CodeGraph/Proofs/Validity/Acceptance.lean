import CodeGraph.Proofs.Loading.Integrity
import CodeGraph.Proofs.Validity.Catalogue

/-! # The documents that load

Each reader succeeds exactly on the nodes that are valid for it (`CodeGraph.LoadResult.Decides`).
Over the entries of a document, indices and keys resolve exactly where they lead to something in the
catalogue of the document, so an entry is read exactly when its node spells a construct
(`CodeGraph.Construct.ofNode_decides`), and a document loads exactly when it is valid
(`CodeGraph.Project.load_ok_iff_valid`).
-/

namespace CodeGraph

namespace LoadResult

variable {α β γ : Type} {holds first second : Prop}

/-- A result is a value exactly when a statement holds. -/
def Decides (result : LoadResult α) (holds : Prop) : Prop := (∃ value, result = .ok value) ↔ holds

@[simp]
theorem decides_ok {value : α} : Decides (.ok value) holds ↔ holds := by
  simp [Decides]

@[simp]
theorem decides_error {error : LoadError} :
    Decides (.error error : LoadResult α) holds ↔ ¬ holds := by
  simp [Decides]

/-- Two steps decide both of what they decide. -/
theorem Decides.bind {result : LoadResult α} {next : α → LoadResult β}
    (atFirst : Decides result first) (later : ∀ value, Decides (next value) second) :
    Decides (result >>= next) (first ∧ second) := by
  cases result with
  | ok value =>
      have met : first := decides_ok.mp atFirst
      simpa [met] using later value
  | error cause =>
      have fails : ¬ first := decides_error.mp atFirst
      simp [fails]

/-- A step that is followed by a value decides what it decides. -/
theorem Decides.returns {result : LoadResult α} {f : α → β} (decides : Decides result holds) :
    Decides (result >>= fun value => pure (f value)) holds := by
  cases result with
  | ok value => exact decides_ok.mpr (decides_ok.mp decides)
  | error cause => exact decides_error.mpr (decides_error.mp decides)

theorem Decides.map {result : LoadResult α} {f : α → β} (decides : Decides result holds) :
    Decides (f <$> result) holds :=
  decides.returns

theorem Decides.within {result : LoadResult α} {path : Path} (decides : Decides result holds) :
    Decides (result.within path) holds := by
  simpa only [Decides, within_eq_ok_iff] using decides

theorem Decides.atField {result : LoadResult α} {field : String} (decides : Decides result holds) :
    Decides (result.atField field) holds :=
  decides.within

/-- Two steps that are decided together, with more steps behind them. -/
theorem Decides.bind_bind {result : LoadResult α} {next : α → LoadResult β}
    {last : β → LoadResult γ} (decides : Decides (result >>= next) first)
    (later : ∀ value, Decides (last value) second) :
    Decides (result >>= fun value => next value >>= last) (first ∧ second) := by
  rw [← bind_assoc]
  exact decides.bind later

/-- Steps in a row that are followed by a value decide what they decide. -/
theorem Decides.bind_returns {result : LoadResult α} {next : α → LoadResult β} {f : β → γ}
    (decides : Decides (result >>= next) holds) :
    Decides (result >>= fun value => next value >>= fun later => pure (f later)) holds := by
  rw [← bind_assoc]
  exact decides.returns

/-- Items decide what holds of each of them. -/
theorem Decides.forItems {read : Node → LoadResult β} {holds : Node → Prop}
    (each : ∀ item, Decides (read item) (holds item)) (position : Nat) (items : List Node) :
    Decides (forItems read position items) (∀ item ∈ items, holds item) := by
  induction items generalizing position with
  | nil => simp [LoadResult.forItems]
  | cons item rest ih =>
      rw [List.forall_mem_cons]
      exact (each item).within.bind fun _ => (ih (position + 1)).returns

/-- Steps in a row decide what holds of each item. -/
theorem Decides.mapM {read : α → LoadResult β} {holds : α → Prop}
    (each : ∀ item, Decides (read item) (holds item)) (items : List α) :
    Decides (items.mapM read) (∀ item ∈ items, holds item) := by
  induction items with
  | nil => simp [pure, Except.pure]
  | cons item rest ih =>
      rw [List.forall_mem_cons, List.mapM_cons]
      exact (each item).bind fun _ => ih.returns

section Fields

variable {node value : Node} {field : String} {expected : Shape} {view : Node → Option α}
  {next : α → LoadResult β}

/-- A value that is viewed and worked on. -/
theorem viewed_decides (viewed : holds → ∃ seen, view value = some seen)
    (each : ∀ seen, view value = some seen → Decides (next seen) holds) :
    Decides (liftM (Node.viewField field expected view value) >>= next) holds := by
  unfold Node.viewField
  cases sees : view value with
  | none =>
      refine decides_error.mpr fun met => ?_
      obtain ⟨seen, same⟩ := viewed met
      rw [sees] at same
      cases same
  | some seen => exact each seen sees

/-- A required field whose value is viewed and worked on. -/
theorem required_decides {holds : Node → Prop}
    (viewed : ∀ value, holds value → ∃ seen, view value = some seen)
    (each : ∀ value seen, view value = some seen → Decides (next seen) (holds value)) :
    Decides (liftM (node.field field >>= Node.viewField field expected view) >>= next)
      (node.Required field holds) := by
  cases found : node.field field with
  | error cause =>
      refine decides_error.mpr fun required => ?_
      obtain ⟨value, present, -⟩ := required
      rw [Node.field_eq_ok_iff.mpr present] at found
      cases found
  | ok value =>
      have present := Node.field_eq_ok_iff.mp found
      have same : node.Required field holds ↔ holds value := by simp [Node.Required, present]
      rw [same]
      exact viewed_decides (viewed value) (each value)

theorem readString_decides :
    Decides (liftM (node.readString field) : LoadResult String)
      (node.Required field Node.IsString) := by
  have decides : Decides ((liftM (node.readString field) : LoadResult String) >>= pure)
      (node.Required field Node.IsString) := by
    apply required_decides
    · rintro _ ⟨text, rfl⟩
      exact ⟨text, rfl⟩
    · intro value text spelled
      exact decides_ok.mpr ⟨text, Node.string?_eq_some_iff.mp spelled⟩
  rwa [bind_pure] at decides

/-- Whatever is optional holds of a field that is absent. -/
theorem optional_of_absent {holds : Node → Prop} (absent : node.field? field = none) :
    node.Optional field holds := by
  intro value present
  rw [absent] at present
  cases present

/-- What is optional has to hold of a field that is there. -/
theorem optional_iff {holds : Node → Prop} (present : node.field? field = some value) :
    node.Optional field holds ↔ holds value := by
  simp [Node.Optional, present]

section Items

variable {read : Node → LoadResult β} {holds : Node → Prop}
  (each : ∀ item, Decides (read item) (holds item))
include each

/-- A list that is worked through decides whether its node is a list of what each item has to be. -/
theorem list_decides {items : List Node} (sees : value.items? = some items) :
    Decides (LoadResult.forItems read 0 items) (value.ListOf holds) := by
  cases Node.items?_eq_some_iff.mp sees
  have same : (Node.array items).ListOf holds ↔ ∀ item ∈ items, holds item := by simp [Node.ListOf]
  rw [same]
  exact Decides.forItems each 0 items

/-- An optional list, whose items are worked on one after the other. -/
theorem optionalItems_decides :
    Decides (liftM (node.readArrayOrEmpty field) >>= fun items =>
        LoadResult.atField field (LoadResult.forItems read 0 items))
      (node.Optional field (Node.ListOf · holds)) := by
  unfold Node.readArrayOrEmpty
  cases present : node.field? field with
  | none => exact decides_ok.mpr (optional_of_absent present)
  | some value =>
      rw [optional_iff present]
      apply viewed_decides
      · rintro ⟨items, rfl, -⟩
        exact ⟨items, rfl⟩
      · intro items sees
        exact (list_decides each sees).atField

end Items

end Fields

end LoadResult

open LoadResult

namespace Draft

section Resolving

variable {document : Node} {entries : List Entry}
  (reserved : Entry.ReservedFor document.catalogue entries) {role : Role}
include reserved

/-- An index resolves where it leads to something that can play the role. -/
theorem resolveIndex_decides (index : Int) :
    Decides ((ofEntries entries).resolveIndex index : LoadResult (Ref role))
      (document.Leads role index) := by
  have leads : document.Leads role index ↔ ∃ entry,
      atIndex? (Entry.listedIn entries role.table) index = some entry ∧
        role.accepts entry.kind = true := by
    simp only [Node.Leads, ← reserved.kinds_listedIn, List.getElem?_map, Option.map_eq_some_iff,
      atIndex?_eq_some_iff]
    constructor
    · rintro ⟨position, _, rfl, ⟨entry, here, rfl⟩, accepts⟩
      exact ⟨entry, ⟨position, rfl, here⟩, accepts⟩
    · rintro ⟨entry, ⟨position, rfl, here⟩, accepts⟩
      exact ⟨position, _, rfl, ⟨entry, here, rfl⟩, accepts⟩
  rw [leads]
  rcases @resolveIndex_cases entries role index with
    ⟨outside, failed⟩ | ⟨entry, id, listed, -, -, resolved⟩
  · rw [failed, outside]
    simp
  · rw [resolved, listed]
    split <;> simp [*]

/-- A key resolves where its ordinal is that of a declared method of its name. -/
theorem resolveKey_decides (text : String) :
    Decides ((ofEntries entries).resolveKey text : LoadResult MethodDeclRef)
      (document.IsKey (.string text)) := by
  have isKey : document.IsKey (.string text) ↔ ∃ key, Key.parse? text = some key ∧
      1 ≤ key.ordinal ∧ key.ordinal ≤ (Entry.namedIn entries .methods key.name).length := by
    simp [Node.IsKey, reserved.length_namedIn]
  rw [isKey]
  rcases @resolveKey_cases entries (.only .methodDecl) text with
    ⟨malformed, failed⟩ | ⟨key, parsed, ⟨unknown, failed⟩ | ⟨outside, failed⟩ | found⟩
  · rw [failed, malformed]
    simp
  · rw [failed, parsed]
    have none : Entry.namedIn entries .methods key.name = [] := unknown
    simp [none]
    omega
  · rw [failed, parsed]
    have outside : atIndex? (Entry.namedIn entries .methods key.name) key.ordinal = none := outside
    rw [atIndex?_eq_none_iff] at outside
    simp
    omega
  · obtain ⟨entry, id, position, picked, -, resolved⟩ := found
    have declared := Entry.kind_of_mem_namedIn (mem_of_atIndex? picked)
    obtain ⟨before, ordinal, here⟩ := atIndex?_eq_some_iff.mp picked
    have inside : before < (Entry.namedIn entries .methods key.name).length :=
      (List.getElem?_eq_some_iff.mp here).choose
    rw [resolved, declared]
    exact decides_ok.mpr ⟨key, parsed, by omega, by omega⟩

omit reserved in
/-- An integer is an index if it leads somewhere. -/
theorem isIndex_iff {node : Node} {index : Int} (integer : node.int? = some index) :
    document.IsIndex role node ↔ document.Leads role index := by
  simp [Node.IsIndex, integer]

/-- Resolving a node as an index decides whether it is one. -/
theorem refOfIndexNode_decides (node : Node) :
    Decides ((ofEntries entries).refOfIndexNode node : LoadResult (Ref role))
      (document.IsIndex role node) := by
  unfold refOfIndexNode Node.expectInt
  cases integer : node.int? with
  | none =>
      refine decides_error.mpr fun isIndex => ?_
      obtain ⟨index, same, -⟩ := isIndex
      rw [integer] at same
      cases same
  | some index =>
      rw [isIndex_iff integer]
      exact resolveIndex_decides reserved index

/-- Resolving a node as a key decides whether it is one. -/
theorem refOfKeyNode_decides (node : Node) :
    Decides ((ofEntries entries).refOfKeyNode node : LoadResult MethodDeclRef)
      (document.IsKey node) := by
  unfold refOfKeyNode Node.expectString
  cases spelled : node.string? with
  | none =>
      refine decides_error.mpr fun isKey => ?_
      obtain ⟨text, _, rfl, -⟩ := isKey
      cases spelled
  | some text =>
      cases Node.string?_eq_some_iff.mp spelled
      exact resolveKey_decides reserved text

variable {node : Node} {field : String}

theorem readIndex_decides :
    Decides ((ofEntries entries).readIndex node field : LoadResult (Ref role))
      (node.Required field (document.IsIndex role)) := by
  apply required_decides
  · rintro value ⟨index, integer, -⟩
    exact ⟨index, integer⟩
  · intro value index integer
    rw [isIndex_iff integer]
    exact (resolveIndex_decides reserved index).atField

theorem readIndex?_decides :
    Decides ((ofEntries entries).readIndex? node field : LoadResult (Option (Ref role)))
      (node.Optional field (document.IsIndex role)) := by
  unfold readIndex?
  split
  · rename_i absent
    exact decides_ok.mpr (optional_of_absent absent)
  · rename_i value present
    rw [optional_iff present]
    exact (refOfIndexNode_decides reserved value).map.atField

theorem readIndexList_decides :
    Decides ((ofEntries entries).readIndexList node field : LoadResult (List (Ref role)))
      (node.Required field (Node.ListOf · (document.IsIndex role))) := by
  apply required_decides
  · rintro value ⟨items, rfl, -⟩
    exact ⟨items, rfl⟩
  · intro value items sees
    exact (list_decides (refOfIndexNode_decides reserved) sees).atField

omit reserved in
/-- Resolving the items of a list decides what holds of each of them. -/
theorem refsOfListNode_decides {read : Node → LoadResult (Ref role)} {holds : Node → Prop}
    (each : ∀ item, Decides (read item) (holds item)) (node : Node) :
    Decides (refsOfListNode read node) (node.ListOf holds) := by
  unfold refsOfListNode Node.expectArray
  cases sees : node.items? with
  | none =>
      refine decides_error.mpr fun list => ?_
      obtain ⟨items, rfl, -⟩ := list
      cases sees
  | some items => exact list_decides each sees

theorem readIndexListOrEmpty_decides :
    Decides ((ofEntries entries).readIndexListOrEmpty node field : LoadResult (List (Ref role)))
      (node.Optional field (Node.ListOf · (document.IsIndex role))) := by
  unfold readIndexListOrEmpty
  split
  · rename_i absent
    exact decides_ok.mpr (optional_of_absent absent)
  · rename_i value present
    rw [optional_iff present]
    exact (refsOfListNode_decides (refOfIndexNode_decides reserved) value).atField

theorem readKey_decides :
    Decides ((ofEntries entries).readKey node field : LoadResult MethodDeclRef)
      (node.Required field document.IsKey) := by
  apply required_decides
  · rintro value ⟨text, _, rfl, -⟩
    exact ⟨text, rfl⟩
  · intro value text spelled
    cases Node.string?_eq_some_iff.mp spelled
    exact (resolveKey_decides reserved text).atField

theorem readKeyListOrEmpty_decides :
    Decides ((ofEntries entries).readKeyListOrEmpty node field : LoadResult (List MethodDeclRef))
      (node.Optional field (Node.ListOf · document.IsKey)) := by
  unfold readKeyListOrEmpty
  split
  · rename_i absent
    exact decides_ok.mpr (optional_of_absent absent)
  · rename_i value present
    rw [optional_iff present]
    exact (refsOfListNode_decides (refOfKeyNode_decides reserved) value).atField

end Resolving

end Draft

section Constructs

open Draft

variable {document : Node} {entries : List Entry}
  (reserved : Entry.ReservedFor document.catalogue entries) {node : Node}
include reserved

/-- Reading methods decides whether each name has a signature. -/
theorem readMethodEntries_decides :
    Decides (liftM (node.readObjectOrEmpty "methods") >>= fun methods =>
        atField "methods" (methods.mapM (readMethodEntry (ofEntries entries))))
      (node.Optional "methods" (Node.MapTo · (document.IsIndex (.only .signature)))) := by
  unfold Node.readObjectOrEmpty
  cases present : node.field? "methods" with
  | none => exact decides_ok.mpr (optional_of_absent present)
  | some value =>
      rw [optional_iff present]
      apply viewed_decides
      · rintro ⟨methods, rfl, -⟩
        exact ⟨methods, rfl⟩
      · intro methods sees
        cases Node.object?_eq_some_iff.mp sees
        have same : (Node.object methods).MapTo (document.IsIndex (.only .signature)) ↔
            ∀ entry ∈ methods, document.IsIndex (.only .signature) entry.2 := by
          simp [Node.MapTo]
        rw [same]
        refine (Decides.mapM (fun entry => ?_) methods).atField
        exact (refOfIndexNode_decides reserved entry.2).returns.atField

/-- Reading an abstract method decides whether the item spells one. -/
theorem readAbstract_decides (node : Node) :
    Decides (readAbstract (ofEntries entries) node) (document.SpellsAbstract node) :=
  readString_decides.bind fun _ => (readIndex_decides reserved).returns

/-- Reading a field of a structure decides whether the item spells one. -/
theorem Field.ofNode_decides (node : Node) :
    Decides (Field.ofNode (ofEntries entries) node) (document.SpellsField node) :=
  readString_decides.bind fun _ => (readIndex_decides reserved).returns

/-- Reading arguments decides whether the items spell some. -/
theorem Argument.readList_decides {field : String} :
    Decides (Argument.readList (ofEntries entries) node field)
      (node.Optional field (Node.ListOf · document.SpellsArgument)) :=
  optionalItems_decides fun _ => (readIndex_decides reserved).returns

/-- Reading the head of a declaration decides whether the entry spells one. -/
theorem DeclHeader.ofNode_decides {owner : PackageRef} :
    Decides (DeclHeader.ofNode (ofEntries entries) owner node) (document.SpellsHeader node) :=
  readString_decides.bind fun _ => (readIndexListOrEmpty_decides reserved).returns

/-- Reading a description of an interface decides whether the entry spells one. -/
theorem InterfaceDesc.ofNode_decides :
    Decides (InterfaceDesc.ofNode (ofEntries entries) node)
      (document.Spells .interfaceDesc node) :=
  (readMethodEntries_decides reserved).bind_bind fun _ =>
  (optionalItems_decides (readAbstract_decides reserved)).bind_bind fun _ =>
  (readIndexListOrEmpty_decides reserved).bind fun _ =>
  (readIndexListOrEmpty_decides reserved).bind fun _ =>
  (readIndexListOrEmpty_decides reserved).returns

/-- Reading a signature decides whether the entry spells one. -/
theorem Signature.ofNode_decides :
    Decides (Signature.ofNode (ofEntries entries) node) (document.Spells .signature node) :=
  (readIndexListOrEmpty_decides reserved).bind fun _ =>
  (Argument.readList_decides reserved).bind fun _ =>
  (Argument.readList_decides reserved).returns

/-- Reading a description of a structure decides whether the entry spells one. -/
theorem StructDesc.ofNode_decides :
    Decides (StructDesc.ofNode (ofEntries entries) node) (document.Spells .structDesc node) :=
  (optionalItems_decides (Field.ofNode_decides reserved)).bind_returns

end Constructs

/-- A basic type is named by its text or by its field for the name. -/
theorem identityName_basic_decides {node : Node} :
    Decides (identityName .basic node) (node.IsString ∨ node.Required "name" Node.IsString) := by
  cases node with
  | string text => exact decides_ok.mpr (.inl ⟨text, rfl⟩)
  | _ =>
      rw [or_iff_right (by rintro ⟨text, same⟩; cases same)]
      exact readString_decides.returns

namespace Construct

variable {document : Node} {entries : List Entry}
  (reserved : Entry.ReservedFor document.catalogue entries) {kind : Kind} {node : Node}
include reserved

/-- Reading a type at the top level decides whether the entry spells one. -/
theorem ofTypeNode_decides (suits : Placement.topLevel.Suits kind) :
    Decides (ofTypeNode (.ofEntries entries) kind node) (document.Spells kind node) := by
  cases kind with
  | basic => exact identityName_basic_decides.returns
  | interfaceDesc => exact (InterfaceDesc.ofNode_decides reserved).returns
  | named => exact readString_decides.bind fun _ => (Draft.readIndex_decides reserved).returns
  | signature => exact (Signature.ofNode_decides reserved).returns
  | solid =>
      exact (Draft.readIndex_decides reserved).bind fun _ =>
        (Draft.readIndexList_decides reserved).returns
  | structDesc => exact (StructDesc.ofNode_decides reserved).returns
  | union =>
      exact (Draft.readIndexListOrEmpty_decides reserved).bind fun _ =>
        (Draft.readIndexListOrEmpty_decides reserved).returns
  | _ => simp [Placement.Suits, Allocation.typeLists] at suits

/-- Reading a member of a package decides whether the entry spells one. -/
theorem ofMemberNode_decides {owner : PackageRef} (suits : (Placement.member owner).Suits kind) :
    Decides (ofMemberNode (.ofEntries entries) kind owner node) (document.Spells kind node) := by
  cases kind with
  | interfaceDecl =>
      exact (DeclHeader.ofNode_decides reserved).bind fun _ =>
        (Draft.readIndex_decides reserved).returns
  | interfaceInst =>
      exact (Draft.readIndex_decides reserved).bind fun _ =>
        (Draft.readIndexList_decides reserved).bind fun _ =>
        (Draft.readIndex_decides reserved).returns
  | objectDecl =>
      exact (DeclHeader.ofNode_decides reserved).bind fun _ =>
        (Draft.readIndex_decides reserved).bind fun _ =>
        (Draft.readKeyListOrEmpty_decides reserved).returns
  | objectInst =>
      exact (Draft.readIndex_decides reserved).bind fun _ =>
        (Draft.readIndexList_decides reserved).bind fun _ =>
        (Draft.readIndex_decides reserved).bind fun _ =>
        (Draft.readIndexListOrEmpty_decides reserved).returns
  | methodDecl =>
      exact (DeclHeader.ofNode_decides reserved).bind fun _ =>
        (Draft.readIndex_decides reserved).bind fun _ =>
        (Draft.readIndex?_decides reserved).returns
  | methodInst =>
      exact (Draft.readKey_decides reserved).bind fun _ =>
        (Draft.readIndexList_decides reserved).bind fun _ =>
        (Draft.readIndex_decides reserved).bind fun _ =>
        (Draft.readIndex?_decides reserved).returns
  | value => exact readString_decides.bind fun _ => (Draft.readIndex?_decides reserved).returns
  | _ => simp [Placement.Suits, Allocation.memberLists] at suits

/-- An entry that stands where its kind can stand is read exactly when its node spells a construct
of its kind. -/
theorem ofNode_decides {placement : Placement} (suits : placement.Suits kind) :
    Decides (ofNode (.ofEntries entries) kind placement node) (document.Spells kind node) := by
  cases placement with
  | topLevel => exact ofTypeNode_decides reserved suits
  | member owner => exact ofMemberNode_decides reserved suits
  | package members =>
      cases suits
      exact readString_decides.bind fun _ => (Draft.readIndexListOrEmpty_decides reserved).returns

end Construct

/-- What spells a construct of a kind that is keyed has a name. -/
theorem exists_name_of_spells {document node : Node} {kind : Kind}
    (spells : document.Spells kind node) : ∃ name, identityName kind node = .ok name := by
  cases kind with
  | basic => exact identityName_basic_decides.mpr spells
  | named => exact readString_decides.returns.mpr spells.1
  | interfaceDecl => exact readString_decides.returns.mpr spells.1.1
  | objectDecl => exact readString_decides.returns.mpr spells.1.1
  | methodDecl => exact readString_decides.returns.mpr spells.1.1
  | value => exact readString_decides.returns.mpr spells.1
  | package => exact readString_decides.returns.mpr spells.1
  | _ => exact ⟨none, rfl⟩

namespace Project

/-- **A document loads exactly when it is valid.** -/
theorem load_ok_iff_valid (document : Node) :
    (∃ project, load document = .ok project) ↔ document.shape = .object ∧ document.Valid := by
  have spelled {entries : List Entry} (ofDocument : Entry.ofDocument document = .ok entries)
      (reserved : Entry.ReservedFor document.catalogue entries) {entry : Entry}
      (member : entry ∈ entries) :
      Decides (entry.construct (.ofEntries entries)) (document.Spells entry.kind entry.node) :=
    (Construct.ofNode_decides reserved
      (Entry.standsIn_of_ofDocument ofDocument entry member).suits).within
  constructor
  · intro ⟨project, loaded⟩
    obtain ⟨entries, constructs, object, ofDocument, read, -⟩ := load_eq_ok_iff.mp loaded
    obtain ⟨typeLists, packages, memberLists, reserved⟩ :=
      Entry.reservedFor_of_ofDocument ofDocument
    refine ⟨object, typeLists, packages, memberLists, ?_⟩
    intro kind node listed
    rw [← reserved.items, List.mem_map] at listed
    obtain ⟨entry, member, same⟩ := listed
    cases same
    apply (spelled ofDocument reserved member).mp
    exact exists_value_of_mapM read member
  · rintro ⟨object, valid⟩
    obtain ⟨entries, ofDocument⟩ := Entry.exists_ofDocument valid.typeLists valid.packages
      valid.memberLists fun item listed => exists_name_of_spells (valid.entries _ _ listed)
    obtain ⟨-, -, -, reserved⟩ := Entry.reservedFor_of_ofDocument ofDocument
    obtain ⟨constructs, read⟩ := exists_mapM_eq_ok fun entry member => by
      apply (spelled ofDocument reserved member).mpr
      apply valid.entries
      rw [← reserved.items]
      exact List.mem_map_of_mem member
    exact ⟨_, load_eq_ok_iff.mpr ⟨entries, constructs, object, ofDocument, read, rfl⟩⟩

end Project

end CodeGraph

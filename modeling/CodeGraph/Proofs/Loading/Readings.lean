import CodeGraph.Proofs.Document.Replacing
import CodeGraph.Proofs.Loading.Places

/-! # What a kind reads

The readers of an entry go through its fields one after the other, and which fields these are and
how they are read depends on the kind alone (`CodeGraph.Kind.readings`). So whether an entry is
read, and how it fails, is known from a list of fields (`CodeGraph.Construct.outcome_ofNode`).
-/

namespace CodeGraph

namespace LoadResult

variable {α β γ : Type}

/-- Whether a result fails, and how, but not what is found. -/
def outcome (result : LoadResult α) : LoadResult Unit := result.map fun _ => ()

@[simp]
theorem outcome_ok (value : α) : outcome (.ok value) = .ok () := rfl

@[simp]
theorem outcome_error (error : LoadError) : outcome (.error error : LoadResult α) = .error error :=
  rfl

@[simp]
theorem outcome_pure (value : α) : outcome (pure value) = pure () := rfl

@[simp]
theorem outcome_unit (result : LoadResult Unit) : result.outcome = result := by
  cases result <;> rfl

@[simp]
theorem outcome_bind (result : LoadResult α) (next : α → LoadResult β) :
    (result >>= next).outcome = result >>= fun value => (next value).outcome := by
  cases result <;> rfl

@[simp]
theorem outcome_map (f : α → β) (result : LoadResult α) :
    (f <$> result).outcome = result.outcome := by
  cases result <;> rfl

/-- What comes first matters to the rest only by its outcome. -/
theorem bind_outcome (result : LoadResult α) (next : LoadResult β) :
    (result.outcome >>= fun _ => next) = (result >>= fun _ => next) := by
  cases result <;> rfl

/-- The outcome is good if there is a value. -/
theorem outcome_eq_ok_iff {result : LoadResult α} :
    result.outcome = .ok () ↔ ∃ value, result = .ok value := by
  cases result <;> simp

/-- The outcome is the error of the result. -/
theorem outcome_eq_error_iff {result : LoadResult α} {error : LoadError} :
    result.outcome = .error error ↔ result = .error error := by
  cases result <;> simp

/-- The path of an outcome is that of the result. -/
theorem outcome_within (outer : Path) (result : LoadResult α) :
    (result.within outer).outcome = result.outcome.within outer := by
  cases result <;> rfl

/-- Items are read one by one, up to the first that fails. -/
theorem outcome_forItems_cons (read : α → LoadResult β) (position : Nat) (item : α)
    (rest : List α) :
    (forItems read position (item :: rest)).outcome =
      (read item).outcome.within [.index position] >>= fun _ =>
        (forItems read (position + 1) rest).outcome := by
  cases first : read item <;> cases later : forItems read (position + 1) rest <;>
    simp [forItems, first, later, atIndex, LoadResult.within, Except.mapError]

/-- Lists fail alike whose items do. -/
theorem outcome_forItems {read : α → LoadResult β} {read' : α → LoadResult γ}
    (alike : ∀ item, (read item).outcome = (read' item).outcome) (position : Nat)
    (items : List α) :
    (forItems read position items).outcome = (forItems read' position items).outcome := by
  induction items generalizing position with
  | nil => rfl
  | cons item rest ih => rw [outcome_forItems_cons, outcome_forItems_cons, alike, ih]

/-- With another item at a position, a list that was read fails as that item does. -/
theorem outcome_forItems_modify {read : α → LoadResult β} {start : Nat} {items : List α}
    (worked : (forItems read start items).outcome = .ok ()) {position : Nat} {old : α}
    (here : items[position]? = some old) (change : α → α) :
    (forItems read start (items.modify position change)).outcome =
      (read (change old)).outcome.within [.index (start + position)] := by
  induction items generalizing start position with
  | nil => cases here
  | cons item rest ih =>
      rw [outcome_forItems_cons, bind_eq_ok_iff] at worked
      obtain ⟨_, first, later⟩ := worked
      cases position with
      | zero =>
          cases here
          rw [List.modify_zero_cons, outcome_forItems_cons, later]
          cases (read (change old)).outcome <;> rfl
      | succ position =>
          rw [List.modify_succ_cons, outcome_forItems_cons, first, ok_bind, ih later here,
            Nat.add_assoc, Nat.add_comm 1]

end LoadResult

open LoadResult

/-- How a field of an item is read. -/
inductive ItemReading
  /-- A required text. -/
  | text
  /-- A required index. -/
  | index (role : Role)
deriving DecidableEq

namespace ItemReading

/-- The fields of a parameter or result, except for its name, which may be anything. -/
def ofArgument : List (String × ItemReading) := [("type", index .anyType)]

/-- The fields of a field of a structure. -/
def ofField : List (String × ItemReading) := [("name", text), ("type", index .anyType)]

/-- The fields of an abstract method. -/
def ofAbstract : List (String × ItemReading) :=
  [("name", text), ("signature", index (.only .signature))]

/-- Reads a field of an item. -/
def run (draft : Draft) (item : Node) (field : String) : ItemReading → LoadResult Unit
  | text => outcome (item.readString field : LoadResult String)
  | index role => outcome (draft.readIndex item field : LoadResult (Ref role))

/-- Reads the fields of an item. -/
def runAll (draft : Draft) (fields : List (String × ItemReading)) (item : Node) : LoadResult Unit :=
  fields.forM fun (name, reading) => reading.run draft item name

end ItemReading

/-- How a field of an entry is read. -/
inductive FieldReading
  | text
  | index (role : Role)
  | index? (role : Role)
  | indices (role : Role)
  | indicesOrEmpty (role : Role)
  | key (role : Role)
  | keysOrEmpty (role : Role)
  /-- An optional list of items. -/
  | items (fields : List (String × ItemReading))
  /-- An optional map from names to signatures. -/
  | methods
deriving DecidableEq

namespace FieldReading

/-- Reads a field. -/
def run (draft : Draft) (node : Node) (field : String) : FieldReading → LoadResult Unit
  | text => outcome (node.readString field : LoadResult String)
  | index role => outcome (draft.readIndex node field : LoadResult (Ref role))
  | index? role => outcome (draft.readIndex? node field : LoadResult (Option (Ref role)))
  | indices role => outcome (draft.readIndexList node field : LoadResult (List (Ref role)))
  | indicesOrEmpty role =>
    outcome (draft.readIndexListOrEmpty node field : LoadResult (List (Ref role)))
  | key role => outcome (draft.readKey node field : LoadResult (Ref role))
  | keysOrEmpty role =>
    outcome (draft.readKeyListOrEmpty node field : LoadResult (List (Ref role)))
  | items fields => do
    let found ← node.readArrayOrEmpty field
    outcome (LoadResult.atField field (forItems (ItemReading.runAll draft fields) 0 found))
  | methods => do
    let found ← node.readObjectOrEmpty field
    outcome (LoadResult.atField field (found.mapM (readMethodEntry draft)))

/-- Whether a field has to be there. -/
def isRequired : FieldReading → Bool
  | text | index _ | indices _ | key _ => true
  | _ => false

end FieldReading

namespace Kind

/-- The fields that are read for a kind, in order, except those that are never wrong. A basic may
be no object at all, so it has none. -/
def readings : Kind → List (String × FieldReading)
  | basic => []
  | interfaceDesc => [("methods", .methods), ("abstracts", .items ItemReading.ofAbstract),
    ("exact", .indicesOrEmpty .anyType), ("approx", .indicesOrEmpty .anyType),
    ("inherits", .indicesOrEmpty .anyType)]
  | named => [("name", .text), ("type", .index .anyType)]
  | signature => [("typeParams", .indicesOrEmpty (.only named)),
    ("params", .items ItemReading.ofArgument), ("results", .items ItemReading.ofArgument)]
  | solid => [("target", .index .anyType), ("typeArgs", .indices .anyType)]
  | structDesc => [("fields", .items ItemReading.ofField)]
  | union => [("exact", .indicesOrEmpty .anyType), ("approx", .indicesOrEmpty .anyType)]
  | interfaceDecl => [("name", .text), ("typeParams", .indicesOrEmpty (.only named)),
    ("interface", .index (.only interfaceDesc))]
  | interfaceInst => [("decl", .index (.only interfaceDecl)), ("instanceTypes", .indices .anyType),
    ("resolved", .index (.only interfaceDesc))]
  | objectDecl => [("name", .text), ("typeParams", .indicesOrEmpty (.only named)),
    ("data", .index (.only structDesc)), ("methods", .keysOrEmpty (.only methodDecl))]
  | objectInst => [("decl", .index (.only objectDecl)), ("instanceTypes", .indices .anyType),
    ("resolved", .index (.only structDesc)), ("methods", .indicesOrEmpty (.only methodInst))]
  | methodDecl => [("name", .text), ("typeParams", .indicesOrEmpty (.only named)),
    ("signature", .index (.only signature)), ("receiver", .index? (.only objectDecl))]
  | methodInst => [("decl", .key (.only methodDecl)), ("instanceTypes", .indices .anyType),
    ("resolved", .index (.only signature)), ("receiver", .index? (.only objectInst))]
  | value => [("name", .text), ("type", .index? .anyType)]
  | package => [("name", .text), ("imports", .indicesOrEmpty (.only package))]

/-- Reads the fields of an entry. -/
def runAll (draft : Draft) (kind : Kind) (node : Node) : LoadResult Unit :=
  kind.readings.forM fun (field, reading) => reading.run draft node field

end Kind

section Outcomes

variable {draft : Draft}

theorem outcome_argument (item : Node) :
    (Argument.ofNode draft item).outcome =
      ItemReading.runAll draft ItemReading.ofArgument item := by
  simp only [Argument.ofNode, ItemReading.runAll, ItemReading.ofArgument, ItemReading.run,
    List.forM_eq_forM, List.forM_cons, List.forM_nil, outcome_bind, outcome_pure, bind_outcome]

theorem outcome_field (item : Node) :
    (Field.ofNode draft item).outcome = ItemReading.runAll draft ItemReading.ofField item := by
  simp only [Field.ofNode, ItemReading.runAll, ItemReading.ofField, ItemReading.run,
    List.forM_eq_forM, List.forM_cons, List.forM_nil, outcome_bind, outcome_pure, bind_outcome]

theorem outcome_abstract (item : Node) :
    (readAbstract draft item).outcome = ItemReading.runAll draft ItemReading.ofAbstract item := by
  simp only [readAbstract, ItemReading.runAll, ItemReading.ofAbstract, ItemReading.run,
    List.forM_eq_forM, List.forM_cons, List.forM_nil, outcome_bind, outcome_pure, bind_outcome]

end Outcomes

namespace Construct

variable {draft : Draft} {kind : Kind} {placement : Placement} {node : Node}

theorem outcome_ofTypeNode (listed : kind ∈ Allocation.typeLists.map Prod.snd)
    (other : kind ≠ .basic) :
    (ofTypeNode draft kind node).outcome = kind.runAll draft node := by
  have items {α : Type} {read : Node → LoadResult α} {fields : List (String × ItemReading)}
      (alike : ∀ item, (read item).outcome = ItemReading.runAll draft fields item)
      (field : String) (found : List Node) (next : LoadResult Unit) :
      (atField field (forItems read 0 found) >>= fun _ => next) =
        atField field (forItems (ItemReading.runAll draft fields) 0 found) >>= fun _ => next := by
    have same : (forItems read 0 found).outcome =
        (forItems (ItemReading.runAll draft fields) 0 found).outcome :=
      outcome_forItems (fun item => (alike item).trans (outcome_unit _).symm) 0 found
    rw [← bind_outcome, ← bind_outcome (atField field (forItems (ItemReading.runAll _ _) _ _)),
      atField, atField, outcome_within, outcome_within, same]
  have arguments := @items _ (Argument.ofNode draft) _ outcome_argument
  have fields := @items _ (Field.ofNode draft) _ outcome_field
  have abstracts := @items _ (readAbstract draft) _ outcome_abstract
  cases kind with
  | basic => exact absurd rfl other
  | interfaceDesc | signature | structDesc | named | union | solid =>
      simp only [ofTypeNode, InterfaceDesc.ofNode, Signature.ofNode, StructDesc.ofNode,
        Argument.readList, Kind.runAll, Kind.readings, FieldReading.run, List.forM_eq_forM,
        List.forM_cons, List.forM_nil, outcome_bind, outcome_pure, bind_outcome, bind_assoc,
        pure_bind, abstracts, arguments, fields]
  | _ => simp [Allocation.typeLists] at listed

theorem outcome_ofMemberNode {owner : PackageRef} (suits : (Placement.member owner).Suits kind) :
    (ofMemberNode draft kind owner node).outcome = kind.runAll draft node := by
  cases kind with
  | interfaceDecl | interfaceInst | objectDecl | objectInst | methodDecl | methodInst | value =>
      simp only [ofMemberNode, DeclHeader.ofNode, Kind.runAll, Kind.readings, FieldReading.run,
        List.forM_eq_forM, List.forM_cons, List.forM_nil, outcome_bind, outcome_pure, bind_outcome,
        bind_assoc, pure_bind]
  | _ => simp [Placement.Suits, Allocation.memberLists] at suits

theorem outcome_ofPackageNode {members : Members} :
    (ofPackageNode draft .package members node).outcome = Kind.package.runAll draft node := by
  simp only [ofPackageNode, Kind.runAll, Kind.readings, FieldReading.run, List.forM_eq_forM,
    List.forM_cons, List.forM_nil, outcome_bind, outcome_pure, bind_outcome]

/-- An entry is read, or fails, as its fields are read one after the other. -/
theorem outcome_ofNode (suits : placement.Suits kind) (other : kind ≠ .basic) :
    (ofNode draft kind placement node).outcome = kind.runAll draft node := by
  cases placement with
  | topLevel => exact outcome_ofTypeNode suits other
  | member owner => exact outcome_ofMemberNode suits
  | package members =>
      cases suits
      exact outcome_ofPackageNode

end Construct

end CodeGraph

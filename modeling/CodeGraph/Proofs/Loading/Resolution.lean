import CodeGraph.Project.Load
import CodeGraph.Proofs.Outcome

/-! # What reading an entry depends on

References resolve by the tables, by the keys and by the kinds of the slots. Whether a
slot is filled plays no part, so an entry reads alike over any two drafts of one shape
(`CodeGraph.Draft.SameShape.construct`). What is read has the kind that was asked for
(`CodeGraph.Construct.kind_of_ofNode`).
-/

namespace CodeGraph

namespace Draft

/-- Drafts with the same tables, the same keys and slots of the same kinds. They may differ in
which of their slots are filled. -/
structure SameShape (left right : Draft) : Prop where
  tables : left.tables = right.tables
  keys : left.keys = right.keys
  kinds : left.slots.map Slot.kind = right.slots.map Slot.kind

namespace SameShape

variable {left right : Draft} (same : left.SameShape right)
include same

/-- Drafts of one shape have the same kinds. -/
theorem kind (id : Nat) : left.kind id = right.kind id := by
  have lengths : left.slots.length = right.slots.length := by
    simpa using congrArg List.length same.kinds
  have kinds : (left.slots[id]?).map Slot.kind = (right.slots[id]?).map Slot.kind := by
    simpa using congrArg (·[id]?) same.kinds
  unfold Draft.kind entryAt
  cases atLeft : left.slots[id]? <;> cases atRight : right.slots[id]? <;>
    simp_all [Except.map]

/-- An index leads to the same place in drafts of the same shape. -/
theorem resolveIndex (role : Role) :
    @Draft.resolveIndex left role = @Draft.resolveIndex right role := by
  funext index
  simp only [Draft.resolveIndex, Draft.table, same.tables, same.kind]

/-- A key leads to the same place in drafts of the same shape. -/
theorem resolveKey (role : Role) :
    @Draft.resolveKey left role = @Draft.resolveKey right role := by
  funext text
  unfold Draft.resolveKey
  rw [same.keys, same.resolveIndex]

/-- Indices lead to the same in both drafts. -/
theorem refOfIndexNode (role : Role) :
    @Draft.refOfIndexNode left role = @Draft.refOfIndexNode right role := by
  funext node
  simp only [Draft.refOfIndexNode, same.resolveIndex]

/-- Keys lead to the same in both drafts. -/
theorem refOfKeyNode (role : Role) :
    @Draft.refOfKeyNode left role = @Draft.refOfKeyNode right role := by
  funext node
  simp only [Draft.refOfKeyNode, same.resolveKey]

theorem readIndex (role : Role) : @Draft.readIndex left role = @Draft.readIndex right role := by
  funext node field
  simp only [Draft.readIndex, same.resolveIndex]

theorem readIndex? (role : Role) : @Draft.readIndex? left role = @Draft.readIndex? right role := by
  funext node field
  simp only [Draft.readIndex?, same.refOfIndexNode]

theorem readIndexList (role : Role) :
    @Draft.readIndexList left role = @Draft.readIndexList right role := by
  funext node field
  simp only [Draft.readIndexList, same.refOfIndexNode]

theorem readIndexListOrEmpty (role : Role) :
    @Draft.readIndexListOrEmpty left role = @Draft.readIndexListOrEmpty right role := by
  funext node field
  simp only [Draft.readIndexListOrEmpty, same.refOfIndexNode]

theorem readKey (role : Role) : @Draft.readKey left role = @Draft.readKey right role := by
  funext node field
  simp only [Draft.readKey, same.resolveKey]

theorem readKeyListOrEmpty (role : Role) :
    @Draft.readKeyListOrEmpty left role = @Draft.readKeyListOrEmpty right role := by
  funext node field
  simp only [Draft.readKeyListOrEmpty, same.refOfKeyNode]

theorem methodEntry : readMethodEntry left = readMethodEntry right := by
  funext entry
  simp only [readMethodEntry, same.refOfIndexNode]

theorem abstract : readAbstract left = readAbstract right := by
  funext node
  simp only [readAbstract, same.readIndex]

theorem argument : Argument.ofNode left = Argument.ofNode right := by
  funext node
  simp only [Argument.ofNode, same.readIndex]

theorem field : Field.ofNode left = Field.ofNode right := by
  funext node
  simp only [Field.ofNode, same.readIndex]

theorem interfaceDesc : InterfaceDesc.ofNode left = InterfaceDesc.ofNode right := by
  funext node
  simp only [InterfaceDesc.ofNode, same.methodEntry, same.abstract, same.readIndexListOrEmpty]

theorem signature : Signature.ofNode left = Signature.ofNode right := by
  funext node
  simp only [Signature.ofNode, Argument.readList, same.argument, same.readIndexListOrEmpty]

theorem structDesc : StructDesc.ofNode left = StructDesc.ofNode right := by
  funext node
  simp only [StructDesc.ofNode, same.field]

theorem header : DeclHeader.ofNode left = DeclHeader.ofNode right := by
  funext owner node
  simp only [DeclHeader.ofNode, same.readIndexListOrEmpty]

/-- An entry reads alike over drafts of the same shape. -/
theorem construct (kind : Kind) (placement : Placement) (node : Node) :
    Construct.ofNode left kind placement node = Construct.ofNode right kind placement node := by
  cases placement with
  | topLevel =>
      cases kind <;>
        simp only [Construct.ofNode, Construct.ofTypeNode, same.interfaceDesc, same.signature,
          same.structDesc, same.readIndex, same.readIndexList, same.readIndexListOrEmpty]
  | member owner =>
      cases kind <;>
        simp only [Construct.ofNode, Construct.ofMemberNode, same.header, same.readIndex,
          same.readIndex?, same.readIndexList, same.readIndexListOrEmpty, same.readKey,
          same.readKeyListOrEmpty]
  | package members =>
      cases kind <;>
        simp only [Construct.ofNode, Construct.ofPackageNode, same.readIndexListOrEmpty]

end SameShape

end Draft

namespace Construct

variable {draft : Draft} {kind : Kind} {node : Node} {construct : Construct}

/-- A type at the top level has the kind that was asked for. -/
theorem kind_of_ofTypeNode (read : ofTypeNode draft kind node = .ok construct) :
    construct.kind = kind := by
  cases kind <;> simp only [ofTypeNode, bind_eq_ok_iff, pure_eq_ok_iff, throw_ne_ok] at read <;>
    grind [Construct.kind]

/-- A member of a package has the kind that was asked for. -/
theorem kind_of_ofMemberNode {owner : PackageRef}
    (read : ofMemberNode draft kind owner node = .ok construct) : construct.kind = kind := by
  cases kind <;> simp only [ofMemberNode, bind_eq_ok_iff, pure_eq_ok_iff, throw_ne_ok] at read <;>
    grind [Construct.kind]

/-- A package is of the kind that was asked for. -/
theorem kind_of_ofPackageNode {members : Members}
    (read : ofPackageNode draft kind members node = .ok construct) : construct.kind = kind := by
  cases kind <;> simp only [ofPackageNode, bind_eq_ok_iff, pure_eq_ok_iff, throw_ne_ok] at read
  obtain ⟨name, _, imports, _, rfl⟩ := read
  rfl

/-- A construct that is read has the kind it was read as. -/
theorem kind_of_ofNode {placement : Placement}
    (read : ofNode draft kind placement node = .ok construct) : construct.kind = kind := by
  cases placement with
  | topLevel => exact kind_of_ofTypeNode read
  | member owner => exact kind_of_ofMemberNode read
  | package members => exact kind_of_ofPackageNode read

end Construct

end CodeGraph

import CodeGraph.Proofs.Loading.Resolution

/-! # References that lead somewhere

A construct stores references in many places; `CodeGraph.Construct.refs` lists them all, each with
the role that its target has to play. A reference fits a list of kinds when its target is there and
can play its role. Whatever is read over a draft fits the kinds of the draft's slots
(`CodeGraph.Construct.refs_of_ofNode`): indices and keys are checked while they resolve, and the
references that come from the place of an entry are handed on.
-/

namespace CodeGraph

/-- A reference of any role. -/
structure AnyRef where
  role : Role
  id : Nat
deriving DecidableEq

/-- A reference with its role. -/
def Ref.any {role : Role} (ref : Ref role) : AnyRef := ⟨role, ref.id⟩

/-- Among constructs of the given kinds, the target of a reference is there and can play its
role. -/
def AnyRef.Fits (kinds : List Kind) (ref : AnyRef) : Prop :=
  ∃ kind, kinds[ref.id]? = some kind ∧ ref.role.accepts kind = true

/-- The references that a declaration header stores. -/
def DeclHeader.refs (header : DeclHeader) : List AnyRef :=
  header.package.any :: header.typeParams.map Ref.any

/-- The references to the members of a package. -/
def Members.refs (members : Members) : List AnyRef :=
  members.interfaceDecls.map Ref.any ++ members.interfaceInsts.map Ref.any ++
    members.objectDecls.map Ref.any ++ members.objectInsts.map Ref.any ++
    members.methodDecls.map Ref.any ++ members.methodInsts.map Ref.any ++ members.values.map Ref.any

/-- Every reference that a construct stores. -/
def Construct.refs : Construct → List AnyRef
  | basic _ => []
  | interfaceDesc desc =>
    desc.abstracts.map (·.2.any) ++ desc.exact.map Ref.any ++ desc.approx.map Ref.any ++
      desc.inherits.map Ref.any
  | named param => [param.type.any]
  | signature sig =>
    sig.typeParams.map Ref.any ++ sig.params.map (·.type.any) ++ sig.results.map (·.type.any)
  | solid expr => expr.target.any :: expr.typeArgs.map Ref.any
  | structDesc desc => desc.fields.map (·.type.any)
  | union alternatives => alternatives.exact.map Ref.any ++ alternatives.approx.map Ref.any
  | interfaceDecl decl => decl.header.refs ++ decl.interface.any :: decl.instances.map Ref.any
  | interfaceInst inst => inst.decl.any :: inst.resolved.any :: inst.instanceTypes.map Ref.any
  | objectDecl decl =>
    decl.header.refs ++ decl.data.any :: decl.methods.map Ref.any ++ decl.instances.map Ref.any
  | objectInst inst =>
    inst.decl.any :: inst.resolved.any :: inst.instanceTypes.map Ref.any ++
      inst.methods.map Ref.any
  | methodDecl decl =>
    decl.header.refs ++ decl.signature.any :: (decl.receiver.map Ref.any).toList ++
      decl.instances.map Ref.any
  | methodInst inst =>
    inst.decl.any :: inst.resolved.any :: inst.instanceTypes.map Ref.any ++
      (inst.receiver.map Ref.any).toList
  | value item => item.package.any :: (item.type.map Ref.any).toList
  | package pack => pack.imports.map Ref.any ++ pack.members.refs

/-- The references that the place of an entry hands to its construct. -/
def Placement.refs : Placement → List AnyRef
  | topLevel => []
  | member owner => [owner.any]
  | package members => members.refs

namespace Draft

/-- The kinds of the slots of a draft. -/
def kinds (draft : Draft) : List Kind := draft.slots.map Slot.kind

variable {draft : Draft} {role : Role} {node : Node} {field : String}

/-- The kinds of a draft can be looked up by id. -/
theorem kind_eq_ok_iff {id : Nat} {kind : Kind} :
    draft.kind id = .ok kind ↔ draft.kinds[id]? = some kind := by
  unfold Draft.kind entryAt kinds
  cases here : draft.slots[id]? <;> simp [here, Except.map]

/-- The reference behind an index fits. -/
theorem resolveIndex_fits {index : Int} {ref : Ref role}
    (found : draft.resolveIndex index = .ok ref) : ref.any.Fits draft.kinds := by
  unfold resolveIndex at found
  simp only at found
  split at found
  · cases found
  · rename_i id _
    simp only [bind_eq_ok_iff, LoadResult.liftBounds_eq_ok_iff, kind_eq_ok_iff] at found
    obtain ⟨kind, present, found⟩ := found
    split at found
    · rename_i accepted
      cases found
      exact ⟨kind, present, accepted⟩
    · cases found

/-- The reference behind a key fits. -/
theorem resolveKey_fits {text : String} {ref : Ref role}
    (found : draft.resolveKey text = .ok ref) : ref.any.Fits draft.kinds := by
  simp only [resolveKey, bind_eq_ok_iff] at found
  obtain ⟨key, -, found⟩ := found
  split at found
  · simp at found
  · split at found
    · cases found
    · exact resolveIndex_fits found

/-- A node leads by its index to what its role accepts. -/
theorem refOfIndexNode_fits {ref : Ref role} (read : draft.refOfIndexNode node = .ok ref) :
    ref.any.Fits draft.kinds := by
  simp only [refOfIndexNode, bind_eq_ok_iff] at read
  obtain ⟨index, -, found⟩ := read
  exact resolveIndex_fits found

/-- A node leads by its key to what its role accepts. -/
theorem refOfKeyNode_fits {ref : Ref role} (read : draft.refOfKeyNode node = .ok ref) :
    ref.any.Fits draft.kinds := by
  simp only [refOfKeyNode, bind_eq_ok_iff] at read
  obtain ⟨key, -, found⟩ := read
  exact resolveKey_fits found

theorem readIndex_fits {ref : Ref role} (read : draft.readIndex node field = .ok ref) :
    ref.any.Fits draft.kinds := by
  simp only [readIndex, bind_eq_ok_iff, LoadResult.atField_eq_ok_iff] at read
  obtain ⟨index, -, found⟩ := read
  exact resolveIndex_fits found

theorem readIndex?_fits {found : Option (Ref role)}
    (read : draft.readIndex? node field = .ok found) :
    ∀ ref ∈ found, ref.any.Fits draft.kinds := by
  unfold readIndex? at read
  split at read
  · cases read
    simp
  · simp only [LoadResult.atField_eq_ok_iff, map_eq_ok_iff] at read
    obtain ⟨ref, found, rfl⟩ := read
    simpa using refOfIndexNode_fits found

/-- References of a list fit if those of its items do. -/
theorem refsOfListNode_fits {read : Node → LoadResult (Ref role)}
    (reads : ∀ item ref, read item = .ok ref → ref.any.Fits draft.kinds) {refs : List (Ref role)}
    (found : refsOfListNode read node = .ok refs) : ∀ ref ∈ refs, ref.any.Fits draft.kinds := by
  simp only [refsOfListNode, bind_eq_ok_iff] at found
  obtain ⟨items, -, found⟩ := found
  exact LoadResult.forItems_forall reads found

theorem readIndexList_fits {refs : List (Ref role)}
    (read : draft.readIndexList node field = .ok refs) :
    ∀ ref ∈ refs, ref.any.Fits draft.kinds := by
  simp only [readIndexList, bind_eq_ok_iff, LoadResult.atField_eq_ok_iff] at read
  obtain ⟨items, -, found⟩ := read
  exact LoadResult.forItems_forall (fun _ _ => refOfIndexNode_fits) found

theorem readIndexListOrEmpty_fits {refs : List (Ref role)}
    (read : draft.readIndexListOrEmpty node field = .ok refs) :
    ∀ ref ∈ refs, ref.any.Fits draft.kinds := by
  unfold readIndexListOrEmpty at read
  split at read
  · cases read
    simp
  · exact refsOfListNode_fits (fun _ _ => refOfIndexNode_fits)
      (LoadResult.atField_eq_ok_iff.mp read)

theorem readKey_fits {ref : Ref role} (read : draft.readKey node field = .ok ref) :
    ref.any.Fits draft.kinds := by
  simp only [readKey, bind_eq_ok_iff, LoadResult.atField_eq_ok_iff] at read
  obtain ⟨key, -, found⟩ := read
  exact resolveKey_fits found

theorem readKeyListOrEmpty_fits {refs : List (Ref role)}
    (read : draft.readKeyListOrEmpty node field = .ok refs) :
    ∀ ref ∈ refs, ref.any.Fits draft.kinds := by
  unfold readKeyListOrEmpty at read
  split at read
  · cases read
    simp
  · exact refsOfListNode_fits (fun _ _ => refOfKeyNode_fits) (LoadResult.atField_eq_ok_iff.mp read)

end Draft

namespace InterfaceDesc

/-- Binding a method keeps to the signatures that were bound. -/
theorem mem_bind {name : String} {sig : SignatureRef} {bound : List (String × SignatureRef)}
    {pair : String × SignatureRef} (member : pair ∈ bind name sig bound) :
    pair = (name, sig) ∨ pair ∈ bound := by
  fun_induction bind name sig bound <;> grind

/-- Binding many methods adds none but these. -/
theorem mem_foldl_bind {pairs bound : List (String × SignatureRef)} {pair : String × SignatureRef}
    (member : pair ∈ pairs.foldl (fun bound (name, sig) => bind name sig bound) bound) :
    pair ∈ bound ∨ pair ∈ pairs := by
  induction pairs generalizing bound with
  | nil => exact .inl member
  | cons first rest ih =>
      rcases ih member with inBound | later
      · rcases mem_bind inBound with rfl | earlier
        · exact .inr List.mem_cons_self
        · exact .inl earlier
      · exact .inr (List.mem_cons_of_mem _ later)

end InterfaceDesc

section Reading

open Draft

variable {draft : Draft} {kind : Kind} {node : Node} {construct : Construct}

/-- The signature of an abstract method fits. -/
theorem readAbstract_fits {pair : String × SignatureRef}
    (read : readAbstract draft node = .ok pair) : pair.2.any.Fits draft.kinds := by
  simp only [readAbstract, bind_eq_ok_iff, pure_eq_ok_iff] at read
  obtain ⟨name, -, sig, found, rfl⟩ := read
  exact readIndex_fits found

/-- The signature under a name fits. -/
theorem readMethodEntry_fits {entry : String × Node} {pair : String × SignatureRef}
    (read : readMethodEntry draft entry = .ok pair) : pair.2.any.Fits draft.kinds := by
  simp only [readMethodEntry, LoadResult.atField_eq_ok_iff, bind_eq_ok_iff, pure_eq_ok_iff] at read
  obtain ⟨sig, found, rfl⟩ := read
  exact refOfIndexNode_fits found

/-- The references of a description of an interface fit. -/
theorem InterfaceDesc.refs_of_ofNode {desc : InterfaceDesc}
    (read : InterfaceDesc.ofNode draft node = .ok desc) :
    ∀ ref ∈ (Construct.interfaceDesc desc).refs, ref.Fits draft.kinds := by
  simp only [InterfaceDesc.ofNode, bind_eq_ok_iff, pure_eq_ok_iff,
    LoadResult.atField_eq_ok_iff] at read
  obtain ⟨methodEntries, -, methods, readMethods, abstractItems, -, abstracts, readAbstracts, exact,
    readExact, approx, readApprox, inherits, readInherits, rfl⟩ := read
  have fromMethods : ∀ pair ∈ methods, pair.2.any.Fits draft.kinds := by
    intro pair member
    obtain ⟨entry, -, found⟩ := exists_item_of_mapM readMethods member
    exact readMethodEntry_fits found
  have fromAbstracts : ∀ pair ∈ abstracts, pair.2.any.Fits draft.kinds :=
    LoadResult.forItems_forall (fun _ _ => readAbstract_fits) readAbstracts
  intro ref member
  simp only [Construct.refs, List.mem_append, List.mem_map] at member
  obtain ((⟨pair, member, rfl⟩ | ⟨ref, member, rfl⟩) | ⟨ref, member, rfl⟩) | ⟨ref, member, rfl⟩ :=
    member
  · rcases InterfaceDesc.mem_foldl_bind member with impossible | member
    · cases impossible
    · rcases List.mem_append.mp member with inMethods | inAbstracts
      · exact fromMethods pair inMethods
      · exact fromAbstracts pair inAbstracts
  · exact readIndexListOrEmpty_fits readExact ref member
  · exact readIndexListOrEmpty_fits readApprox ref member
  · exact readIndexListOrEmpty_fits readInherits ref member

/-- The types of arguments fit. -/
theorem Argument.readList_fits {field : String} {arguments : List Argument}
    (read : Argument.readList draft node field = .ok arguments) :
    ∀ argument ∈ arguments, argument.type.any.Fits draft.kinds := by
  simp only [Argument.readList, bind_eq_ok_iff, LoadResult.atField_eq_ok_iff] at read
  obtain ⟨items, -, found⟩ := read
  refine LoadResult.forItems_forall (fun item argument readItem => ?_) found
  simp only [Argument.ofNode, bind_eq_ok_iff, pure_eq_ok_iff] at readItem
  obtain ⟨type, found, rfl⟩ := readItem
  exact readIndex_fits found

/-- The types of the fields of a structure fit. -/
theorem StructDesc.ofNode_fits {desc : StructDesc}
    (read : StructDesc.ofNode draft node = .ok desc) :
    ∀ field ∈ desc.fields, field.type.any.Fits draft.kinds := by
  simp only [StructDesc.ofNode, bind_eq_ok_iff, pure_eq_ok_iff,
    LoadResult.atField_eq_ok_iff] at read
  obtain ⟨items, -, fields, found, rfl⟩ := read
  refine LoadResult.forItems_forall (fun item field readItem => ?_) found
  simp only [Field.ofNode, bind_eq_ok_iff, pure_eq_ok_iff] at readItem
  obtain ⟨name, -, type, found, rfl⟩ := readItem
  exact readIndex_fits found

/-- The references in the head of a declaration fit. -/
theorem DeclHeader.refs_of_ofNode {owner : PackageRef} {header : DeclHeader}
    (read : DeclHeader.ofNode draft owner node = .ok header)
    (owned : owner.any.Fits draft.kinds) : ∀ ref ∈ header.refs, ref.Fits draft.kinds := by
  simp only [DeclHeader.ofNode, bind_eq_ok_iff, pure_eq_ok_iff] at read
  obtain ⟨name, -, typeParams, found, rfl⟩ := read
  simpa [DeclHeader.refs, owned] using readIndexListOrEmpty_fits found

namespace Construct

/-- The references of a type at the top level fit. -/
theorem refs_of_ofTypeNode (read : ofTypeNode draft kind node = .ok construct) :
    ∀ ref ∈ construct.refs, ref.Fits draft.kinds := by
  cases kind <;>
    simp only [ofTypeNode, bind_eq_ok_iff, pure_eq_ok_iff, throw_ne_ok] at read
  case basic =>
    obtain ⟨name, -, rfl⟩ := read
    simp [refs]
  case interfaceDesc =>
    obtain ⟨desc, found, rfl⟩ := read
    exact InterfaceDesc.refs_of_ofNode found
  case named =>
    obtain ⟨name, -, type, found, rfl⟩ := read
    simpa [refs] using readIndex_fits found
  case signature =>
    obtain ⟨sig, found, rfl⟩ := read
    simp only [Signature.ofNode, bind_eq_ok_iff, pure_eq_ok_iff] at found
    obtain ⟨typeParams, readTypeParams, params, readParams, results, readResults, rfl⟩ := found
    simpa [refs, or_imp, forall_and] using ⟨readIndexListOrEmpty_fits readTypeParams,
      Argument.readList_fits readParams, Argument.readList_fits readResults⟩
  case solid =>
    obtain ⟨target, readTarget, typeArgs, readTypeArgs, rfl⟩ := read
    simpa [refs] using ⟨readIndex_fits readTarget, readIndexList_fits readTypeArgs⟩
  case structDesc =>
    obtain ⟨desc, found, rfl⟩ := read
    simpa [refs] using StructDesc.ofNode_fits found
  case union =>
    obtain ⟨exact, readExact, approx, readApprox, rfl⟩ := read
    simpa [refs, or_imp, forall_and] using
      ⟨readIndexListOrEmpty_fits readExact, readIndexListOrEmpty_fits readApprox⟩

/-- The references of a member fit, if its package does. -/
theorem refs_of_ofMemberNode {owner : PackageRef} (owned : owner.any.Fits draft.kinds)
    (read : ofMemberNode draft kind owner node = .ok construct) :
    ∀ ref ∈ construct.refs, ref.Fits draft.kinds := by
  cases kind <;>
    simp only [ofMemberNode, bind_eq_ok_iff, pure_eq_ok_iff, throw_ne_ok] at read
  case interfaceDecl =>
    obtain ⟨header, readHeader, interface, readInterface, rfl⟩ := read
    simpa [refs, or_imp, forall_and] using
      ⟨DeclHeader.refs_of_ofNode readHeader owned, readIndex_fits readInterface⟩
  case interfaceInst =>
    obtain ⟨decl, readDecl, types, readTypes, resolved, readResolved, rfl⟩ := read
    simpa [refs] using
      ⟨readIndex_fits readDecl, readIndex_fits readResolved, readIndexList_fits readTypes⟩
  case objectDecl =>
    obtain ⟨header, readHeader, data, readData, methods, readMethods, rfl⟩ := read
    simpa [refs, or_imp, forall_and] using ⟨DeclHeader.refs_of_ofNode readHeader owned,
      readIndex_fits readData, readKeyListOrEmpty_fits readMethods⟩
  case objectInst =>
    obtain ⟨decl, readDecl, types, readTypes, resolved, readResolved, methods, readMethods, rfl⟩ :=
      read
    simpa [refs, or_imp, forall_and] using ⟨readIndex_fits readDecl, readIndex_fits readResolved,
      readIndexList_fits readTypes, readIndexListOrEmpty_fits readMethods⟩
  case methodDecl =>
    obtain ⟨header, readHeader, sig, readSig, receiver, readReceiver, rfl⟩ := read
    simpa [refs, or_imp, forall_and] using ⟨DeclHeader.refs_of_ofNode readHeader owned,
      readIndex_fits readSig, readIndex?_fits readReceiver⟩
  case methodInst =>
    obtain ⟨decl, readDecl, types, readTypes, resolved, readResolved, receiver, readReceiver,
      rfl⟩ := read
    simpa [refs, or_imp, forall_and] using ⟨readKey_fits readDecl, readIndex_fits readResolved,
      readIndexList_fits readTypes, readIndex?_fits readReceiver⟩
  case value =>
    obtain ⟨name, -, type, readType, rfl⟩ := read
    simpa [refs] using ⟨owned, readIndex?_fits readType⟩

/-- The references of a package fit, if its members do. -/
theorem refs_of_ofPackageNode {members : Members}
    (owned : ∀ ref ∈ members.refs, ref.Fits draft.kinds)
    (read : ofPackageNode draft kind members node = .ok construct) :
    ∀ ref ∈ construct.refs, ref.Fits draft.kinds := by
  cases kind <;> simp only [ofPackageNode, bind_eq_ok_iff, pure_eq_ok_iff, throw_ne_ok] at read
  obtain ⟨name, -, imports, readImports, rfl⟩ := read
  simp only [refs, List.mem_append, List.mem_map]
  intro ref stored
  rcases stored with ⟨ref, member, rfl⟩ | member
  · exact readIndexListOrEmpty_fits readImports ref member
  · exact owned ref member

/-- Every reference of a construct that is read over a draft fits the slots of the draft, if those
that come from the place of its entry do. -/
theorem refs_of_ofNode {placement : Placement}
    (placed : ∀ ref ∈ placement.refs, ref.Fits draft.kinds)
    (read : ofNode draft kind placement node = .ok construct) :
    ∀ ref ∈ construct.refs, ref.Fits draft.kinds := by
  cases placement with
  | topLevel => exact refs_of_ofTypeNode read
  | member owner => exact refs_of_ofMemberNode (placed _ List.mem_cons_self) read
  | package members => exact refs_of_ofPackageNode placed read

end Construct

end Reading

end CodeGraph

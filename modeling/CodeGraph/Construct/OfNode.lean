import CodeGraph.Draft.Reading

/-! # Constructs from document nodes

The entry of a construct is read once all slots are reserved. Its references resolve while it is
read, so a construct never holds an index of the document. Where an entry stands decides what it
may be: a type of the top level, a member of a package, or a package.
-/

namespace CodeGraph

/-- Where an entry of a document stands. -/
inductive Placement
  /-- In a list of the top level. -/
  | topLevel
  /-- In a member list of a package. -/
  | member (owner : PackageRef)
  /-- Among the packages, with the members it owns. -/
  | package (members : Members)
deriving DecidableEq

/-- The name under which an entry is reserved, for kinds that are keyed. A basic may be its bare
name. -/
def identityName (kind : Kind) (node : Node) : LoadResult (Option String) :=
  if !kind.isKeyed then pure none
  else match kind, node.string? with
    | .basic, some name => pure (some name)
    | _, _ => do return some (← node.readString "name")

/-- A named abstract method. -/
def readAbstract (draft : Draft) (node : Node) : LoadResult (String × SignatureRef) := do
  let name ← node.readString "name"
  let signature ← draft.readIndex node "signature"
  return (name, signature)

/-- An abstract method of the older form, a map from names to signatures. -/
def readMethodEntry (draft : Draft) (entry : String × Node) : LoadResult (String × SignatureRef) :=
  LoadResult.atField entry.1 do
    let signature ← draft.refOfIndexNode entry.2
    return (entry.1, signature)

namespace InterfaceDesc

/-- Reads a contract. The older map of methods comes first, so an abstract of the same name
replaces its method. -/
def ofNode (draft : Draft) (node : Node) : LoadResult InterfaceDesc := do
  let methodEntries ← node.readObjectOrEmpty "methods"
  let methods ← LoadResult.atField "methods" (methodEntries.mapM (readMethodEntry draft))
  let abstractItems ← node.readArrayOrEmpty "abstracts"
  let abstracts ← LoadResult.atField "abstracts"
    (LoadResult.forItems (readAbstract draft) 0 abstractItems)
  let exact ← draft.readIndexListOrEmpty node "exact"
  let approx ← draft.readIndexListOrEmpty node "approx"
  let inherits ← draft.readIndexListOrEmpty node "inherits"
  return {
    abstracts := (methods ++ abstracts).foldl (fun bound (name, sig) => bind name sig bound) []
    exact, approx, inherits }

end InterfaceDesc

namespace Argument

/-- A parameter or result; its name is optional. -/
def ofNode (draft : Draft) (node : Node) : LoadResult Argument := do
  let type ← draft.readIndex node "type"
  return { name := node.optionalString "name", type }

/-- An optional list of parameters or results. -/
def readList (draft : Draft) (node : Node) (field : String) : LoadResult (List Argument) := do
  let items ← node.readArrayOrEmpty field
  LoadResult.atField field (LoadResult.forItems (ofNode draft) 0 items)

end Argument

namespace Signature

/-- Reads a signature; all of its fields are optional. -/
def ofNode (draft : Draft) (node : Node) : LoadResult Signature := do
  let typeParams ← draft.readIndexListOrEmpty node "typeParams"
  let params ← Argument.readList draft node "params"
  let results ← Argument.readList draft node "results"
  return { typeParams, params, results, variadic := node.optionalBool "variadic" }

end Signature

namespace Field

/-- Reads a field of a structure. -/
def ofNode (draft : Draft) (node : Node) : LoadResult Field := do
  let name ← node.readString "name"
  let type ← draft.readIndex node "type"
  return { name, type, embedded := node.optionalBool "embedded" }

end Field

namespace StructDesc

/-- Reads a structure, which may have no fields. -/
def ofNode (draft : Draft) (node : Node) : LoadResult StructDesc := do
  let items ← node.readArrayOrEmpty "fields"
  let fields ← LoadResult.atField "fields" (LoadResult.forItems (Field.ofNode draft) 0 items)
  return { fields }

end StructDesc

namespace DeclHeader

/-- Reads the header of a declaration that a package owns. -/
def ofNode (draft : Draft) (owner : PackageRef) (node : Node) : LoadResult DeclHeader := do
  let name ← node.readString "name"
  let typeParams ← draft.readIndexListOrEmpty node "typeParams"
  return { name, location := node.optionalString "loc", package := owner, typeParams }

end DeclHeader

namespace Construct

/-- Reads a type of the top level. -/
def ofTypeNode (draft : Draft) (kind : Kind) (node : Node) : LoadResult Construct := do
  match kind with
  | .basic =>
    let name ← identityName .basic node
    return .basic { name := name.getD "" }
  | .interfaceDesc => return .interfaceDesc (← InterfaceDesc.ofNode draft node)
  | .named =>
    let name ← node.readString "name"
    let type ← draft.readIndex node "type"
    return .named { name, type }
  | .signature => return .signature (← Signature.ofNode draft node)
  | .solid =>
    let target ← draft.readIndex node "target"
    let typeArgs ← draft.readIndexList node "typeArgs"
    return .solid { target, typeArgs }
  | .structDesc => return .structDesc (← StructDesc.ofNode draft node)
  | .union =>
    let exact ← draft.readIndexListOrEmpty node "exact"
    let approx ← draft.readIndexListOrEmpty node "approx"
    return .union { exact, approx }
  | kind => throw (.of (.misplaced kind))

/-- Reads a member of a package. -/
def ofMemberNode (draft : Draft) (kind : Kind) (owner : PackageRef) (node : Node) :
    LoadResult Construct := do
  match kind with
  | .interfaceDecl =>
    let header ← DeclHeader.ofNode draft owner node
    let interface ← draft.readIndex node "interface"
    return .interfaceDecl { header, interface, instances := [] }
  | .interfaceInst =>
    let decl ← draft.readIndex node "decl"
    let instanceTypes ← draft.readIndexList node "instanceTypes"
    let resolved ← draft.readIndex node "resolved"
    return .interfaceInst { decl, instanceTypes, resolved }
  | .objectDecl =>
    let header ← DeclHeader.ofNode draft owner node
    let data ← draft.readIndex node "data"
    let methods ← draft.readKeyListOrEmpty node "methods"
    return .objectDecl { header, data, methods, instances := [] }
  | .objectInst =>
    let decl ← draft.readIndex node "decl"
    let instanceTypes ← draft.readIndexList node "instanceTypes"
    let resolved ← draft.readIndex node "resolved"
    let methods ← draft.readIndexListOrEmpty node "methods"
    return .objectInst { decl, instanceTypes, resolved, methods }
  | .methodDecl =>
    let header ← DeclHeader.ofNode draft owner node
    let signature ← draft.readIndex node "signature"
    let receiver ← draft.readIndex? node "receiver"
    return .methodDecl { header, signature, receiver, instances := [] }
  | .methodInst =>
    let decl ← draft.readKey node "decl"
    let instanceTypes ← draft.readIndexList node "instanceTypes"
    let resolved ← draft.readIndex node "resolved"
    let receiver ← draft.readIndex? node "receiver"
    return .methodInst { decl, instanceTypes, resolved, receiver }
  | .value =>
    let name ← node.readString "name"
    let type ← draft.readIndex? node "type"
    return .value {
      name, location := node.optionalString "loc", package := owner, type
      isConst := node.optionalBool "isConst" }
  | kind => throw (.of (.misplaced kind))

/-- Reads a package with the members it owns. -/
def ofPackageNode (draft : Draft) (kind : Kind) (members : Members) (node : Node) :
    LoadResult Construct := do
  match kind with
  | .package =>
    let name ← node.readString "name"
    let imports ← draft.readIndexListOrEmpty node "imports"
    return .package { name, path := node.optionalString "path", imports, members }
  | kind => throw (.of (.misplaced kind))

/-- Reads the construct of a kind from its entry. -/
def ofNode (draft : Draft) (kind : Kind) (placement : Placement) (node : Node) :
    LoadResult Construct :=
  match placement with
  | .topLevel => ofTypeNode draft kind node
  | .member owner => ofMemberNode draft kind owner node
  | .package members => ofPackageNode draft kind members node

end Construct

end CodeGraph

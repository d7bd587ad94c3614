import CodeGraph.Document.Json.Value
import CodeGraph.Project
import CodeGraph.Project.Allocation

/-! # Loading a project

All entries of the document are reserved first and filled in afterwards, in any order. Then every
declaration is given its instances, in the order of the tables.
-/

namespace CodeGraph

namespace InterfaceDecl

/-- A declaration with one more instance. -/
def addInstance (inst : InterfaceInstRef) (decl : InterfaceDecl) : InterfaceDecl :=
  { decl with instances := decl.instances ++ [inst] }

end InterfaceDecl

namespace ObjectDecl

/-- A declaration with one more instance. -/
def addInstance (inst : ObjectInstRef) (decl : ObjectDecl) : ObjectDecl :=
  { decl with instances := decl.instances ++ [inst] }

end ObjectDecl

namespace MethodDecl

/-- A declaration with one more instance. -/
def addInstance (inst : MethodInstRef) (decl : MethodDecl) : MethodDecl :=
  { decl with instances := decl.instances ++ [inst] }

end MethodDecl

namespace Draft

/-- Fills the slot of the entry that waits at a position. -/
def fillPending (pending : List Pending) (draft : Draft) (position : Nat) : LoadResult Draft := do
  let entry ← entryAt pending position
  LoadResult.within entry.path do
    let construct ← Construct.ofNode draft entry.kind entry.placement entry.node
    (fill entry.id construct).outcome draft

/-- Adds an instance to the declaration that it points back to. -/
def linkTo (draft : Draft) {instKind declKind : Kind} (inst : Ref (.only instKind))
    (declOf : instKind.Data → Ref (.only declKind))
    (addInstance : Ref (.only instKind) → declKind.Data → declKind.Data) : LoadResult Draft := do
  let data ← draft.data inst
  draft.update (declOf data) (addInstance inst)

/-- Adds an instance of an interface to its declaration. -/
def linkInterfaceInst (draft : Draft) (inst : InterfaceInstRef) : LoadResult Draft :=
  draft.linkTo inst InterfaceInst.decl InterfaceDecl.addInstance

/-- Adds an instance of an object to its declaration. -/
def linkObjectInst (draft : Draft) (inst : ObjectInstRef) : LoadResult Draft :=
  draft.linkTo inst ObjectInst.decl ObjectDecl.addInstance

/-- Adds an instance of a method to its declaration. -/
def linkMethodInst (draft : Draft) (inst : MethodInstRef) : LoadResult Draft :=
  draft.linkTo inst MethodInst.decl MethodDecl.addInstance

/-- Adds a type to its declaration, if it is an instance. -/
def linkType (draft : Draft) (id : Nat) : LoadResult Draft := do
  match ← draft.kind id with
  | .interfaceInst => draft.linkInterfaceInst ⟨id⟩
  | .objectInst => draft.linkObjectInst ⟨id⟩
  | _ => pure draft

/-- Adds every instance that the tables list to its declaration. -/
def link (draft : Draft) : LoadResult Draft := do
  let linkedTypes ← (draft.table .types).foldlM linkType draft
  (linkedTypes.table .methodInsts).foldlM (fun linked id => linked.linkMethodInst ⟨id⟩) linkedTypes

end Draft

namespace Project

/-- Loads a document whose entries are filled in the order that `reorder` makes of their
positions. -/
def loadInOrder (reorder : List Nat → List Nat) (document : Node) : LoadResult Project := do
  let _ ← document.expectObject
  let allocation ← Allocation.ofDocument document
  let order := reorder (List.range allocation.pending.length)
  let filled ← order.foldlM (Draft.fillPending allocation.pending) allocation.compose
  let linked ← filled.link
  let constructs ← linked.complete
  return {
    language := document.optionalString "language"
    constructs
    tables := linked.tables }

/-- Loads a document. Either all of it loads, or the first failure is returned. -/
def load (document : Node) : LoadResult Project := loadInOrder id document

/-- Loads the document that a JSON text spells. -/
def ofJson (text : String) : LoadResult Project := do
  load (← Node.ofJson text)

end Project

end CodeGraph

import CodeGraph.Bounds
import CodeGraph.Construct

/-! # Projects

A project holds the constructs of a code base in arena order and the tables that list them. Ids
outside the arena are refused by every question that takes one.
-/

namespace CodeGraph

/-- A code base that is loaded. -/
structure Project where
  /-- The language the code base is written in, or nothing. -/
  language : String
  constructs : List Construct
  /-- The ids that each table lists. -/
  tables : Tables (List Nat)
deriving DecidableEq

namespace Project

/-- The number of constructs. -/
def size (project : Project) : Nat := project.constructs.length

/-- The ids that a table lists, in index order. -/
def table (project : Project) (table : Table) : List Nat := project.tables.get table

/-- The construct behind an id. -/
def construct (project : Project) (id : Nat) : Except OutOfBounds Construct :=
  entryAt project.constructs id

/-- The construct behind an id that may come from elsewhere. -/
def construct? (project : Project) (id : Nat) : Option Construct := project.constructs[id]?

/-- The kind of the construct behind an id. -/
def kind (project : Project) (id : Nat) : Except OutOfBounds Kind :=
  (project.construct id).map Construct.kind

/-- What the target of a reference holds, if it is of the reference's kind. -/
def data? (project : Project) {kind : Kind} (ref : Ref (.only kind)) :
    Except OutOfBounds (Option kind.Data) :=
  (project.construct ref.id).map (Construct.data? kind)

/-- The reference behind an index of the role's table, counted from one. -/
def lookup (project : Project) (role : Role) (index : Int) : Option (Ref role) := do
  let fromOne ← index.toNat?
  let position ← match fromOne with
    | 0 => none
    | position + 1 => some position
  let id ← (project.table role.table)[position]?
  let construct ← project.construct? id
  if role.accepts construct.kind then some ⟨id⟩ else none

/-- The packages, in table order. -/
def packages (project : Project) : List (PackageRef × Package) :=
  (project.table .packages).filterMap fun id =>
    match project.construct? id with
    | some (.package package) => some (⟨id⟩, package)
    | _ => none

/-- The first package with a name. -/
def findPackage (project : Project) (name : String) : Option PackageRef :=
  (project.packages.find? fun (_, package) => package.name = name).map Prod.fst

/-- The ids of the constructs that a construct is made of. -/
def parts (project : Project) (id : Nat) : Except OutOfBounds (List Nat) :=
  (project.construct id).map Construct.parts

/-- The instances of a declaration, in table order; nothing else has instances. -/
def instancesOf (project : Project) (id : Nat) : Except OutOfBounds (List Nat) := do
  match ← project.construct id with
  | .interfaceDecl decl => return decl.instances.map Ref.id
  | .objectDecl decl => return decl.instances.map Ref.id
  | .methodDecl decl => return decl.instances.map Ref.id
  | _ => return []

end Project

end CodeGraph

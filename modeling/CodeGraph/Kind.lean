/-! # Kinds and tables

Every construct of a project has one of fifteen kinds. A document refers to constructs by their
position in one of five tables; each kind is listed in exactly one table.
-/

namespace CodeGraph

/-- The tables through which a document refers to constructs. -/
inductive Table
  | types
  | packages
  | methods
  | methodInsts
  | values
deriving DecidableEq

namespace Table

/-- The name of a table, as documents and reports spell it. -/
def name : Table → String
  | types => "types"
  | packages => "packages"
  | methods => "methods"
  | methodInsts => "methodInsts"
  | values => "values"

/-- Every table, in order. -/
def all : List Table := [types, packages, methods, methodInsts, values]

/-- The place of a table in `Table.all`. -/
def slot : Table → Nat
  | types => 0
  | packages => 1
  | methods => 2
  | methodInsts => 3
  | values => 4

end Table

/-- One value for each table. -/
structure Tables (α : Type) where
  types : α
  packages : α
  methods : α
  methodInsts : α
  values : α
deriving DecidableEq

namespace Tables

/-- The value for a table. -/
def get {α : Type} (tables : Tables α) : Table → α
  | .types => tables.types
  | .packages => tables.packages
  | .methods => tables.methods
  | .methodInsts => tables.methodInsts
  | .values => tables.values

/-- The values that a function gives each table. -/
def ofFn {α : Type} (f : Table → α) : Tables α :=
  ⟨f .types, f .packages, f .methods, f .methodInsts, f .values⟩

/-- Changes the value for a table. -/
def update {α : Type} (table : Table) (change : α → α) (tables : Tables α) : Tables α :=
  match table with
  | .types => { tables with types := change tables.types }
  | .packages => { tables with packages := change tables.packages }
  | .methods => { tables with methods := change tables.methods }
  | .methodInsts => { tables with methodInsts := change tables.methodInsts }
  | .values => { tables with values := change tables.values }

@[simp]
theorem get_ofFn {α : Type} (f : Table → α) (table : Table) : (ofFn f).get table = f table := by
  cases table <;> rfl

end Tables

/-- The kind of a construct. -/
inductive Kind
  | basic
  | interfaceDesc
  | named
  | signature
  | solid
  | structDesc
  | union
  | interfaceDecl
  | interfaceInst
  | objectDecl
  | objectInst
  | methodDecl
  | methodInst
  | value
  | package
deriving DecidableEq

namespace Kind

/-- The name of a kind, as reports and complaints spell it. -/
def name : Kind → String
  | basic => "basic"
  | interfaceDesc => "interfaceDesc"
  | named => "named"
  | signature => "signature"
  | solid => "solid"
  | structDesc => "structDesc"
  | union => "union"
  | interfaceDecl => "interfaceDecl"
  | interfaceInst => "interfaceInst"
  | objectDecl => "objectDecl"
  | objectInst => "objectInst"
  | methodDecl => "methodDecl"
  | methodInst => "methodInst"
  | value => "value"
  | package => "package"

/-- Every kind, in order. -/
def all : List Kind :=
  [basic, interfaceDesc, named, signature, solid, structDesc, union, interfaceDecl, interfaceInst,
    objectDecl, objectInst, methodDecl, methodInst, value, package]

/-- The kind with a name. -/
def ofName? (name : String) : Option Kind := all.find? fun kind => kind.name = name

/-- The table that lists the constructs of a kind. -/
def table : Kind → Table
  | package => .packages
  | methodDecl => .methods
  | methodInst => .methodInsts
  | value => .values
  | _ => .types

/-- Whether the constructs of a kind are types. -/
def isType (kind : Kind) : Bool := kind.table = .types

/-- Whether the constructs of a kind are known by a name from the start. -/
def isKeyed : Kind → Bool
  | basic | named | interfaceDecl | objectDecl | methodDecl | value | package => true
  | _ => false

/-- The place of a kind in `Kind.all`. -/
def position (kind : Kind) : Nat := all.idxOf kind

end Kind

end CodeGraph

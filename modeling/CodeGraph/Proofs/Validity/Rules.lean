import CodeGraph.Project.Allocation

/-! # Valid documents

What a document has to be like to be loaded, said of its nodes alone. Its lists have to be lists
(`CodeGraph.Node.Valid`), and each entry has to spell a construct of its kind
(`CodeGraph.Node.Spells`): required fields are there, fields that are there have the right shape,
and every index and key leads to an entry of the right kind. Optional texts and flags are never
wrong. Where an index leads is read off the list of everything that the document lists
(`CodeGraph.Node.catalogue`).
-/

namespace CodeGraph

namespace Node

section Fields

variable (node : Node) (field : String) (holds : Node → Prop)

/-- A field is there, and its value has a property. -/
def Required : Prop := ∃ value, node.field? field = some value ∧ holds value

/-- The value of a field has a property, unless the field is absent or null. -/
def Optional : Prop := ∀ value, node.field? field = some value → holds value

/-- A list of items that all have a property. -/
def ListOf : Prop := ∃ items, node = array items ∧ ∀ item ∈ items, holds item

/-- An object whose values all have a property. -/
def MapTo : Prop := ∃ entries, node = object entries ∧ ∀ entry ∈ entries, holds entry.2

def IsString : Prop := ∃ text, node = string text

def IsArray : Prop := ∃ items, node = array items

/-- The items of a list; nothing where the list is absent. -/
def listed : List Node := ((node.field? field).bind items?).getD []

/-- The entries of some lists, each with the kind that its list is for. -/
def listedAs (lists : List (String × Kind)) : List (Kind × Node) :=
  lists.flatMap fun (field, kind) => (node.listed field).map fun item => (kind, item)

end Fields

section References

variable (document : Node)

/-- Everything that a document lists, in document order: the types, then each package followed by
its members. -/
def catalogue : List (Kind × Node) :=
  document.listedAs Allocation.typeLists ++
    (document.listed "packages").flatMap fun package =>
      (.package, package) :: package.listedAs Allocation.memberLists

/-- The kinds of the entries of a table, in index order. -/
def kindsIn (table : Table) : List Kind :=
  (document.catalogue.map Prod.fst).filter fun kind => kind.table = table

/-- The names of the declared methods, in key order. -/
def methodNames : List String :=
  document.catalogue.filterMap fun (kind, node) =>
    if kind = .methodDecl then (node.field? "name").bind string? else none

/-- An index, counted from one, leads to an entry that can play a role. -/
def Leads (role : Role) (index : Int) : Prop :=
  ∃ (position : Nat) (kind : Kind), index = position + 1 ∧
    (document.kindsIn role.table)[position]? = some kind ∧ role.accepts kind = true

/-- A node spells an index that leads to an entry that can play a role. -/
def IsIndex (role : Role) (node : Node) : Prop :=
  ∃ index, node.int? = some index ∧ document.Leads role index

/-- A node spells a key whose ordinal is that of a declared method of its name. -/
def IsKey (node : Node) : Prop :=
  ∃ text key, node = string text ∧ Key.parse? text = some key ∧
    1 ≤ key.ordinal ∧ key.ordinal ≤ document.methodNames.count key.name

/-- What all declarations have: a name, and type parameters if they are generic. -/
def SpellsHeader (node : Node) : Prop :=
  node.Required "name" IsString ∧
    node.Optional "typeParams" (ListOf · (document.IsIndex (.only .named)))

/-- A parameter or result, whose name is optional. -/
def SpellsArgument (node : Node) : Prop := node.Required "type" (document.IsIndex .anyType)

def SpellsField (node : Node) : Prop :=
  node.Required "name" IsString ∧ node.Required "type" (document.IsIndex .anyType)

def SpellsAbstract (node : Node) : Prop :=
  node.Required "name" IsString ∧ node.Required "signature" (document.IsIndex (.only .signature))

/-- A node spells a construct of a kind. -/
def Spells (kind : Kind) (node : Node) : Prop :=
  match kind with
  | .basic => node.IsString ∨ node.Required "name" IsString
  | .interfaceDesc =>
    node.Optional "methods" (MapTo · (document.IsIndex (.only .signature))) ∧
      node.Optional "abstracts" (ListOf · document.SpellsAbstract) ∧
      node.Optional "exact" (ListOf · (document.IsIndex .anyType)) ∧
      node.Optional "approx" (ListOf · (document.IsIndex .anyType)) ∧
      node.Optional "inherits" (ListOf · (document.IsIndex .anyType))
  | .named => node.Required "name" IsString ∧ node.Required "type" (document.IsIndex .anyType)
  | .signature =>
    node.Optional "typeParams" (ListOf · (document.IsIndex (.only .named))) ∧
      node.Optional "params" (ListOf · document.SpellsArgument) ∧
      node.Optional "results" (ListOf · document.SpellsArgument)
  | .solid =>
    node.Required "target" (document.IsIndex .anyType) ∧
      node.Required "typeArgs" (ListOf · (document.IsIndex .anyType))
  | .structDesc => node.Optional "fields" (ListOf · document.SpellsField)
  | .union =>
    node.Optional "exact" (ListOf · (document.IsIndex .anyType)) ∧
      node.Optional "approx" (ListOf · (document.IsIndex .anyType))
  | .interfaceDecl =>
    document.SpellsHeader node ∧
      node.Required "interface" (document.IsIndex (.only .interfaceDesc))
  | .interfaceInst =>
    node.Required "decl" (document.IsIndex (.only .interfaceDecl)) ∧
      node.Required "instanceTypes" (ListOf · (document.IsIndex .anyType)) ∧
      node.Required "resolved" (document.IsIndex (.only .interfaceDesc))
  | .objectDecl =>
    document.SpellsHeader node ∧ node.Required "data" (document.IsIndex (.only .structDesc)) ∧
      node.Optional "methods" (ListOf · document.IsKey)
  | .objectInst =>
    node.Required "decl" (document.IsIndex (.only .objectDecl)) ∧
      node.Required "instanceTypes" (ListOf · (document.IsIndex .anyType)) ∧
      node.Required "resolved" (document.IsIndex (.only .structDesc)) ∧
      node.Optional "methods" (ListOf · (document.IsIndex (.only .methodInst)))
  | .methodDecl =>
    document.SpellsHeader node ∧ node.Required "signature" (document.IsIndex (.only .signature)) ∧
      node.Optional "receiver" (document.IsIndex (.only .objectDecl))
  | .methodInst =>
    node.Required "decl" document.IsKey ∧
      node.Required "instanceTypes" (ListOf · (document.IsIndex .anyType)) ∧
      node.Required "resolved" (document.IsIndex (.only .signature)) ∧
      node.Optional "receiver" (document.IsIndex (.only .objectInst))
  | .value =>
    node.Required "name" IsString ∧ node.Optional "type" (document.IsIndex .anyType)
  | .package =>
    node.Required "name" IsString ∧
      node.Optional "imports" (ListOf · (document.IsIndex (.only .package)))

/-- A document without mistakes. -/
structure Valid : Prop where
  typeLists : ∀ field ∈ Allocation.typeLists.map Prod.fst, document.Optional field IsArray
  packages : document.Optional "packages" IsArray
  memberLists : ∀ package ∈ document.listed "packages",
    ∀ field ∈ Allocation.memberLists.map Prod.fst, package.Optional field IsArray
  entries : ∀ kind node, (kind, node) ∈ document.catalogue → document.Spells kind node

end References

end Node

end CodeGraph

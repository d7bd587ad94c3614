import CodeGraph.Ref

/-! # Constructs

A construct is one entry of a code base: a type, a declaration, an instance of a generic
declaration, a value or a package. Constructs refer to each other by reference only, so types that
mention themselves need no care.

Generics come in threes. A *declaration* has type parameters; an *instance* points back to its
declaration and says which types it was given; the *resolved* description is the shape that the
instance has after substitution. A *solid* is the type expression that spells an instance.
-/

namespace CodeGraph

/-- A primitive, or another named type without structure. -/
structure Basic where
  name : String
deriving DecidableEq

/-- A type parameter: a name bound to its constraint. -/
structure Named where
  name : String
  type : TypeRef
deriving DecidableEq

/-- A parameter or result. Its name may be empty. -/
structure Argument where
  name : String
  type : TypeRef
deriving DecidableEq

/-- The shape of something that can be called. -/
structure Signature where
  typeParams : List NamedRef
  params : List Argument
  results : List Argument
  /-- The last parameter takes any number of arguments. -/
  variadic : Bool
deriving DecidableEq

/-- A generic target applied to types. -/
structure Solid where
  target : TypeRef
  typeArgs : List TypeRef
deriving DecidableEq

/-- A field of a structure. -/
structure Field where
  name : String
  type : TypeRef
  embedded : Bool
deriving DecidableEq

/-- Fields in the order of their declaration. -/
structure StructDesc where
  fields : List Field
deriving DecidableEq

/-- Alternative types. -/
structure Union where
  exact : List TypeRef
  /-- Types that match by their underlying type. -/
  approx : List TypeRef
deriving DecidableEq

/-- A contract: abstract methods, sets of types and inherited contracts. -/
structure InterfaceDesc where
  /-- The abstract methods, one a name, ordered by name. -/
  abstracts : List (String × SignatureRef)
  exact : List TypeRef
  approx : List TypeRef
  inherits : List TypeRef
deriving DecidableEq

/-- What every declaration has. -/
structure DeclHeader where
  name : String
  /-- Where the declaration stands, in free form. -/
  location : String
  package : PackageRef
  typeParams : List NamedRef
deriving DecidableEq

/-- The declaration of an interface. -/
structure InterfaceDecl where
  header : DeclHeader
  interface : InterfaceDescRef
  /-- The instances of the declaration, in table order. -/
  instances : List InterfaceInstRef
deriving DecidableEq

/-- An instance of an interface. -/
structure InterfaceInst where
  decl : InterfaceDeclRef
  instanceTypes : List TypeRef
  resolved : InterfaceDescRef
deriving DecidableEq

/-- The declaration of an object: a structure with methods. -/
structure ObjectDecl where
  header : DeclHeader
  data : StructDescRef
  methods : List MethodDeclRef
  /-- The instances of the declaration, in table order. -/
  instances : List ObjectInstRef
deriving DecidableEq

/-- An instance of an object. -/
structure ObjectInst where
  decl : ObjectDeclRef
  instanceTypes : List TypeRef
  resolved : StructDescRef
  methods : List MethodInstRef
deriving DecidableEq

/-- The declaration of a method, or of a function where there is no receiver. -/
structure MethodDecl where
  header : DeclHeader
  signature : SignatureRef
  receiver : Option ObjectDeclRef
  /-- The instances of the declaration, in table order. -/
  instances : List MethodInstRef
deriving DecidableEq

/-- An instance of a method. -/
structure MethodInst where
  decl : MethodDeclRef
  instanceTypes : List TypeRef
  resolved : SignatureRef
  receiver : Option ObjectInstRef
deriving DecidableEq

/-- A constant or variable of a package. -/
structure Value where
  name : String
  location : String
  package : PackageRef
  /-- `none` for a value without a type. -/
  type : Option TypeRef
  isConst : Bool
deriving DecidableEq

/-- What a package owns, list by list. -/
structure Members where
  interfaceDecls : List InterfaceDeclRef
  interfaceInsts : List InterfaceInstRef
  objectDecls : List ObjectDeclRef
  objectInsts : List ObjectInstRef
  methodDecls : List MethodDeclRef
  methodInsts : List MethodInstRef
  values : List ValueRef
deriving DecidableEq

/-- A package, with what it imports and what it owns. -/
structure Package where
  name : String
  path : String
  imports : List PackageRef
  members : Members
deriving DecidableEq

/-- An entry of a code base. -/
inductive Construct
  | basic (data : Basic)
  | interfaceDesc (data : InterfaceDesc)
  | named (data : Named)
  | signature (data : Signature)
  | solid (data : Solid)
  | structDesc (data : StructDesc)
  | union (data : Union)
  | interfaceDecl (data : InterfaceDecl)
  | interfaceInst (data : InterfaceInst)
  | objectDecl (data : ObjectDecl)
  | objectInst (data : ObjectInst)
  | methodDecl (data : MethodDecl)
  | methodInst (data : MethodInst)
  | value (data : Value)
  | package (data : Package)
deriving DecidableEq

namespace Kind

/-- What a construct of a kind holds. -/
def Data : Kind → Type
  | basic => Basic
  | interfaceDesc => InterfaceDesc
  | named => Named
  | signature => Signature
  | solid => Solid
  | structDesc => StructDesc
  | union => Union
  | interfaceDecl => InterfaceDecl
  | interfaceInst => InterfaceInst
  | objectDecl => ObjectDecl
  | objectInst => ObjectInst
  | methodDecl => MethodDecl
  | methodInst => MethodInst
  | value => Value
  | package => Package

end Kind

namespace InterfaceDesc

/-- The contract that everything meets. -/
def isEmpty (desc : InterfaceDesc) : Bool :=
  desc.abstracts.isEmpty && desc.exact.isEmpty && desc.approx.isEmpty && desc.inherits.isEmpty

/-- Binds an abstract method in a list ordered by name; it replaces one of the same name. -/
def bind (name : String) (signature : SignatureRef) :
    List (String × SignatureRef) → List (String × SignatureRef)
  | [] => [(name, signature)]
  | (other, bound) :: rest =>
    if name < other then (name, signature) :: (other, bound) :: rest
    else if name = other then (name, signature) :: rest
    else (other, bound) :: bind name signature rest

end InterfaceDesc

namespace DeclHeader

/-- A declaration with type parameters is generic. -/
def isGeneric (header : DeclHeader) : Bool := !header.typeParams.isEmpty

end DeclHeader

namespace Members

/-- No members. -/
def empty : Members := ⟨[], [], [], [], [], [], []⟩

/-- The arena ids of all members, list after list. -/
def ids (members : Members) : List Nat :=
  members.interfaceDecls.map Ref.id ++ members.interfaceInsts.map Ref.id ++
    members.objectDecls.map Ref.id ++ members.objectInsts.map Ref.id ++
    members.methodDecls.map Ref.id ++ members.methodInsts.map Ref.id ++ members.values.map Ref.id

end Members

namespace Construct

/-- The kind of a construct. -/
def kind : Construct → Kind
  | basic _ => .basic
  | interfaceDesc _ => .interfaceDesc
  | named _ => .named
  | signature _ => .signature
  | solid _ => .solid
  | structDesc _ => .structDesc
  | union _ => .union
  | interfaceDecl _ => .interfaceDecl
  | interfaceInst _ => .interfaceInst
  | objectDecl _ => .objectDecl
  | objectInst _ => .objectInst
  | methodDecl _ => .methodDecl
  | methodInst _ => .methodInst
  | value _ => .value
  | package _ => .package

/-- What a construct holds. -/
def data : (construct : Construct) → construct.kind.Data
  | basic data => data
  | interfaceDesc data => data
  | named data => data
  | signature data => data
  | solid data => data
  | structDesc data => data
  | union data => data
  | interfaceDecl data => data
  | interfaceInst data => data
  | objectDecl data => data
  | objectInst data => data
  | methodDecl data => data
  | methodInst data => data
  | value data => data
  | package data => data

/-- What a construct holds, if it is of the kind asked for. -/
def data? (kind : Kind) (construct : Construct) : Option kind.Data :=
  if same : construct.kind = kind then some (same ▸ construct.data) else none

/-- The construct of a kind that holds the given data. -/
def ofData : (kind : Kind) → kind.Data → Construct
  | .basic => basic
  | .interfaceDesc => interfaceDesc
  | .named => named
  | .signature => signature
  | .solid => solid
  | .structDesc => structDesc
  | .union => union
  | .interfaceDecl => interfaceDecl
  | .interfaceInst => interfaceInst
  | .objectDecl => objectDecl
  | .objectInst => objectInst
  | .methodDecl => methodDecl
  | .methodInst => methodInst
  | .value => value
  | .package => package

/-- The declaration header, for the three kinds of declarations. -/
def header? : Construct → Option DeclHeader
  | interfaceDecl decl => some decl.header
  | objectDecl decl => some decl.header
  | methodDecl decl => some decl.header
  | _ => none

/-- The construct's own name, for the kinds that have one. -/
def name? : Construct → Option String
  | basic data => some data.name
  | named data => some data.name
  | value data => some data.name
  | package data => some data.name
  | construct => construct.header?.map DeclHeader.name

/-- The ids of the constructs that a construct is made of. Type parameters, the instances of a
declaration and the receiver of a method are not part of it. -/
def parts : Construct → List Nat
  | basic _ => []
  | named param => [param.type.id]
  | signature sig => sig.params.map (·.type.id) ++ sig.results.map (·.type.id)
  | solid expr => expr.target.id :: expr.typeArgs.map Ref.id
  | structDesc desc => desc.fields.map (·.type.id)
  | union alternatives => alternatives.exact.map Ref.id ++ alternatives.approx.map Ref.id
  | interfaceDesc desc =>
    desc.inherits.map Ref.id ++ desc.abstracts.map (·.2.id) ++ desc.exact.map Ref.id ++
      desc.approx.map Ref.id
  | interfaceDecl decl => [decl.interface.id]
  | objectDecl decl => [decl.data.id]
  | methodDecl decl => [decl.signature.id]
  | interfaceInst inst => inst.instanceTypes.map Ref.id ++ [inst.resolved.id]
  | objectInst inst => inst.instanceTypes.map Ref.id ++ [inst.resolved.id]
  | methodInst inst => inst.instanceTypes.map Ref.id ++ [inst.resolved.id]
  | value item => (item.type.map Ref.id).toList
  | package pack => pack.members.ids

theorem ofData_data (construct : Construct) :
    ofData construct.kind construct.data = construct := by
  cases construct <;> rfl

theorem data?_ofData (kind : Kind) (data : kind.Data) :
    (ofData kind data).data? kind = some data := by
  cases kind <;> rfl

theorem data?_isSome_iff {kind : Kind} {construct : Construct} :
    (construct.data? kind).isSome = true ↔ construct.kind = kind := by
  unfold data?
  split <;> simp_all

end Construct

end CodeGraph

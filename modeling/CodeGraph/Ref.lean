import CodeGraph.Kind

/-! # References

Constructs refer to each other by arena id, the position at which a construct was reserved. A
reference carries the role its target has to play, so a reference to a signature cannot be mistaken
for one to a package. Ids are natural numbers; the program keeps 32 bits of them, which is enough
for arenas of less than 2^32 constructs.
-/

namespace CodeGraph

/-- What the target of a reference has to be. -/
inductive Role
  /-- Any type. -/
  | anyType
  /-- A construct of one kind. -/
  | only (kind : Kind)
deriving DecidableEq

namespace Role

/-- Whether a construct of a kind can play the role. -/
def accepts : Role → Kind → Bool
  | anyType, kind => kind.isType
  | only expected, kind => kind = expected

/-- The table in which references of the role are looked up. -/
def table : Role → Table
  | anyType => .types
  | only kind => kind.table

/-- What complaints call the role. -/
def name : Role → String
  | anyType => "type"
  | only kind => kind.name

end Role

/-- A reference to the construct with an arena id, in a role. -/
structure Ref (role : Role) where
  id : Nat
deriving DecidableEq

/-- References are ordered as their targets are in the arena. -/
instance {role : Role} : LT (Ref role) := ⟨fun a b => a.id < b.id⟩

instance {role : Role} (a b : Ref role) : Decidable (a < b) :=
  inferInstanceAs (Decidable (a.id < b.id))

/-- An arena id, as complaints and stubs spell it. -/
def idLabel (id : Nat) : String := s!"#{id}"

namespace Ref

/-- A reference spelled as its role and its id. -/
def label {role : Role} (ref : Ref role) : String := role.name ++ idLabel ref.id

/-- A reference to a construct of a kind, widened to the role of any type. -/
def toType {kind : Kind} (ref : Ref (.only kind)) : Ref .anyType := ⟨ref.id⟩

end Ref

/-- A reference to a type of any kind. -/
abbrev TypeRef := Ref .anyType
/-- A reference to a type parameter. -/
abbrev NamedRef := Ref (.only .named)
/-- A reference to a signature. -/
abbrev SignatureRef := Ref (.only .signature)
/-- A reference to a structure. -/
abbrev StructDescRef := Ref (.only .structDesc)
/-- A reference to a generic applied to types. -/
abbrev SolidRef := Ref (.only .solid)
/-- A reference to a contract. -/
abbrev InterfaceDescRef := Ref (.only .interfaceDesc)
/-- A reference to the declaration of an interface. -/
abbrev InterfaceDeclRef := Ref (.only .interfaceDecl)
/-- A reference to an instance of an interface. -/
abbrev InterfaceInstRef := Ref (.only .interfaceInst)
/-- A reference to the declaration of an object. -/
abbrev ObjectDeclRef := Ref (.only .objectDecl)
/-- A reference to an instance of an object. -/
abbrev ObjectInstRef := Ref (.only .objectInst)
/-- A reference to the declaration of a method. -/
abbrev MethodDeclRef := Ref (.only .methodDecl)
/-- A reference to an instance of a method. -/
abbrev MethodInstRef := Ref (.only .methodInst)
/-- A reference to a constant or variable. -/
abbrev ValueRef := Ref (.only .value)
/-- A reference to a package. -/
abbrev PackageRef := Ref (.only .package)

end CodeGraph

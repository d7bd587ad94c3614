import CodeGraph.Project

/-! # Questions about the graph of a project

The edges of the graph lead from a construct to its parts. What can be reached from a construct is
listed in the order of a depth-first walk that goes through the parts from left to right and turns
back at constructs it has seen.
-/

namespace CodeGraph.Project

/-- Continues a walk that has seen `seen`, in the order in which it saw them, and has `ahead`
before it. At most `unseen` constructs are new to it. -/
def walk (project : Project) :
    (unseen : Nat) → (seen ahead : List Nat) → Except OutOfBounds (List Nat)
  | 0, seen, _ => .ok seen
  | unseen + 1, seen, ahead =>
    match ahead.dropWhile seen.contains with
    | [] => .ok seen
    | id :: rest => do
      let parts ← project.parts id
      walk project unseen (seen ++ [id]) (parts ++ rest)

/-- Every construct that can be reached from `root`, itself included, each once. -/
def reachable (project : Project) (root : Nat) : Except OutOfBounds (List Nat) :=
  project.walk (project.size + 1) [] [root]

/-- Whether no type parameter can be reached from `root`. -/
def isConcrete (project : Project) (root : Nat) : Except OutOfBounds Bool := do
  let kinds ← (← project.reachable root).mapM project.kind
  return kinds.all (· ≠ .named)

/-- The first instance that was given the types asked for. -/
def firstInstance {kind : Kind} (types : List TypeRef)
    (typesOf : Ref (.only kind) → Except OutOfBounds (Option (List TypeRef))) :
    List (Ref (.only kind)) → Except OutOfBounds (Option TypeRef)
  | [] => .ok none
  | inst :: rest => do
    if (← typesOf inst) = some types then return some inst.toType
    firstInstance types typesOf rest

/-- The types that an instance of an object was given, if the reference leads to one. -/
def objectInstanceTypes (project : Project) (ref : ObjectInstRef) :
    Except OutOfBounds (Option (List TypeRef)) :=
  (project.data? ref).map fun inst => inst.map ObjectInst.instanceTypes

/-- The types that an instance of an interface was given, if the reference leads to one. -/
def interfaceInstanceTypes (project : Project) (ref : InterfaceInstRef) :
    Except OutOfBounds (Option (List TypeRef)) :=
  (project.data? ref).map fun inst => inst.map InterfaceInst.instanceTypes

/-- The instance that a solid spells: the first one of its target, if that is the declaration of an
object or an interface, that was given the solid's type arguments. -/
def instanceOfSolid (project : Project) (ref : SolidRef) : Except OutOfBounds (Option TypeRef) := do
  let some solid ← project.data? ref | return none
  match ← project.construct solid.target.id with
  | .objectDecl decl =>
    firstInstance solid.typeArgs project.objectInstanceTypes decl.instances
  | .interfaceDecl decl =>
    firstInstance solid.typeArgs project.interfaceInstanceTypes decl.instances
  | _ => return none

end CodeGraph.Project

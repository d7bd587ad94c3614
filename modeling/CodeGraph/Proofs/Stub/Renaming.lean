import CodeGraph.Stub.Text

/-! # Renaming the targets of references

A construct can be renamed by giving each of its references another target. Its text then visits the
new targets and is the same otherwise (`CodeGraph.Stub.writeConstruct_rename`), and it never shows
where a declaration stands, who owns it or what instances it has
(`CodeGraph.Stub.writeConstruct_bare`).
-/

namespace CodeGraph

/-- The reference with its target renamed. -/
def Ref.rename {role : Role} (f : Nat → Nat) (ref : Ref role) : Ref role := ⟨f ref.id⟩

/-- The argument with its type renamed. -/
def Argument.rename (f : Nat → Nat) (argument : Argument) : Argument :=
  { argument with type := argument.type.rename f }

/-- The field with its type renamed. -/
def Field.rename (f : Nat → Nat) (field : Field) : Field :=
  { field with type := field.type.rename f }

/-- The signature with all its references renamed. -/
def Signature.rename (f : Nat → Nat) (sig : Signature) : Signature where
  typeParams := sig.typeParams.map (Ref.rename f)
  params := sig.params.map (Argument.rename f)
  results := sig.results.map (Argument.rename f)
  variadic := sig.variadic

/-- The contract with all its references renamed. Its methods keep their names. -/
def InterfaceDesc.rename (f : Nat → Nat) (desc : InterfaceDesc) : InterfaceDesc where
  abstracts := desc.abstracts.map (Prod.map id (Ref.rename f))
  exact := desc.exact.map (Ref.rename f)
  approx := desc.approx.map (Ref.rename f)
  inherits := desc.inherits.map (Ref.rename f)

namespace DeclHeader

/-- The header with all its references renamed. -/
def rename (f : Nat → Nat) (header : DeclHeader) : DeclHeader :=
  { header with
    package := header.package.rename f
    typeParams := header.typeParams.map (Ref.rename f) }

/-- The header without its place and its owner. -/
def bare (header : DeclHeader) : DeclHeader := { header with location := "", package := ⟨0⟩ }

end DeclHeader

/-- The members with all references renamed. -/
def Members.rename (f : Nat → Nat) (members : Members) : Members where
  interfaceDecls := members.interfaceDecls.map (Ref.rename f)
  interfaceInsts := members.interfaceInsts.map (Ref.rename f)
  objectDecls := members.objectDecls.map (Ref.rename f)
  objectInsts := members.objectInsts.map (Ref.rename f)
  methodDecls := members.methodDecls.map (Ref.rename f)
  methodInsts := members.methodInsts.map (Ref.rename f)
  values := members.values.map (Ref.rename f)

namespace Construct

/-- The construct with all its references renamed. -/
def rename (f : Nat → Nat) : Construct → Construct
  | basic data => basic data
  | interfaceDesc desc => interfaceDesc (desc.rename f)
  | named param => named { param with type := param.type.rename f }
  | signature sig => signature (sig.rename f)
  | solid expr => solid ⟨expr.target.rename f, expr.typeArgs.map (Ref.rename f)⟩
  | structDesc desc => structDesc ⟨desc.fields.map (Field.rename f)⟩
  | union alternatives =>
    union ⟨alternatives.exact.map (Ref.rename f), alternatives.approx.map (Ref.rename f)⟩
  | interfaceDecl decl =>
    interfaceDecl ⟨decl.header.rename f, decl.interface.rename f, decl.instances.map (Ref.rename f)⟩
  | interfaceInst inst =>
    interfaceInst
      ⟨inst.decl.rename f, inst.instanceTypes.map (Ref.rename f), inst.resolved.rename f⟩
  | objectDecl decl =>
    objectDecl ⟨decl.header.rename f, decl.data.rename f, decl.methods.map (Ref.rename f),
      decl.instances.map (Ref.rename f)⟩
  | objectInst inst =>
    objectInst ⟨inst.decl.rename f, inst.instanceTypes.map (Ref.rename f), inst.resolved.rename f,
      inst.methods.map (Ref.rename f)⟩
  | methodDecl decl =>
    methodDecl ⟨decl.header.rename f, decl.signature.rename f, decl.receiver.map (Ref.rename f),
      decl.instances.map (Ref.rename f)⟩
  | methodInst inst =>
    methodInst ⟨inst.decl.rename f, inst.instanceTypes.map (Ref.rename f), inst.resolved.rename f,
      inst.receiver.map (Ref.rename f)⟩
  | value item =>
    value { item with package := item.package.rename f, type := item.type.map (Ref.rename f) }
  | package pack =>
    package { pack with
      imports := pack.imports.map (Ref.rename f)
      members := pack.members.rename f }

/-- The construct without its place, its owner and the instances that point back to it. -/
def bare : Construct → Construct
  | interfaceDecl decl => interfaceDecl { decl with header := decl.header.bare, instances := [] }
  | objectDecl decl => objectDecl { decl with header := decl.header.bare, instances := [] }
  | methodDecl decl => methodDecl { decl with header := decl.header.bare, instances := [] }
  | value item => value { item with location := "", package := ⟨0⟩ }
  | construct => construct

variable (f : Nat → Nat) (construct : Construct)

@[simp]
theorem kind_rename : (construct.rename f).kind = construct.kind := by cases construct <;> rfl

/-- Nothing changes where each target keeps its name. -/
theorem rename_id : construct.rename id = construct := by
  have ref {role : Role} : (Ref.rename id : Ref role → Ref role) = id := rfl
  have argument : Argument.rename id = id := rfl
  have field : Field.rename id = id := rfl
  cases construct <;>
    simp [rename, Signature.rename, InterfaceDesc.rename, Members.rename, DeclHeader.rename, ref,
      argument, field]

@[simp]
theorem kind_bare : construct.bare.kind = construct.kind := by cases construct <;> rfl

@[simp]
theorem parts_bare : construct.bare.parts = construct.parts := by cases construct <;> rfl

/-- Renaming renames the parts. -/
theorem parts_rename : (construct.rename f).parts = construct.parts.map f := by
  cases construct <;>
    simp [rename, parts, Signature.rename, Argument.rename, Field.rename, InterfaceDesc.rename,
      Members.rename, Members.ids, Ref.rename, Option.toList_map, Function.comp_def]

end Construct

namespace Writer

variable {α β : Type} (rename : α → β) (before separator after : String)

/-- Changed items behind the first are written as what they are changed to. -/
theorem writeRest_map (writeItem : β → Writer Unit) (items : List α) :
    writeRest separator writeItem (items.map rename) =
      writeRest separator (writeItem ∘ rename) items := by
  induction items with
  | nil => rfl
  | cons item rest ih => simp only [List.map_cons, writeRest, ih, Function.comp_apply]

/-- Changed items are written as what they are changed to. -/
theorem writeEach_map (writeItem : β → Writer Unit) (items : List α) :
    writeEach before separator after writeItem (items.map rename) =
      writeEach before separator after (writeItem ∘ rename) items := by
  cases items with
  | nil => rfl
  | cons item rest => simp only [List.map_cons, writeEach, writeRest_map, Function.comp_apply]

end Writer

namespace Stub

open Writer

variable (visit : Form → Nat → Writer Unit) (f : Nat → Nat)

/-- Visits what a renaming leads to. -/
def visitRenamed : Form → Nat → Writer Unit := fun form id => visit form (f id)

section Components

theorem writeTypeArgs_rename (types : List TypeRef) :
    writeTypeArgs visit (types.map (Ref.rename f)) =
      writeTypeArgs (visitRenamed visit f) types := by
  rw [writeTypeArgs, writeEach_map]
  rfl

theorem writeTypeParams_rename (params : List NamedRef) :
    writeTypeParams visit (params.map (Ref.rename f)) =
      writeTypeParams (visitRenamed visit f) params := by
  rw [writeTypeParams, writeEach_map]
  rfl

theorem writeArgument_rename (variadic : Bool) (argument : Argument) :
    writeArgument visit variadic (argument.rename f) =
      writeArgument (visitRenamed visit f) variadic argument :=
  rfl

theorem writeLaterParams_rename (variadic : Bool) (params : List Argument) :
    writeLaterParams visit variadic (params.map (Argument.rename f)) =
      writeLaterParams (visitRenamed visit f) variadic params := by
  induction params with
  | nil => rfl
  | cons param rest ih =>
      rw [List.map_cons, writeLaterParams, ih, List.isEmpty_map, writeArgument_rename]
      rfl

theorem writeParams_rename (variadic : Bool) (params : List Argument) :
    writeParams visit variadic (params.map (Argument.rename f)) =
      writeParams (visitRenamed visit f) variadic params := by
  cases params with
  | nil => rfl
  | cons param rest =>
      rw [List.map_cons, writeParams, writeLaterParams_rename, List.isEmpty_map,
        writeArgument_rename]
      rfl

theorem writeResults_rename (results : List Argument) :
    writeResults visit (results.map (Argument.rename f)) =
      writeResults (visitRenamed visit f) results := by
  have listed (results : List Argument) :
      writeEach " (" ", " ")" (writeArgument visit false) (results.map (Argument.rename f)) =
        writeEach " (" ", " ")" (writeArgument (visitRenamed visit f) false) results :=
    writeEach_map _ _ _ _ _ _
  match results, listed results with
  | [], _ => rfl
  | [single], listed =>
      show (if single.name = "" then _ else _) = (if single.name = "" then _ else _)
      split
      · rfl
      · exact congrArg discard listed
  | _ :: _ :: _, listed => exact congrArg discard listed

theorem writeSignature_rename (head : String) (withTypeParams : Bool) (sig : Signature) :
    writeSignature visit head withTypeParams (sig.rename f) =
      writeSignature (visitRenamed visit f) head withTypeParams sig := by
  simp only [writeSignature, Signature.rename, writeTypeParams_rename, writeParams_rename,
    writeResults_rename]

theorem writeHead_rename (keyword : String) (header : DeclHeader) :
    writeHead visit keyword (header.rename f) =
      writeHead (visitRenamed visit f) keyword header := by
  simp only [writeHead, DeclHeader.rename, writeTypeParams_rename]

theorem writeStructDesc_rename (fields : List Field) :
    writeStructDesc visit ⟨fields.map (Field.rename f)⟩ =
      writeStructDesc (visitRenamed visit f) ⟨fields⟩ := by
  simp only [writeStructDesc, writeEach_map, List.isEmpty_map]
  rfl

theorem writeUnion_rename (exact approx : List TypeRef) :
    writeUnion visit ⟨exact.map (Ref.rename f), approx.map (Ref.rename f)⟩ =
      writeUnion (visitRenamed visit f) ⟨exact, approx⟩ := by
  have terms : (exact.map (Ref.rename f)).map (false, ·) ++
      (approx.map (Ref.rename f)).map (true, ·) =
        (exact.map (false, ·) ++ approx.map (true, ·)).map (Prod.map id (Ref.rename f)) := by
    simp [Function.comp_def]
  rw [writeUnion, terms, writeEach_map]
  rfl

theorem writeAbstracts_rename (lines : Bool) (methods : List (String × SignatureRef)) :
    writeAbstracts visit lines (methods.map (Prod.map id (Ref.rename f))) =
      writeAbstracts (visitRenamed visit f) lines methods := by
  induction methods with
  | nil => rfl
  | cons method rest ih =>
      rw [List.map_cons, writeAbstracts, ih]
      rfl

theorem writeItems_rename (lines : Bool) (desc : InterfaceDesc) :
    writeItems visit lines (desc.rename f) = writeItems (visitRenamed visit f) lines desc := by
  simp only [writeItems, InterfaceDesc.rename, writeEach_map, writeAbstracts_rename]
  rfl

theorem writeInterfaceDesc_rename (desc : InterfaceDesc) :
    writeInterfaceDesc visit (desc.rename f) = writeInterfaceDesc (visitRenamed visit f) desc := by
  have empty : (desc.rename f).isEmpty = desc.isEmpty := by
    simp [InterfaceDesc.isEmpty, InterfaceDesc.rename]
  simp only [writeInterfaceDesc, writeItems_rename, empty]

theorem writeReceiver_rename {role : Role} (receiver : Option (Ref role)) :
    writeReceiver visit (receiver.map (Ref.rename f)) =
      writeReceiver (visitRenamed visit f) receiver := by
  cases receiver <;> rfl

theorem writeInstance_rename {role : Role} (decl : Ref role) (types : List TypeRef) :
    writeInstance visit (decl.rename f) (types.map (Ref.rename f)) =
      writeInstance (visitRenamed visit f) decl types := by
  simp only [writeInstance, writeTypeArgs_rename]
  rfl

theorem writeMembers_rename {role : Role} (members : List (Ref role)) :
    writeMembers visit (members.map (Ref.rename f)) =
      writeMembers (visitRenamed visit f) members := by
  induction members with
  | nil => rfl
  | cons member rest ih =>
      rw [List.map_cons, writeMembers, ih]
      rfl

end Components

/-- The short text of a renamed construct visits its new ids. -/
theorem writeShort_rename (construct : Construct) :
    writeShort visit (construct.rename f) = writeShort (visitRenamed visit f) construct := by
  cases construct with
  | signature sig => exact writeSignature_rename visit f "func" false sig
  | solid expr => exact writeInstance_rename visit f expr.target expr.typeArgs
  | structDesc desc => exact writeStructDesc_rename visit f desc.fields
  | union alternatives => exact writeUnion_rename visit f alternatives.exact alternatives.approx
  | interfaceDesc desc => exact writeInterfaceDesc_rename visit f desc
  | interfaceInst inst => exact writeInstance_rename visit f inst.decl inst.instanceTypes
  | objectInst inst => exact writeInstance_rename visit f inst.decl inst.instanceTypes
  | methodInst inst => exact writeInstance_rename visit f inst.decl inst.instanceTypes
  | _ => rfl

/-- The long text of a renamed construct visits its new ids. -/
theorem writeLong_rename (construct : Construct) :
    writeLong visit (construct.rename f) = writeLong (visitRenamed visit f) construct := by
  cases construct with
  | basic | named => rfl
  | solid expr => exact writeShort_rename visit f (.solid expr)
  | structDesc desc => exact writeShort_rename visit f (.structDesc desc)
  | union alternatives => exact writeShort_rename visit f (.union alternatives)
  | interfaceDesc desc => exact writeShort_rename visit f (.interfaceDesc desc)
  | signature sig => exact writeSignature_rename visit f "func" true sig
  | interfaceDecl decl =>
      simp only [Construct.rename, writeLong, writeHead_rename]
      rfl
  | objectDecl decl =>
      simp only [Construct.rename, writeLong, writeHead_rename]
      rfl
  | methodDecl decl =>
      simp only [Construct.rename, writeLong, writeHead_rename, writeReceiver_rename]
      rfl
  | interfaceInst inst =>
      simp only [Construct.rename, writeLong, writeInstance_rename]
      rfl
  | objectInst inst =>
      simp only [Construct.rename, writeLong, writeInstance_rename]
      rfl
  | methodInst inst =>
      simp only [Construct.rename, writeLong, writeInstance_rename, writeReceiver_rename]
      rfl
  | value item =>
      simp only [Construct.rename, writeLong]
      cases item.type <;> rfl
  | package pack =>
      simp only [Construct.rename, writeLong, writePackage, Members.rename, writeMembers_rename,
        writeEach_map]
      rfl

/-- **A renamed construct visits the new targets.** Otherwise its text is the same. -/
theorem writeConstruct_rename (form : Form) (construct : Construct) :
    writeConstruct visit form (construct.rename f) =
      writeConstruct (visitRenamed visit f) form construct := by
  cases form with
  | whole => simp only [writeConstruct, writeShort_rename, writeLong_rename]
  | callOf name =>
      cases construct with
      | signature sig => exact writeSignature_rename visit f name false sig
      | _ => rfl

/-- No text shows where a declaration stands, who owns it or what instances it has. -/
theorem writeConstruct_bare (form : Form) (construct : Construct) :
    writeConstruct visit form construct.bare = writeConstruct visit form construct := by
  cases construct <;> rfl

end Stub

end CodeGraph

import CodeGraph.Project
import CodeGraph.Stub.Transcript

/-! # The text of constructs

The text of a construct mentions other constructs. References are written short and the body that
a declaration or an instance owns is written long. How the constructs mentioned are written is left
open here: `visit` writes the construct with an id, in a form.
-/

namespace CodeGraph.Stub

/-- The form in which a construct is written. -/
inductive Form
  /-- The construct itself. -/
  | whole
  /-- The call of a signature behind a name, without type parameters. -/
  | callOf (name : String)
deriving DecidableEq

open Writer

variable (visit : Form → Nat → Writer Unit)

/-- A reference, always short. -/
def writeRef {role : Role} (ref : Ref role) : Writer Unit := inMode .short (visit .whole ref.id)

/-- The body of a declaration or an instance, always long. -/
def writeBody {role : Role} (ref : Ref role) : Writer Unit := inMode .long (visit .whole ref.id)

/-- Type arguments in brackets, or nothing. -/
def writeTypeArgs (types : List TypeRef) : Writer Unit :=
  discard (writeEach "[" ", " "]" (writeRef visit) types)

/-- Type parameters with their constraints in brackets, or nothing. -/
def writeTypeParams (params : List NamedRef) : Writer Unit :=
  discard (writeEach "[" ", " "]" (writeBody visit) params)

/-- A parameter or result; its name is written if it has one. -/
def writeArgument (variadic : Bool) (argument : Argument) : Writer Unit := do
  discard (writeWrapped "" argument.name " ")
  if variadic then write "..."
  writeRef visit argument.type

/-- Parameters behind the first; the last of them may be variadic. -/
def writeLaterParams (variadic : Bool) : List Argument → Writer Unit
  | [] => pure ()
  | param :: rest => do
    write ", "
    writeArgument visit (variadic && rest.isEmpty) param
    writeLaterParams variadic rest

/-- Parameters; the last may be variadic. -/
def writeParams (variadic : Bool) : List Argument → Writer Unit
  | [] => pure ()
  | param :: rest => do
    writeArgument visit (variadic && rest.isEmpty) param
    writeLaterParams visit variadic rest

/-- Results: a single one without a name stands alone, others stand in parentheses. -/
def writeResults (results : List Argument) : Writer Unit := do
  match results with
  | [] => pure ()
  | [single] =>
    if single.name = "" then
      write " "
      writeRef visit single.type
    else discard (writeEach " (" ", " ")" (writeArgument visit false) results)
  | _ => discard (writeEach " (" ", " ")" (writeArgument visit false) results)

/-- A signature behind its head, with or without its type parameters. -/
def writeSignature (head : String) (withTypeParams : Bool) (sig : Signature) : Writer Unit := do
  write head
  if withTypeParams then writeTypeParams visit sig.typeParams
  write "("
  writeParams visit sig.variadic sig.params
  write ")"
  writeResults visit sig.results

/-- The signature of something with a name. -/
def writeCall (name : String) (sig : SignatureRef) : Writer Unit :=
  inMode .short (visit (.callOf name) sig.id)

/-- The keyword, name and type parameters of a declaration. -/
def writeHead (keyword : String) (header : DeclHeader) : Writer Unit := do
  write keyword
  write header.name
  writeTypeParams visit header.typeParams

/-- A field; an embedded one goes without its name. -/
def writeField (field : Field) : Writer Unit := do
  if !field.embedded then discard (writeWrapped "" field.name " ")
  writeRef visit field.type

/-- The fields of a structure in braces. -/
def writeStructDesc (desc : StructDesc) : Writer Unit :=
  if desc.fields.isEmpty then write "struct\x7b\x7d"
  else discard (writeEach "struct\x7b " "; " " \x7d" (writeField visit) desc.fields)

/-- A type that matches by its underlying type. -/
def writeApprox (type : TypeRef) : Writer Unit := do
  write "~"
  writeRef visit type

/-- The terms of a union between bars, the exact ones first. -/
def writeUnion (alternatives : Union) : Writer Unit :=
  discard (writeEach "" "|" ""
    (fun (approx, type) => if approx then writeApprox visit type else writeRef visit type)
    (alternatives.exact.map (false, ·) ++ alternatives.approx.map (true, ·)))

/-- The end of an item of a contract: that of a line, or that of a phrase. -/
def endItem (lines : Bool) : Writer Unit := do
  if lines then
    write ";"
    newline
  else write "; "

/-- The abstract methods of a contract, each as an item. -/
def writeAbstracts (lines : Bool) : List (String × SignatureRef) → Writer Unit
  | [] => pure ()
  | (name, sig) :: rest => do
    writeCall visit name sig
    endItem lines
    writeAbstracts lines rest

/-- The items of a contract. -/
def writeItems (lines : Bool) (desc : InterfaceDesc) : Writer Unit := do
  if ← writeEach "inherits: " ", " "" (writeRef visit) desc.inherits then endItem lines
  if ← writeEach "exact: " "|" "" (writeRef visit) desc.exact then endItem lines
  if ← writeEach "approx: " "|" "" (writeApprox visit) desc.approx then endItem lines
  writeAbstracts visit lines desc.abstracts

/-- A contract: in long mode a block of lines, in short mode a phrase. -/
def writeInterfaceDesc (desc : InterfaceDesc) : Writer Unit := do
  match ← mode, desc.isEmpty with
  | .long, true => write "\x7b\x7d"
  | .short, true => write "any"
  | .long, false =>
    write "\x7b"
    newline
    indented (writeItems visit true desc)
    write "\x7d"
  | .short, false =>
    write "interface\x7b "
    writeItems visit false desc
    write "\x7d"

/-- A receiver in parentheses, if there is one. -/
def writeReceiver {role : Role} : Option (Ref role) → Writer Unit
  | none => pure ()
  | some receiver => do
    write "("
    writeRef visit receiver
    write ") "

/-- A declaration and the types it is given. -/
def writeInstance {role : Role} (decl : Ref role) (types : List TypeRef) : Writer Unit := do
  writeRef visit decl
  writeTypeArgs visit types

/-- Members of a package, each as a line. -/
def writeMembers {role : Role} : List (Ref role) → Writer Unit
  | [] => pure ()
  | member :: rest => do
    writeBody visit member
    write ";"
    newline
    writeMembers rest

/-- A package as a block of its path, its imports and its members. -/
def writePackage (pack : Package) : Writer Unit := do
  write "package "
  write pack.name
  write " \x7b"
  newline
  indented do
    writeLine "path: " pack.path ";"
    if ← writeEach "imports: " ", " ";" (writeRef visit) pack.imports then newline
    writeMembers visit pack.members.interfaceDecls
    writeMembers visit pack.members.interfaceInsts
    writeMembers visit pack.members.objectDecls
    writeMembers visit pack.members.objectInsts
    writeMembers visit pack.members.methodDecls
    writeMembers visit pack.members.methodInsts
    writeMembers visit pack.members.values
  write "\x7d"

/-- The short text of a construct. A contract and a signature take their mode from the
transcript. -/
def writeShort : Construct → Writer Unit
  | .basic basic => write basic.name
  | .named param => write param.name
  | .signature sig => writeSignature visit "func" false sig
  | .solid expr => writeInstance visit expr.target expr.typeArgs
  | .structDesc desc => writeStructDesc visit desc
  | .union alternatives => writeUnion visit alternatives
  | .interfaceDesc desc => writeInterfaceDesc visit desc
  | .interfaceDecl decl => write decl.header.name
  | .objectDecl decl => write decl.header.name
  | .methodDecl decl => write decl.header.name
  | .interfaceInst inst => writeInstance visit inst.decl inst.instanceTypes
  | .objectInst inst => writeInstance visit inst.decl inst.instanceTypes
  | .methodInst inst => writeInstance visit inst.decl inst.instanceTypes
  | .value item => write item.name
  | .package pack => write pack.name

/-- The long text of a construct. -/
def writeLong : Construct → Writer Unit
  | .named param => do
    write param.name
    write " "
    writeRef visit param.type
  | .signature sig => writeSignature visit "func" true sig
  | .interfaceDecl decl => do
    writeHead visit "type " decl.header
    write " interface"
    writeBody visit decl.interface
  | .objectDecl decl => do
    writeHead visit "type " decl.header
    write " "
    writeBody visit decl.data
  | .methodDecl decl => do
    write "func "
    writeReceiver visit decl.receiver
    writeHead visit "" decl.header
    writeCall visit "" decl.signature
  | .interfaceInst inst => do
    write "inst "
    writeInstance visit inst.decl inst.instanceTypes
    write " interface"
    writeBody visit inst.resolved
  | .objectInst inst => do
    write "inst "
    writeInstance visit inst.decl inst.instanceTypes
    write " "
    writeBody visit inst.resolved
  | .methodInst inst => do
    write "inst func "
    writeReceiver visit inst.receiver
    writeInstance visit inst.decl inst.instanceTypes
    writeCall visit "" inst.resolved
  | .value item => do
    write (if item.isConst then "const " else "var ")
    write item.name
    write " "
    match item.type with
    | some type => writeRef visit type
    | none => write "<type>"
  | .package pack => writePackage visit pack
  | construct => writeShort visit construct

/-- The text of a construct in a form. -/
def writeConstruct (form : Form) (construct : Construct) : Writer Unit := do
  match form with
  | .whole =>
    match ← mode with
    | .short => writeShort visit construct
    | .long => writeLong visit construct
  | .callOf name =>
    match construct with
    | .signature sig => writeSignature visit name false sig
    | _ =>
      write name
      write "<signature>"

end CodeGraph.Stub

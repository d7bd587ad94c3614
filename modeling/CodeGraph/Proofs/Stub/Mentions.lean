import CodeGraph.Proofs.References
import CodeGraph.Stub.Text

/-! # What a text mentions

The text of a construct is plain text in which other constructs are visited. `Spells` is the
evidence for that, built up as texts are, and it lists the visits in their order.
-/

namespace CodeGraph

namespace Stub

/-- Writes the construct with an id in a form. -/
abbrev Visit := Form → Nat → Writer Unit

/-- A reference whose target is visited, with the mode and the form in which it is written. -/
structure Mention where
  mode : Mode
  form : Form
  ref : AnyRef
deriving DecidableEq

namespace Mention

/-- A mention of a reference's target by its identity. -/
def short {role : Role} (ref : Ref role) : Mention := ⟨.short, .whole, ref.any⟩

/-- A mention of a reference's target with its body. -/
def long {role : Role} (ref : Ref role) : Mention := ⟨.long, .whole, ref.any⟩

/-- A mention of a signature behind a name. -/
def call (name : String) (sig : SignatureRef) : Mention := ⟨.short, .callOf name, sig.any⟩

/-- The construct that is mentioned, with its mode. -/
def target (mention : Mention) : Nat × Mode := (mention.ref.id, mention.mode)

end Mention

end Stub

open Stub

namespace Construct

/-- What the short text of a construct mentions, in order. -/
def shortMentions : Construct → List Mention
  | signature sig => sig.params.map (.short ·.type) ++ sig.results.map (.short ·.type)
  | solid expr => .short expr.target :: expr.typeArgs.map .short
  | structDesc desc => desc.fields.map (.short ·.type)
  | union alternatives => alternatives.exact.map .short ++ alternatives.approx.map .short
  | interfaceDesc desc =>
    desc.inherits.map .short ++ desc.exact.map .short ++ desc.approx.map .short ++
      desc.abstracts.map fun method => .call method.1 method.2
  | interfaceInst inst => .short inst.decl :: inst.instanceTypes.map .short
  | objectInst inst => .short inst.decl :: inst.instanceTypes.map .short
  | methodInst inst => .short inst.decl :: inst.instanceTypes.map .short
  | _ => []

/-- What the long text of a construct mentions, in order. -/
def longMentions : Construct → List Mention
  | named param => [.short param.type]
  | signature sig => sig.typeParams.map .long ++ (signature sig).shortMentions
  | interfaceDecl decl => decl.header.typeParams.map .long ++ [.long decl.interface]
  | objectDecl decl => decl.header.typeParams.map .long ++ [.long decl.data]
  | methodDecl decl =>
    decl.receiver.toList.map .short ++ decl.header.typeParams.map .long ++
      [.call "" decl.signature]
  | interfaceInst inst => (interfaceInst inst).shortMentions ++ [.long inst.resolved]
  | objectInst inst => (objectInst inst).shortMentions ++ [.long inst.resolved]
  | methodInst inst =>
    inst.receiver.toList.map .short ++ (methodInst inst).shortMentions ++ [.call "" inst.resolved]
  | value item => item.type.toList.map .short
  | package pack =>
    pack.imports.map .short ++ pack.members.interfaceDecls.map .long ++
      pack.members.interfaceInsts.map .long ++ pack.members.objectDecls.map .long ++
      pack.members.objectInsts.map .long ++ pack.members.methodDecls.map .long ++
      pack.members.methodInsts.map .long ++ pack.members.values.map .long
  | construct => construct.shortMentions

/-- What the text of a construct mentions in a mode, in order. -/
def mentions (construct : Construct) : Mode → List Mention
  | .short => construct.shortMentions
  | .long => construct.longMentions

end Construct

namespace Stub

open Writer

/-- A text that visits what is listed and writes nothing else but plain text. -/
inductive Spells : (Visit → Writer Unit) → List Mention → Prop
  | nothing : Spells (fun _ => pure ()) []
  | write (text : String) : Spells (fun _ => write text) []
  | newline : Spells (fun _ => newline) []
  | visit (mention : Mention) :
      Spells (fun visit => inMode mention.mode (visit mention.form mention.ref.id)) [mention]
  | seq {first second : Visit → Writer Unit} {before behind : List Mention} :
      Spells first before → Spells second behind →
      Spells (fun visit => do first visit; second visit) (before ++ behind)
  | indented {body : Visit → Writer Unit} {mentions : List Mention} :
      Spells body mentions → Spells (fun visit => indented (body visit)) mentions

/-- In a mode, a text does as one that visits what is listed. -/
def SpellsIn (mode : Mode) (text : Visit → Writer Unit) (mentions : List Mention) : Prop :=
  ∃ spelled, Spells spelled mentions ∧
    ∀ visit transcript, transcript.mode = mode → text visit transcript = spelled visit transcript

end Stub

end CodeGraph

import CodeGraph.Proofs.Stub.Brackets
import CodeGraph.Proofs.Stub.Mentions

/-! # How texts are framed

Brackets come in pairs around what is listed. Lines end in long texts only, behind words, and never
within inline braces; the lines of a block stand between its braces, one level further in. What
comes at the front of such a line begins with words of its own, before it visits anything: it is a
member of a package or the call of a method in a contract. `Framed` is the evidence for all that,
built up as texts are, and every construct's text is framed
(`CodeGraph.Stub.writeConstruct_framed`).
-/

namespace CodeGraph

namespace Kind

/-- Packages own the constructs of a kind. -/
def isOwned : Kind → Bool
  | interfaceDecl | interfaceInst | objectDecl | objectInst | methodDecl | methodInst
  | value => true
  | _ => false

end Kind

namespace Construct

/-- The strings of a construct that its text may hold. The name of an embedded field is not
written. -/
def strings : Construct → List String
  | basic data => [data.name]
  | named param => [param.name]
  | signature sig => sig.params.map (·.name) ++ sig.results.map (·.name)
  | structDesc desc => (desc.fields.filter (!·.embedded)).map (·.name)
  | interfaceDesc desc => desc.abstracts.map Prod.fst
  | interfaceDecl decl => [decl.header.name]
  | objectDecl decl => [decl.header.name]
  | methodDecl decl => [decl.header.name]
  | value item => [item.name]
  | package pack => [pack.name, pack.path]
  | solid _ | union _ | interfaceInst _ | objectInst _ | methodInst _ => []

/-- The name of a construct is among its strings. -/
theorem mem_strings_of_name? {construct : Construct} {name : String}
    (named : construct.name? = some name) : name ∈ construct.strings := by
  cases construct <;> cases named <;> exact List.mem_cons_self

end Construct

namespace Stub

open Writer

/-- In a form and a mode, the text of a construct of a kind begins with words of its own. -/
def Opens (form : Form) (mode : Mode) (kind : Kind) : Prop :=
  (∃ name, form = .callOf name) ∨ mode = .long ∧ kind.isOwned = true

/-- What is mentioned begins with words of its own. -/
def Mention.Opens (mention : Mention) : Prop :=
  ∃ kind, mention.ref.role = .only kind ∧ Stub.Opens mention.form mention.mode kind

/-- A text without the end of a line. -/
def unbroken (text : String) : Bool := !text.toList.contains '\n'

/-- A text that can begin an indented line. -/
def beginsLine (text : String) : Bool :=
  match text.toList with
  | [] => false
  | c :: _ => c ≠ ' ' && c ≠ '}'

/-- Where a text stands in its line. -/
inductive LinePlace
  | within
  /-- Within a line, or where nothing is written yet. -/
  | loose
  /-- Within a line, or at its front. -/
  | front
deriving DecidableEq

/-- Where a text has come to that begins with words of its own at the front of a line, and may be
nothing elsewhere. -/
def LinePlace.after : LinePlace → LinePlace
  | within => within
  | loose => loose
  | front => within

/-- Where a text stands: the brackets that have been opened around it, the innermost first, and its
place in the line. -/
structure Spot where
  opened : List Char
  place : LinePlace

/-- Words of the language itself stand in their line and open and close brackets. Only within a line
they may begin with a blank. -/
structure Literal (text : String) (start : Spot) (closed : List Char) : Prop where
  inLine : unbroken text = true
  begins : beginsLine text = true ∨ start.place = .within ∧ text.isEmpty = false
  reads : openBehind start.opened text.toList = some closed

/-- A text in a mode that leads from one spot to another and visits what is listed. It writes plain
strings, the names of constructs and words of the language. -/
inductive Framed (plain word : String → Prop) (mode : Mode) :
    Spot → (Visit → Writer Unit) → List Mention → Spot → Prop
  | nothing {spot : Spot} : Framed plain word mode spot (fun _ => pure ()) [] spot
  | plain {spot : Spot} {text : String} :
      plain text → Framed plain word mode spot (fun _ => write text) [] spot
  | word {opened : List Char} {place : LinePlace} {text : String} : place ≠ .front → word text →
      Framed plain word mode ⟨opened, place⟩ (fun _ => write text) [] ⟨opened, .within⟩
  | literal {start : Spot} {closed : List Char} {text : String} : Literal text start closed →
      Framed plain word mode start (fun _ => write text) [] ⟨closed, .within⟩
  | endLine {start : Spot} {closed : List Char} {text : String} : mode = .long →
      Literal text start closed → '{' ∉ closed →
      Framed plain word mode start (fun _ => do write text; newline) [] ⟨closed, .front⟩
  /-- At the front of a line what is visited begins with words of its own. A long text may end
  lines, so it is not visited within inline braces. -/
  | visit {opened : List Char} {place : LinePlace} (mention : Mention) :
      (place = .front → mode = .long ∧ mention.Opens) →
      (mention.mode = .long → mode = .long ∧ '{' ∉ opened) →
      Framed plain word mode ⟨opened, place⟩
        (fun visit => inMode mention.mode (visit mention.form mention.ref.id)) [mention]
        ⟨opened, place.after⟩
  | seq {start between finish : Spot} {first second : Visit → Writer Unit}
      {before behind : List Mention} :
      Framed plain word mode start first before between →
      Framed plain word mode between second behind finish →
      Framed plain word mode start (fun visit => do first visit; second visit) (before ++ behind)
        finish
  /-- Lines between braces, one level further in. -/
  | block {start : Spot} {opened : List Char} {opening : String} {body : Visit → Writer Unit}
      {mentions : List Mention} : mode = .long → '{' ∉ opened →
      Literal opening start ('{' :: opened) →
      Framed plain word mode ⟨[], .front⟩ body mentions ⟨[], .front⟩ →
      Framed plain word mode start
        (fun visit => do write opening; newline; indented (body visit); write "\x7d")
        mentions ⟨opened, .within⟩
  | weaken {start : Spot} {opened : List Char} {place : LinePlace} {text : Visit → Writer Unit}
      {mentions : List Mention} :
      Framed plain word mode start text mentions ⟨opened, .within⟩ →
      Framed plain word mode start text mentions ⟨opened, place⟩

namespace Framed

variable {plain word : String → Prop} {mode : Mode}

theorem of_eq {start finish : Spot} {text same : Visit → Writer Unit} {mentions : List Mention}
    (framed : Framed plain word mode start text mentions finish)
    (equal : ∀ visit, same visit = text visit) :
    Framed plain word mode start same mentions finish := by
  rw [funext equal]
  exact framed

/-- Plain text in front of a text. -/
theorem write_seq {start finish : Spot} {text : Visit → Writer Unit} {mentions : List Mention}
    {front : String} (unbroken : plain front)
    (framed : Framed plain word mode start text mentions finish) :
    Framed plain word mode start (fun visit => do Writer.write front; text visit) mentions
      finish :=
  (Framed.plain unbroken).seq framed

section Parts

variable {opened closed : List Char} {place : LinePlace} {start : Spot}

/-- Words that may stand anywhere in a line. -/
theorem words (text : String) (check : (unbroken text && beginsLine text) = true)
    (reads : openBehind start.opened text.toList = some closed) :
    Framed plain word mode start (fun _ => Writer.write text) [] ⟨closed, .within⟩ := by
  obtain ⟨inLine, begins⟩ := Bool.and_eq_true_iff.mp check
  exact .literal ⟨inLine, .inl begins, reads⟩

/-- Words that stand within a line. -/
theorem inline (text : String) (check : (unbroken text && !text.isEmpty) = true)
    (reads : openBehind opened text.toList = some closed) :
    Framed plain word mode ⟨opened, .within⟩ (fun _ => Writer.write text) []
      ⟨closed, .within⟩ := by
  obtain ⟨inLine, nonempty⟩ := Bool.and_eq_true_iff.mp check
  exact .literal ⟨inLine, .inr ⟨rfl, by simpa using nonempty⟩, reads⟩

/-- A reference is framed where a text may begin. -/
theorem refAt {role : Role} (settled : place ≠ .front) (ref : Ref role) :
    Framed plain word mode ⟨opened, place⟩ (fun visit => writeRef visit ref) [.short ref]
      ⟨opened, place⟩ := by
  have visited : Framed plain word mode ⟨opened, place⟩ _ [.short ref] ⟨opened, place.after⟩ :=
    .visit (.short ref) (fun front => absurd front settled) nofun
  cases place with
  | within | loose => exact visited
  | front => exact absurd rfl settled

/-- Within a line anything may be mentioned. -/
theorem ref {role : Role} (ref : Ref role) :
    Framed plain word mode ⟨opened, .within⟩ (fun visit => writeRef visit ref) [.short ref]
      ⟨opened, .within⟩ :=
  refAt (by decide) ref

/-- A reference with its body is framed where no brace is open. -/
theorem body {role : Role} (long : mode = .long) (closed : '{' ∉ opened) (ref : Ref role) :
    Framed plain word mode ⟨opened, .within⟩ (fun visit => writeBody visit ref) [.long ref]
      ⟨opened, .within⟩ :=
  .visit (.long ref) nofun fun _ => ⟨long, closed⟩

/-- A call may stand at the front of a line in long mode. -/
theorem call (name : String) (sig : SignatureRef) (here : place = .front → mode = .long) :
    Framed plain word mode ⟨opened, place⟩ (fun visit => writeCall visit name sig)
      [.call name sig] ⟨opened, place.after⟩ :=
  .visit (.call name sig) (fun front => ⟨here front, .signature, rfl, .inl ⟨name, rfl⟩⟩) nofun

/-- A name with a blank behind it, or nothing at all. -/
theorem label {name : String} (named : plain name) :
    Framed plain word mode ⟨opened, .within⟩ (fun _ => discard (writeWrapped "" name " ")) []
      ⟨opened, .within⟩ := by
  by_cases empty : name = ""
  · exact nothing.of_eq fun _ => by simp [writeWrapped, empty]; rfl
  · exact (write_seq named (inline " " rfl rfl)).of_eq fun _ => by
      simp [writeWrapped, empty]
      rfl

end Parts

section Items

variable {α : Type} {writeItem : Visit → α → Writer Unit} {mentionOf : α → Mention}
variable {start inner finish : Spot} {before separator behind : String}
variable (between : Framed plain word mode inner (fun _ => Writer.write separator) [] inner)
variable (items : List α)
variable (item : ∀ a ∈ items,
  Framed plain word mode inner (fun visit => writeItem visit a) [mentionOf a] inner)
include between item

theorem rest :
    Framed plain word mode inner (fun visit => writeRest separator (writeItem visit) items)
      (items.map mentionOf) inner := by
  induction items with
  | nil => exact nothing
  | cons first later ih =>
      obtain ⟨one, others⟩ := List.forall_mem_cons.mp item
      exact between.seq (one.seq (ih others))

/-- Items with something behind them, or nothing at all, in front of a text. -/
theorem each_seq {ending text : Visit → Writer Unit} {mentions : List Mention}
    (opening : Framed plain word mode start (fun _ => Writer.write before) [] inner)
    (ends : Framed plain word mode inner (fun visit => do Writer.write behind; ending visit) []
      start)
    (later : Framed plain word mode start text mentions finish) :
    Framed plain word mode start (fun visit => do
      if ← writeEach before separator behind (writeItem visit) items then ending visit
      text visit)
      (items.map mentionOf ++ mentions) finish := by
  cases items with
  | nil => exact later.of_eq fun visit => by simp [writeEach]
  | cons first others =>
      obtain ⟨one, more⟩ := List.forall_mem_cons.mp item
      have framed := (opening.seq (one.seq ((rest between others more).seq ends))).seq later
      simp only [List.append_nil, List.nil_append] at framed
      exact framed.of_eq fun visit => by simp [writeEach]

/-- Items with nothing behind them. -/
theorem each (opening : Framed plain word mode start (fun _ => Writer.write before) [] inner)
    (closing : Framed plain word mode inner (fun _ => Writer.write behind) [] start) :
    Framed plain word mode start
      (fun visit => discard (writeEach before separator behind (writeItem visit) items))
      (items.map mentionOf) start := by
  have framed := each_seq between items item opening (closing.seq nothing) nothing
  simp only [List.append_nil] at framed
  exact framed.of_eq fun visit => by
    simp only [pure_bind, ite_self]
    rw [bind_pure_comp]
    rfl

end Items

section Components

variable {opened : List Char} {place : LinePlace}

/-- Type arguments are framed in brackets of their own. -/
theorem typeArgs (types : List TypeRef) :
    Framed plain word mode ⟨opened, place⟩ (fun visit => writeTypeArgs visit types)
      (types.map .short) ⟨opened, place⟩ :=
  each (inline ", " rfl rfl) types (fun type _ => ref type) (words "[" rfl rfl)
    (weaken (inline "]" rfl rfl))

/-- Type parameters are framed in brackets of their own. -/
theorem typeParams (long : mode = .long) (closed : '{' ∉ opened) (params : List NamedRef) :
    Framed plain word mode ⟨opened, place⟩ (fun visit => writeTypeParams visit params)
      (params.map .long) ⟨opened, place⟩ := by
  have inside : '{' ∉ '[' :: opened := by simp [closed]
  exact each (inline ", " rfl rfl) params (fun param _ => body long inside param)
    (words "[" rfl rfl) (weaken (inline "]" rfl rfl))

theorem argument (variadic : Bool) {argument : Argument} (named : plain argument.name) :
    Framed plain word mode ⟨opened, .within⟩ (fun visit => writeArgument visit variadic argument)
      [.short argument.type] ⟨opened, .within⟩ := by
  have type : Framed plain word mode ⟨opened, .within⟩
      (fun visit => writeRef visit argument.type) _ ⟨opened, .within⟩ :=
    ref argument.type
  cases variadic with
  | false => exact (label named).seq type
  | true => exact (label named).seq ((inline "..." rfl rfl).seq type)

theorem laterParams (variadic : Bool) {params : List Argument}
    (named : ∀ param ∈ params, plain param.name) :
    Framed plain word mode ⟨opened, .within⟩
      (fun visit => writeLaterParams visit variadic params)
      (params.map (.short ·.type)) ⟨opened, .within⟩ := by
  induction params with
  | nil => exact nothing
  | cons param rest ih =>
      obtain ⟨one, others⟩ := List.forall_mem_cons.mp named
      exact (inline ", " rfl rfl).seq ((argument _ one).seq (ih others))

theorem params (variadic : Bool) {params : List Argument}
    (named : ∀ param ∈ params, plain param.name) :
    Framed plain word mode ⟨opened, .within⟩ (fun visit => writeParams visit variadic params)
      (params.map (.short ·.type)) ⟨opened, .within⟩ := by
  cases params with
  | nil => exact nothing
  | cons param rest =>
      obtain ⟨one, others⟩ := List.forall_mem_cons.mp named
      exact (argument _ one).seq (laterParams variadic others)

theorem results {results : List Argument} (named : ∀ result ∈ results, plain result.name) :
    Framed plain word mode ⟨opened, .within⟩ (fun visit => writeResults visit results)
      (results.map (.short ·.type)) ⟨opened, .within⟩ := by
  have listed : Framed plain word mode ⟨opened, .within⟩
      (fun visit => discard (writeEach " (" ", " ")" (writeArgument visit false) results))
      (results.map (.short ·.type)) ⟨opened, .within⟩ :=
    each (inline ", " rfl rfl) results
      (fun result member => argument false (named result member))
      (inline " (" rfl rfl) (inline ")" rfl rfl)
  match results, listed with
  | [], _ => exact nothing
  | [single], listed =>
      by_cases unnamed : single.name = ""
      · exact ((inline " " rfl rfl).seq (ref single.type)).of_eq fun visit => by
          simp [writeResults, unnamed]
      · exact listed.of_eq fun visit => by simp [writeResults, unnamed]
  | first :: second :: rest, listed => exact listed

/-- A signature behind its head. Only in long mode it may have type parameters. -/
theorem signature {start : Spot} {head : String} (withTypeParams : Bool)
    (long : withTypeParams = true → mode = .long ∧ '{' ∉ opened) {sig : Signature}
    (front : Framed plain word mode start (fun _ => Writer.write head) [] ⟨opened, place⟩)
    (named : ∀ text ∈ (Construct.signature sig).strings, plain text) :
    Framed plain word mode start (fun visit => writeSignature visit head withTypeParams sig)
      ((if withTypeParams then sig.typeParams.map .long else []) ++
        (Construct.signature sig).shortMentions) ⟨opened, .within⟩ := by
  obtain ⟨namedParams, namedResults⟩ := List.forall_mem_append.mp named
  have call : Framed plain word mode ⟨opened, place⟩ _ _ ⟨opened, .within⟩ :=
    (words "(" rfl rfl).seq ((params sig.variadic (List.forall_mem_map.mp namedParams)).seq
      ((inline ")" rfl rfl).seq (results (List.forall_mem_map.mp namedResults))))
  cases withTypeParams with
  | false => exact front.seq call
  | true =>
      obtain ⟨long, closed⟩ := long rfl
      exact front.seq ((typeParams long closed sig.typeParams).seq call)

theorem head {start : Spot} {keyword : String} {header : DeclHeader} (long : mode = .long)
    (closed : '{' ∉ opened)
    (opening : Framed plain word mode start (fun _ => Writer.write keyword) [] ⟨opened, place⟩)
    (named : plain header.name) :
    Framed plain word mode start (fun visit => writeHead visit keyword header)
      (header.typeParams.map .long) ⟨opened, place⟩ :=
  opening.seq (write_seq named (typeParams long closed header.typeParams))

theorem field {field : Field} (named : field.embedded = false → plain field.name) :
    Framed plain word mode ⟨opened, .within⟩ (fun visit => writeField visit field)
      [.short field.type] ⟨opened, .within⟩ := by
  cases embedded : field.embedded with
  | true => exact (ref field.type).of_eq fun visit => by simp [writeField, embedded]
  | false =>
      exact ((label (named embedded)).seq (ref field.type)).of_eq fun visit => by
        simp [writeField, embedded]

/-- A description of a structure is framed in braces. -/
theorem structDesc {desc : StructDesc}
    (named : ∀ text ∈ (Construct.structDesc desc).strings, plain text) :
    Framed plain word mode ⟨opened, place⟩ (fun visit => writeStructDesc visit desc)
      (Construct.structDesc desc).shortMentions ⟨opened, place⟩ := by
  by_cases empty : desc.fields = []
  · have framed : Framed plain word mode ⟨opened, place⟩ _ _ ⟨opened, place⟩ :=
      weaken (words "struct\x7b\x7d" rfl rfl)
    simpa [writeStructDesc, Construct.shortMentions, empty] using framed
  · have item : ∀ entry ∈ desc.fields, Framed plain word mode ⟨'{' :: opened, .within⟩
        (fun visit => writeField visit entry) [.short entry.type] ⟨'{' :: opened, .within⟩ := by
      intro entry member
      apply field
      intro written
      apply named
      exact List.mem_map.mpr ⟨entry, List.mem_filter.mpr ⟨member, by simp [written]⟩, rfl⟩
    have framed : Framed plain word mode ⟨opened, place⟩ _ _ ⟨opened, place⟩ :=
      each (inline "; " rfl rfl) desc.fields item (words "struct\x7b " rfl rfl)
        (weaken (inline " \x7d" rfl rfl))
    exact framed.of_eq fun visit => by simp [writeStructDesc, empty]

theorem approx (type : TypeRef) :
    Framed plain word mode ⟨opened, place⟩ (fun visit => writeApprox visit type) [.short type]
      ⟨opened, place⟩ :=
  weaken ((words "~" rfl rfl).seq (ref type))

theorem union (empty : plain "") (settled : place ≠ .front) (alternatives : Union) :
    Framed plain word mode ⟨opened, place⟩ (fun visit => writeUnion visit alternatives)
      (Construct.union alternatives).shortMentions ⟨opened, place⟩ := by
  have item (term : Bool × TypeRef) : Framed plain word mode ⟨opened, place⟩ (fun visit =>
      if term.1 then writeApprox visit term.2 else writeRef visit term.2) [.short term.2]
      ⟨opened, place⟩ := by
    cases term.1 with
    | false => exact refAt settled term.2
    | true => exact approx term.2
  have framed : Framed plain word mode ⟨opened, place⟩ _ _ ⟨opened, place⟩ :=
    each (weaken (words "|" rfl rfl))
      (alternatives.exact.map (false, ·) ++ alternatives.approx.map (true, ·))
      (fun term _ => item term) (.plain empty) (.plain empty)
  simp only [List.map_append, List.map_map, Function.comp_def] at framed
  exact framed

/-- A line ends in long mode only, and not within inline braces. -/
theorem semicolon (long : mode = .long) (closed : '{' ∉ opened) :
    Framed plain word mode ⟨opened, .within⟩ (fun _ => do Writer.write ";"; newline) []
      ⟨opened, .front⟩ :=
  .endLine long ⟨rfl, .inl rfl, rfl⟩ closed

/-- The end of an item is the end of a line in long mode only. -/
theorem endItem (lines : Bool) (long : lines = true → mode = .long ∧ '{' ∉ opened) :
    Framed plain word mode ⟨opened, .within⟩ (fun _ => Stub.endItem lines) []
      ⟨opened, if lines then .front else .within⟩ := by
  cases lines with
  | false => exact inline "; " rfl rfl
  | true =>
      obtain ⟨long, closed⟩ := long rfl
      exact semicolon long closed

/-- Abstract methods are framed, each on its line or all within one. -/
theorem abstracts (lines : Bool) (long : lines = true → mode = .long ∧ '{' ∉ opened)
    (methods : List (String × SignatureRef)) :
    Framed plain word mode ⟨opened, if lines then .front else .within⟩
      (fun visit => writeAbstracts visit lines methods)
      (methods.map fun method => .call method.1 method.2)
      ⟨opened, if lines then .front else .within⟩ := by
  induction methods with
  | nil => exact nothing
  | cons method rest ih =>
      have called : Framed plain word mode ⟨opened, if lines then .front else .within⟩
          (fun visit => writeCall visit method.1 method.2) [.call method.1 method.2]
          ⟨opened, .within⟩ := by
        cases lines with
        | false => exact call method.1 method.2 nofun
        | true => exact call method.1 method.2 fun _ => (long rfl).1
      exact called.seq ((endItem lines long).seq ih)

/-- The items of an interface are framed, each on its line or all within one. -/
theorem items (empty : plain "") (lines : Bool) (long : lines = true → mode = .long ∧ '{' ∉ opened)
    (desc : InterfaceDesc) :
    Framed plain word mode ⟨opened, if lines then .front else .within⟩
      (fun visit => writeItems visit lines desc)
      (Construct.interfaceDesc desc).shortMentions
      ⟨opened, if lines then .front else .within⟩ := by
  have ends : Framed plain word mode ⟨opened, .within⟩
      (fun _ => do Writer.write ""; Stub.endItem lines) []
      ⟨opened, if lines then .front else .within⟩ :=
    write_seq empty (endItem lines long)
  have framed := each_seq (inline ", " rfl rfl) desc.inherits (fun type _ => ref type)
    (words "inherits: " rfl rfl) ends
    (each_seq (inline "|" rfl rfl) desc.exact (fun type _ => ref type)
      (words "exact: " rfl rfl) ends
      (each_seq (inline "|" rfl rfl) desc.approx (fun type _ => approx type)
        (words "approx: " rfl rfl) ends (abstracts lines long desc.abstracts)))
  simp only [← List.append_assoc] at framed
  exact framed

theorem receiver {role : Role} (receiver : Option (Ref role)) :
    Framed plain word mode ⟨opened, place⟩ (fun visit => writeReceiver visit receiver)
      (receiver.toList.map .short) ⟨opened, place⟩ := by
  cases receiver with
  | none => exact nothing
  | some receiver =>
      exact weaken ((words "(" rfl rfl).seq ((ref receiver).seq (inline ") " rfl rfl)))

/-- An instance is framed as its declaration with its type arguments. -/
theorem inst {role : Role} (settled : place ≠ .front) (decl : Ref role) (types : List TypeRef) :
    Framed plain word mode ⟨opened, place⟩ (fun visit => writeInstance visit decl types)
      (.short decl :: types.map .short) ⟨opened, place⟩ :=
  (refAt settled decl).seq (typeArgs types)

theorem line (long : mode = .long) {path : String} (located : plain path) :
    Framed plain word mode ⟨[], .front⟩ (fun _ => writeLine "path: " path ";") []
      ⟨[], .front⟩ := by
  by_cases empty : path = ""
  · exact nothing.of_eq fun _ => by simp [writeLine, writeWrapped, empty]
  · have framed : Framed plain word mode ⟨[], .front⟩ _ _ ⟨[], .front⟩ :=
      (words "path: " rfl rfl).seq (write_seq located (semicolon long List.not_mem_nil))
    exact framed.of_eq fun _ => by simp [writeLine, writeWrapped, empty]

/-- The members of a package are framed line by line. -/
theorem members {kind : Kind} (long : mode = .long) (owned : kind.isOwned = true)
    (members : List (Ref (.only kind))) :
    Framed plain word mode ⟨[], .front⟩ (fun visit => writeMembers visit members)
      (members.map .long) ⟨[], .front⟩ := by
  induction members with
  | nil => exact nothing
  | cons member rest ih =>
      have opens : Mention.Opens (.long member) := ⟨kind, rfl, .inr ⟨rfl, owned⟩⟩
      have visited : Framed plain word mode ⟨[], .front⟩ _ _ ⟨[], .within⟩ :=
        .visit (.long member) (fun _ => ⟨long, opens⟩) fun _ => ⟨long, List.not_mem_nil⟩
      exact ((visited.seq (semicolon long List.not_mem_nil)).seq ih).of_eq fun visit => by
        simp [writeMembers, writeBody, Mention.long, Ref.any]

/-- A package is framed in braces. -/
theorem package (long : mode = .long) {pack : Package} (named : plain pack.name)
    (located : plain pack.path) :
    Framed plain word mode ⟨[], place⟩ (fun visit => writePackage visit pack)
      (Construct.package pack).longMentions ⟨[], .within⟩ := by
  have owned : Framed plain word mode ⟨[], .front⟩ _ _ ⟨[], .front⟩ :=
    (members long rfl pack.members.interfaceDecls).seq
    ((members long rfl pack.members.interfaceInsts).seq
    ((members long rfl pack.members.objectDecls).seq
    ((members long rfl pack.members.objectInsts).seq
    ((members long rfl pack.members.methodDecls).seq
    ((members long rfl pack.members.methodInsts).seq
    (members long rfl pack.members.values))))))
  have body := (line long located).seq
    (each_seq (inline ", " rfl rfl) pack.imports (fun imported _ => ref imported)
      (words "imports: " rfl rfl) (semicolon long List.not_mem_nil) owned)
  have opening : Literal " \x7b" ⟨[], .within⟩ ['{'] := ⟨rfl, .inr ⟨rfl, rfl⟩, rfl⟩
  have framed : Framed plain word mode ⟨[], place⟩ _ _ ⟨[], .within⟩ :=
    (words "package " rfl rfl).seq
      (write_seq named (.block long List.not_mem_nil opening body))
  simp only [List.nil_append, ← List.append_assoc] at framed
  exact framed.of_eq fun visit => by simp [writePackage]

end Components

end Framed

/-- In a mode, a text does as one that is framed and closes the brackets that it opens. -/
def FramedIn (plain word : String → Prop) (mode : Mode) (place : LinePlace)
    (text : Visit → Writer Unit) (mentions : List Mention) : Prop :=
  ∃ framed, Framed plain word mode ⟨[], place⟩ framed mentions ⟨[], place.after⟩ ∧
    ∀ visit transcript, transcript.mode = mode → text visit transcript = framed visit transcript

section Constructs

variable {plain word : String → Prop} {place : LinePlace} {mode : Mode}

/-- A text that is framed without open brackets is so in every mode that it fits. -/
theorem Framed.framedIn {text : Visit → Writer Unit} {mentions : List Mention}
    (framed : Framed plain word mode ⟨[], place⟩ text mentions ⟨[], .within⟩) :
    FramedIn plain word mode place text mentions :=
  ⟨text, framed.weaken, fun _ _ _ => rfl⟩

/-- A text that comes to the place where it begins. -/
theorem Framed.framedIn_of_settled (settled : place ≠ .front) {text : Visit → Writer Unit}
    {mentions : List Mention}
    (framed : Framed plain word mode ⟨[], place⟩ text mentions ⟨[], place⟩) :
    FramedIn plain word mode place text mentions := by
  have same : place.after = place := by
    cases place with
    | within | loose => rfl
    | front => exact absurd rfl settled
  exact ⟨text, same.symm ▸ framed, fun _ _ _ => rfl⟩

/-- A text that looks at its mode is framed if it is for this mode. -/
theorem FramedIn.of_mode {text : Mode → Visit → Writer Unit} {mentions : List Mention}
    (framed : FramedIn plain word mode place (text mode) mentions) :
    FramedIn plain word mode place (fun visit => do text (← Writer.mode) visit) mentions := by
  obtain ⟨simple, framed, equal⟩ := framed
  refine ⟨simple, framed, ?_⟩
  intro visit transcript same
  rw [← equal visit transcript same, ← same]
  rfl

/-- A contract takes its mode from the transcript, and mentions the same in either mode. -/
theorem writeInterfaceDesc_framed (empty : plain "") (mode : Mode) (desc : InterfaceDesc) :
    FramedIn plain word mode place (fun visit => writeInterfaceDesc visit desc)
      (Construct.interfaceDesc desc).shortMentions := by
  apply FramedIn.of_mode
  by_cases bare : desc.isEmpty = true
  · have none : (Construct.interfaceDesc desc).shortMentions = [] := by
      simp only [InterfaceDesc.isEmpty, Bool.and_eq_true, List.isEmpty_iff] at bare
      obtain ⟨⟨⟨abstracts, exact⟩, approx⟩, inherits⟩ := bare
      simp [Construct.shortMentions, abstracts, exact, approx, inherits]
    rw [none, bare]
    cases mode with
    | short => exact (Framed.words "any" rfl rfl).framedIn
    | long => exact (Framed.words "\x7b\x7d" rfl rfl).framedIn
  · rw [Bool.not_eq_true] at bare
    rw [bare]
    cases mode with
    | short =>
        have items : Framed plain word .short ⟨['{'], .within⟩ _ _ ⟨['{'], .within⟩ :=
          Framed.items empty false nofun desc
        have framed : Framed plain word .short ⟨[], place⟩ _ _ ⟨[], .within⟩ :=
          (Framed.words "interface\x7b " rfl rfl).seq (items.seq (Framed.inline "\x7d" rfl rfl))
        rw [List.append_nil] at framed
        exact framed.framedIn
    | long =>
        have opening : Literal "\x7b" ⟨[], place⟩ ['{'] := ⟨rfl, .inl rfl, rfl⟩
        have items : Framed plain word .long ⟨[], .front⟩ _ _ ⟨[], .front⟩ :=
          Framed.items empty true (fun _ => ⟨rfl, List.not_mem_nil⟩) desc
        have framed : Framed plain word .long ⟨[], place⟩ _ _ ⟨[], .within⟩ :=
          .block rfl List.not_mem_nil opening items
        exact framed.framedIn

theorem writeShort_framed (empty : plain "") (settled : place ≠ .front) (mode : Mode)
    {construct : Construct} (called : ∀ name, construct.name? = some name → word name)
    (named : ∀ text ∈ construct.strings, plain text) :
    FramedIn plain word mode place (fun visit => writeShort visit construct)
      construct.shortMentions := by
  cases construct with
  | basic | named | interfaceDecl | objectDecl | methodDecl | value | package =>
      exact (Framed.word settled (called _ rfl)).framedIn
  | signature sig =>
      have keyword : Framed plain word mode ⟨[], place⟩ (fun _ => write "func") []
          ⟨[], .within⟩ :=
        .words "func" rfl rfl
      exact (Framed.signature false nofun keyword named).framedIn
  | solid expr => exact (Framed.inst settled expr.target expr.typeArgs).framedIn_of_settled settled
  | structDesc desc => exact (Framed.structDesc named).framedIn_of_settled settled
  | union alternatives =>
      exact (Framed.union empty settled alternatives).framedIn_of_settled settled
  | interfaceDesc desc => exact writeInterfaceDesc_framed empty mode desc
  | interfaceInst inst =>
      exact (Framed.inst settled inst.decl inst.instanceTypes).framedIn_of_settled settled
  | objectInst inst =>
      exact (Framed.inst settled inst.decl inst.instanceTypes).framedIn_of_settled settled
  | methodInst inst =>
      exact (Framed.inst settled inst.decl inst.instanceTypes).framedIn_of_settled settled

/-- What packages own begins with words of its own in long mode. -/
theorem writeLong_framed (empty : plain "") {construct : Construct}
    (begins : place = .front → construct.kind.isOwned = true)
    (called : ∀ name, construct.name? = some name → word name)
    (named : ∀ text ∈ construct.strings, plain text) :
    FramedIn plain word .long place (fun visit => writeLong visit construct)
      construct.longMentions := by
  have inside : '{' ∉ ([] : List Char) := List.not_mem_nil
  have settled (other : construct.kind.isOwned = false) : place ≠ .front :=
    fun front => ne_true_of_eq_false other (begins front)
  have same (other : construct.kind.isOwned = false)
      (same : ∀ visit, writeLong visit construct = writeShort visit construct)
      (mentions : construct.longMentions = construct.shortMentions) :
      FramedIn plain word .long place (fun visit => writeLong visit construct)
        construct.longMentions := by
    rw [funext same, mentions]
    exact writeShort_framed empty (settled other) .long called named
  have keyword (text : String) (check : (unbroken text && beginsLine text) = true)
      (reads : openBehind [] text.toList = some []) :
      Framed plain word .long ⟨[], place⟩ (fun _ => write text) [] ⟨[], .within⟩ :=
    .words text check reads
  have inst {role : Role} (decl : Ref role) (types : List TypeRef) :
      Framed plain word .long ⟨[], .within⟩ (fun visit => writeInstance visit decl types)
        (.short decl :: types.map .short) ⟨[], .within⟩ :=
    .inst (by decide) decl types
  have call (sig : SignatureRef) : Framed plain word .long ⟨[], .within⟩
      (fun visit => writeCall visit "" sig) [.call "" sig] ⟨[], .within⟩ :=
    .call "" sig nofun
  cases construct with
  | basic | solid | structDesc | union | interfaceDesc =>
      exact same rfl (fun _ => rfl) rfl
  | named param =>
      exact ((Framed.word (settled rfl) (called _ rfl)).seq
        ((Framed.inline " " rfl rfl).seq (Framed.ref param.type))).framedIn
  | signature sig =>
      exact (Framed.signature true (fun _ => ⟨rfl, inside⟩) (keyword "func" rfl rfl)
        named).framedIn
  | interfaceDecl decl =>
      exact ((Framed.head rfl inside (keyword "type " rfl rfl) (named _ List.mem_cons_self)).seq
        ((Framed.inline " interface" rfl rfl).seq (Framed.body rfl inside decl.interface))).framedIn
  | objectDecl decl =>
      exact ((Framed.head rfl inside (keyword "type " rfl rfl) (named _ List.mem_cons_self)).seq
        ((Framed.inline " " rfl rfl).seq (Framed.body rfl inside decl.data))).framedIn
  | methodDecl decl =>
      have framed := (keyword "func " rfl rfl).seq ((Framed.receiver decl.receiver).seq
        ((Framed.head rfl inside (.plain empty) (named _ List.mem_cons_self)).seq
          (call decl.signature)))
      rw [List.nil_append, ← List.append_assoc] at framed
      exact framed.framedIn
  | interfaceInst data =>
      exact ((keyword "inst " rfl rfl).seq
        ((inst data.decl data.instanceTypes).seq
          ((Framed.inline " interface" rfl rfl).seq
            (Framed.body rfl inside data.resolved)))).framedIn
  | objectInst data =>
      exact ((keyword "inst " rfl rfl).seq
        ((inst data.decl data.instanceTypes).seq
          ((Framed.inline " " rfl rfl).seq (Framed.body rfl inside data.resolved)))).framedIn
  | methodInst data =>
      have framed := (keyword "inst func " rfl rfl).seq ((Framed.receiver data.receiver).seq
        ((inst data.decl data.instanceTypes).seq (call data.resolved)))
      rw [List.nil_append, ← List.append_assoc] at framed
      exact framed.framedIn
  | value item =>
      have opening : Framed plain word .long ⟨[], place⟩
          (fun _ => write (if item.isConst then "const " else "var ")) [] ⟨[], .within⟩ := by
        cases item.isConst with
        | false => exact keyword "var " rfl rfl
        | true => exact keyword "const " rfl rfl
      have front {text : Visit → Writer Unit} {mentions : List Mention}
          (framed : Framed plain word .long ⟨[], .within⟩ text mentions ⟨[], .within⟩) :=
        opening.seq (Framed.write_seq (named _ List.mem_cons_self)
          ((Framed.inline " " rfl rfl).seq framed))
      cases typed : item.type with
      | none =>
          have framed := front (Framed.inline "<type>" rfl rfl)
          simpa [writeLong, Construct.longMentions, typed] using framed.framedIn
      | some type =>
          have framed := front (Framed.ref type)
          simpa [writeLong, Construct.longMentions, typed] using framed.framedIn
  | package pack =>
      exact (Framed.package rfl (named _ List.mem_cons_self)
        (named _ (List.mem_cons_of_mem _ List.mem_cons_self))).framedIn

/-- **A construct's text is framed.** In a mode, the whole text of a construct visits what the
construct mentions in that mode. It may stand at the front of a line if it begins with words of its
own. -/
theorem writeConstruct_framed (empty : plain "") {construct : Construct}
    (begins : place = .front → Opens .whole mode construct.kind)
    (called : ∀ name, construct.name? = some name → word name)
    (named : ∀ text ∈ construct.strings, plain text) :
    FramedIn plain word mode place (fun visit => writeConstruct visit .whole construct)
      (construct.mentions mode) := by
  apply FramedIn.of_mode
  cases mode with
  | short =>
      apply writeShort_framed empty _ .short called named
      intro front
      rcases begins front with ⟨_, impossible⟩ | ⟨impossible, -⟩
      · cases impossible
      · cases impossible
  | long =>
      apply writeLong_framed empty _ called named
      intro front
      rcases begins front with ⟨_, impossible⟩ | ⟨-, owned⟩
      · cases impossible
      · exact owned

/-- The call of a signature visits what the signature mentions in short mode, and may stand at the
front of a line. -/
theorem writeConstruct_callOf_framed {name : String} {sig : Signature} (unbroken : plain name)
    (named : ∀ text ∈ (Construct.signature sig).strings, plain text) :
    FramedIn plain word mode place
      (fun visit => writeConstruct visit (.callOf name) (.signature sig))
      ((Construct.signature sig).mentions .short) :=
  (Framed.signature false nofun (.plain unbroken) named).framedIn

end Constructs

end Stub

end CodeGraph

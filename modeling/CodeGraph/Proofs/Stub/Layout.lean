import CodeGraph.Proofs.Stub.Framing

/-! # How texts are laid out

Lines end in long texts only, and only behind words. What comes at the front of an indented line
begins with words of its own, before it visits anything: it is a member of a package or the call of
a method in a contract. `Layout` is the evidence for that. It knows nothing of brackets, so every
text that is framed is laid out, and with it every construct's text
(`CodeGraph.Stub.writeConstruct_layout`).
-/

namespace CodeGraph

namespace Stub

open Writer

/-- Every text without the end of a line counts as plain. -/
def Tolerant (plain : String → Prop) : Prop := ∀ text, unbroken text = true → plain text

/-- A text in a mode that writes plain strings and visits what is listed. It is settled where it is
not at the front of a line, unless lines are not indented; the flags tell whether it is settled at
its beginning and at its end. -/
inductive Layout (plain : String → Prop) (mode : Mode) :
    Bool → (Visit → Writer Unit) → List Mention → Bool → Prop
  | nothing {settled : Bool} : Layout plain mode settled (fun _ => pure ()) [] settled
  | write {settled : Bool} {text : String} :
      plain text → Layout plain mode settled (fun _ => write text) [] settled
  | words {settled : Bool} {text : String} :
      plain text → text ≠ "" → Layout plain mode settled (fun _ => write text) [] true
  | endLine {settled : Bool} {text : String} : mode = .long → plain text → text ≠ "" →
      Layout plain mode settled (fun _ => do write text; newline) [] false
  | visit {settled : Bool} (mention : Mention) : settled = true ∨ mode = .long ∧ mention.Opens →
      Layout plain mode settled
        (fun visit => inMode mention.mode (visit mention.form mention.ref.id)) [mention] true
  | seq {settled between after : Bool} {first second : Visit → Writer Unit}
      {before behind : List Mention} :
      Layout plain mode settled first before between →
      Layout plain mode between second behind after →
      Layout plain mode settled (fun visit => do first visit; second visit) (before ++ behind) after
  | indented {settled after : Bool} {body : Visit → Writer Unit} {mentions : List Mention} :
      Layout plain mode false body mentions after →
      Layout plain mode settled (fun visit => indented (body visit)) mentions false
  | weaken {settled after : Bool} {text : Visit → Writer Unit} {mentions : List Mention} :
      Layout plain mode settled text mentions true → Layout plain mode settled text mentions after

namespace Layout

variable {plain : String → Prop} {mode : Mode} {settled after : Bool}

theorem of_eq {text same : Visit → Writer Unit} {mentions : List Mention}
    (laid : Layout plain mode settled text mentions after)
    (equal : ∀ visit, same visit = text visit) :
    Layout plain mode settled same mentions after := by
  rw [funext equal]
  exact laid

end Layout

/-- Whether a place is not at the front of a line. -/
def LinePlace.settled (place : LinePlace) : Bool := place ≠ .front

/-- Literals are not empty. -/
theorem Literal.nonempty {text : String} {start : Spot} {closed : List Char}
    (literal : Literal text start closed) : text ≠ "" := by
  rintro rfl
  rcases literal.begins with begins | ⟨-, nonempty⟩
  · cases begins
  · cases nonempty

/-- What is framed is laid out. -/
theorem Framed.layout {plain : String → Prop} (tolerant : Tolerant plain) {mode : Mode}
    {start finish : Spot} {text : Visit → Writer Unit} {mentions : List Mention}
    (framed : Framed plain plain mode start text mentions finish) :
    Layout plain mode start.place.settled text mentions finish.place.settled := by
  induction framed with
  | nothing => exact .nothing
  | plain isPlain => exact .write isPlain
  | word settled isPlain =>
      have begins : LinePlace.settled _ = true := decide_eq_true settled
      exact begins ▸ .write isPlain
  | literal literal => exact .words (tolerant _ literal.inLine) literal.nonempty
  | endLine long literal =>
      exact .endLine long (tolerant _ literal.inLine) literal.nonempty
  | @visit opened place mention front =>
      have visited : Layout plain mode place.settled
          (fun visit => inMode mention.mode (visit mention.form mention.ref.id)) [mention]
          true := by
        apply Layout.visit
        cases place with
        | within | loose => exact .inl rfl
        | front => exact .inr (front rfl)
      cases place <;> exact visited
  | seq _ _ first second => exact first.seq second
  | @block start _ _ _ _ long _ literal _ body =>
      have opening : Layout plain mode start.place.settled _ _ false :=
        .endLine long (tolerant _ literal.inLine) literal.nonempty
      have closing : Layout plain mode false _ _ true :=
        .words (tolerant "\x7d" rfl) (by decide)
      have laid := opening.seq (body.indented.seq closing)
      rw [List.append_nil, List.nil_append] at laid
      exact laid.of_eq fun visit => by simp
  | weaken _ ih => exact ih.weaken

/-- In a mode, a text does as one that is laid out. -/
def LayoutIn (plain : String → Prop) (mode : Mode) (settled : Bool) (text : Visit → Writer Unit)
    (mentions : List Mention) : Prop :=
  ∃ laid, Layout plain mode settled laid mentions true ∧
    ∀ visit transcript, transcript.mode = mode → text visit transcript = laid visit transcript

/-- A framed text is laid out in each mode. -/
theorem FramedIn.layoutIn {plain : String → Prop} (tolerant : Tolerant plain) {mode : Mode}
    {place : LinePlace} {text : Visit → Writer Unit} {mentions : List Mention}
    (framed : FramedIn plain plain mode place text mentions) :
    LayoutIn plain mode place.settled text mentions := by
  obtain ⟨simple, framed, equal⟩ := framed
  have laid := framed.layout tolerant
  refine ⟨simple, ?_, equal⟩
  cases place <;> exact laid

section Constructs

variable {plain : String → Prop} (tolerant : Tolerant plain)
include tolerant

/-- **A construct's text is laid out.** In a mode, the whole text of a construct visits what the
construct mentions in that mode, and it is settled at its end; it need not be settled before if it
begins with words of its own. -/
theorem writeConstruct_layout {mode : Mode} {settled : Bool} {construct : Construct}
    (begins : settled = true ∨ Opens .whole mode construct.kind)
    (named : ∀ text ∈ construct.strings, plain text) :
    LayoutIn plain mode settled (fun visit => writeConstruct visit .whole construct)
      (construct.mentions mode) := by
  have framed (place : LinePlace) (begins : place = .front → Opens .whole mode construct.kind) :
      LayoutIn plain mode place.settled _ (construct.mentions mode) :=
    (writeConstruct_framed (tolerant "" rfl) begins
      (fun _ called => named _ (Construct.mem_strings_of_name? called)) named).layoutIn tolerant
  cases settled with
  | true => exact framed .within nofun
  | false => exact framed .front fun _ => begins.resolve_left nofun

/-- The call of a signature visits what the signature mentions in short mode, and need not be
settled before. -/
theorem writeConstruct_callOf_layout {mode : Mode} {settled : Bool} {name : String}
    {sig : Signature} (unbroken : plain name)
    (named : ∀ text ∈ (Construct.signature sig).strings, plain text) :
    LayoutIn plain mode settled
      (fun visit => writeConstruct visit (.callOf name) (.signature sig))
      ((Construct.signature sig).mentions .short) := by
  have framed (place : LinePlace) : LayoutIn plain mode place.settled _ _ :=
    (writeConstruct_callOf_framed unbroken named).layoutIn tolerant
  cases settled with
  | true => exact framed .within
  | false => exact framed .front

end Constructs

/-- A text that is laid out visits what is listed. -/
theorem Layout.spells {plain : String → Prop} {mode : Mode} {settled after : Bool}
    {text : Visit → Writer Unit} {mentions : List Mention}
    (laid : Layout plain mode settled text mentions after) : Spells text mentions := by
  induction laid with
  | nothing => exact .nothing
  | write => exact .write _
  | words => exact .write _
  | endLine => exact (Spells.write _).seq .newline
  | visit mention => exact .visit mention
  | seq _ _ first second => exact first.seq second
  | indented _ body => exact body.indented
  | weaken _ ih => exact ih

/-- A text that is laid out spells what it mentions. -/
theorem LayoutIn.spells {plain : String → Prop} {mode : Mode} {settled : Bool}
    {text : Visit → Writer Unit} {mentions : List Mention}
    (laid : LayoutIn plain mode settled text mentions) : SpellsIn mode text mentions := by
  obtain ⟨simple, laid, equal⟩ := laid
  exact ⟨simple, laid.spells, equal⟩

/-- **A construct's text visits its mentions.** In a mode, the whole text of a construct visits what
the construct mentions in that mode. -/
theorem writeConstruct_spells (mode : Mode) (construct : Construct) :
    SpellsIn mode (fun visit => writeConstruct visit .whole construct)
      (construct.mentions mode) := by
  have laid : LayoutIn (fun _ => True) mode true _ (construct.mentions mode) :=
    writeConstruct_layout (fun _ _ => trivial) (.inl rfl) fun _ _ => trivial
  exact laid.spells

/-- The call of a signature visits what the signature mentions in short mode. -/
theorem writeConstruct_callOf_spells (mode : Mode) (name : String) (sig : Signature) :
    SpellsIn mode (fun visit => writeConstruct visit (.callOf name) (.signature sig))
      ((Construct.signature sig).mentions .short) := by
  have laid : LayoutIn (fun _ => True) mode true
      (fun visit => writeConstruct visit (.callOf name) (.signature sig))
      ((Construct.signature sig).mentions .short) :=
    writeConstruct_callOf_layout (fun _ _ => trivial) trivial fun _ _ => trivial
  exact laid.spells

/-- Whatever construct is written in whatever form, it is a text. -/
theorem exists_spells (mode : Mode) (form : Form) (construct : Construct) :
    ∃ mentions, SpellsIn mode (fun visit => writeConstruct visit form construct) mentions := by
  cases form with
  | whole => exact ⟨_, writeConstruct_spells mode construct⟩
  | callOf name =>
      by_cases kind : construct.kind = .signature
      · cases construct <;> cases kind
        exact ⟨_, writeConstruct_callOf_spells mode name _⟩
      · have spelled := (Spells.write name).seq (Spells.write "<signature>")
        cases construct <;>
          first | exact absurd rfl kind | exact ⟨_, _, spelled, fun _ _ _ => rfl⟩

end Stub

end CodeGraph

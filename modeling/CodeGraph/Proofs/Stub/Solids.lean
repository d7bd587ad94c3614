import CodeGraph.Project.Graph
import CodeGraph.Proofs.Loading.Instances
import CodeGraph.Proofs.Stub.Renumbering

/-! # Solids and their instances

A solid and its instance are both spelled as a declaration with the types that it is given. The one
is underway where the other is written alone, but a text that fails at cycles never comes back to
either. So the stub of one is written exactly when that of the other is, and they are the same
(`CodeGraph.Project.stub_solid_iff`).
-/

namespace CodeGraph

open Relation Stub Writer

namespace Stub

/-- The text of a construct itself is the one for the mode of the transcript. -/
theorem writeConstruct_whole (visit : Visit) (construct : Construct) (transcript : Transcript) :
    writeConstruct visit .whole construct transcript =
      match transcript.mode with
      | .short => writeShort visit construct transcript
      | .long => writeLong visit construct transcript := by
  show (match transcript.mode with
    | .short => writeShort visit construct
    | .long => writeLong visit construct) transcript = _
  cases transcript.mode <;> rfl

/-- An instance is spelled by its declaration and its type arguments. -/
theorem writeInstance_spells (decl : TypeRef) (types : List TypeRef) :
    Spells (fun visit => writeInstance visit decl types) ((decl :: types).map .short) := by
  have framed : Framed (fun _ => True) (fun _ => True) .short ⟨[], .within⟩
      (fun visit => writeInstance visit decl types) ((decl :: types).map .short) ⟨[], .within⟩ :=
    .inst (by decide) decl types
  exact (framed.layout fun _ _ => trivial).spells

end Stub

namespace Project

variable {project : Project}

/-- The text of a construct in a mode is a declaration with the types that an instance of it is
given. -/
structure SpellsInstance (project : Project) (pair : Nat × Mode) (decl : TypeRef)
    (types : List TypeRef) : Prop where
  text : ∃ construct, project.construct? pair.1 = some construct ∧
    ∀ visit transcript, transcript.mode = pair.2 →
      writeConstruct visit .whole construct transcript = writeInstance visit decl types transcript
  writes : ∀ type ∈ decl :: types, project.Writes pair (type.id, .short)

namespace SpellsInstance

/-- A construct that mentions a declaration and types spells an instance. -/
theorem of_mentions {id : Nat} {mode : Mode} {construct : Construct}
    (here : project.construct? id = some construct) {role : Role} {decl : Ref role}
    {types : List TypeRef}
    (mentions : construct.mentions mode = .short decl :: types.map .short)
    (text : ∀ visit transcript, transcript.mode = mode →
      writeConstruct visit .whole construct transcript =
        writeInstance visit decl types transcript) :
    project.SpellsInstance (id, mode) ⟨decl.id⟩ types where
  text := ⟨construct, here, text⟩
  writes := by
    refine List.forall_mem_cons.mpr ⟨⟨construct, here, .short decl, ?_, rfl⟩, ?_⟩
    · exact mentions ▸ List.mem_cons_self
    · intro type member
      have mentioned : Mention.short type ∈ types.map .short := List.mem_map_of_mem member
      exact ⟨construct, here, _, mentions ▸ List.mem_cons_of_mem _ mentioned, rfl⟩

/-- A solid is spelled as its target with its type arguments, in either mode. -/
theorem solid {id : Nat} {expr : Solid} (here : project.construct? id = some (.solid expr))
    (mode : Mode) : project.SpellsInstance (id, mode) expr.target expr.typeArgs := by
  apply of_mentions here
  · cases mode <;> rfl
  · intro visit transcript _
    rw [writeConstruct_whole]
    cases transcript.mode <;> rfl

/-- An instance of an object spells itself. -/
theorem objectInst {id : Nat} {inst : ObjectInst}
    (here : project.construct? id = some (.objectInst inst)) :
    project.SpellsInstance (id, .short) inst.decl.toType inst.instanceTypes := by
  apply of_mentions here rfl
  intro visit transcript short
  rw [writeConstruct_whole, short]
  rfl

/-- An instance of an interface spells itself. -/
theorem interfaceInst {id : Nat} {inst : InterfaceInst}
    (here : project.construct? id = some (.interfaceInst inst)) :
    project.SpellsInstance (id, .short) inst.decl.toType inst.instanceTypes := by
  apply of_mentions here rfl
  intro visit transcript short
  rw [writeConstruct_whole, short]
  rfl

variable {first second : Nat} {mode other : Mode} {decl : TypeRef} {types : List TypeRef}

/-- What spells an instance is written as its declaration with its type arguments. -/
theorem writeWithin_eq (spells : project.SpellsInstance (first, mode) decl types)
    {options : StubOptions} (room : Nat) (ample : 0 < options.maxDepth) (transcript : Transcript)
    (controlled : transcript.control = ⟨options, mode, [], 0⟩) :
    writeWithin project (room + 1) .whole first transcript =
      underway first (writeInstance (writeWithin project room) decl types) transcript := by
  obtain ⟨construct, here, equal⟩ := spells.text
  have empty : transcript.underway = [] := congrArg Control.underway controlled
  have fresh : (first, transcript.mode) ∉ transcript.underway := by simp [empty]
  have below : transcript.depth < transcript.options.maxDepth := by
    have level : transcript.depth = 0 := congrArg Control.depth controlled
    have sameOptions : transcript.options = options := congrArg Control.options controlled
    rw [level, sameOptions]
    exact ample
  exact (guarded_fresh fresh below here _).trans
    (underway_congr (equal _ _ (congrArg Control.mode controlled)))

/-- Where the text of a construct is written, it is echoed by that of one that is spelled alike. -/
theorem echoes (coherent : Coherent project.constructs)
    (spells : project.SpellsInstance (first, mode) decl types)
    (alike : project.SpellsInstance (second, other) decl types) {room : Nat}
    (passed : project.traverse ⟨mode, .fail, room + 1⟩ (room + 1) [] (first, mode) = .ok ()) :
    Echoes ⟨⟨mode, .fail, room + 1⟩, mode, [], 0⟩ ⟨⟨other, .fail, room + 1⟩, other, [], 0⟩
      (StubError.rename id) (writeWithin project (room + 1) .whole first)
      (writeWithin project (room + 1) .whole second) := by
  have acyclic {pair : Nat × Mode} (reaches : ReflTransGen project.Writes (first, mode) pair) :
      ¬ TransGen project.Writes pair pair :=
    not_transGen_of_traverse rfl passed reaches
  have related : Echoes (Control.within first ⟨⟨mode, .fail, room + 1⟩, mode, [], 0⟩)
      (Control.within second ⟨⟨other, .fail, room + 1⟩, other, [], 0⟩) (StubError.rename id)
      (writeInstance (writeWithin project room) decl types)
      (writeInstance (writeWithin project room) decl types) := by
    apply (writeInstance_spells decl types).related (echoes_congruent _ _ _)
    rw [List.forall_mem_map]
    intro type member
    have writes := spells.writes type member
    apply Echoes.inMode
    refine writeWithin_echoes coherent (.refl project) (writes.inside coherent) trivial
      ⟨rfl, rfl, rfl, rfl, rfl, ?_⟩ (Nat.add_comm 1 room)
    intro pair reaches
    -- Neither of the two is met again, or there would be a cycle before the first.
    have notFirst : pair ≠ (first, mode) := by
      rintro rfl
      exact acyclic .refl (.head' writes reaches)
    have notSecond : pair ≠ (second, other) := by
      rintro rfl
      exact acyclic (.head writes reaches) (.head' (alike.writes type member) reaches)
    simp [Control.within, notFirst, notSecond]
  exact related.underway.of_eq (spells.writeWithin_eq room (Nat.succ_pos room))
    (alike.writeWithin_eq room (Nat.succ_pos room))

/-- A stub that fails at cycles and is written is that of whatever is spelled alike. -/
theorem stub_eq_ok (coherent : Coherent project.constructs)
    (spells : project.SpellsInstance (first, mode) decl types)
    (alike : project.SpellsInstance (second, other) decl types) {limit : Nat} {text : String}
    (written : project.stub ⟨mode, .fail, limit⟩ first = .ok text) :
    project.stub ⟨other, .fail, limit⟩ second = .ok text := by
  obtain ⟨construct, here, -⟩ := spells.text
  have passed := (exists_stub_iff coherent (lt_size_of_construct? here)).mp ⟨text, written⟩
  cases limit with
  | zero => cases passed.symm.trans (traverse_zero (List.not_mem_nil))
  | succ room =>
      obtain ⟨succeeded, added⟩ := stub_eq_ok_iff.mp written
      have echoed : writeWithin project (room + 1) .whole second
          (.start ⟨other, .fail, room + 1⟩) = _ :=
        (echoes coherent spells alike passed).same (.start ⟨mode, .fail, room + 1⟩) rfl
      refine stub_eq_ok_iff.mpr ⟨?_, ?_⟩
      · rw [echoed, succeeded]
        rfl
      · rw [echoed]
        exact added

end SpellsInstance

/-- What a declaration lists points back to it. -/
theorem isInstance_of_mem_instanceIds {document : Node} (loaded : load document = .ok project)
    {id inst : Nat} {construct : Construct} {kind : Kind}
    (here : project.construct? id = some construct)
    (generic : construct.kind.instanceKind? = some kind) (listed : inst ∈ construct.instanceIds) :
    project.isInstance kind id inst = true := by
  rw [instanceIds_of_load loaded here generic] at listed
  exact (List.mem_filter.mp listed).2

/-- An instance that a search finds is listed and was given the types asked for. -/
theorem exists_of_firstInstance {kind : Kind} {types : List TypeRef}
    {typesOf : Ref (.only kind) → Except OutOfBounds (Option (List TypeRef))}
    {instances : List (Ref (.only kind))} {found : TypeRef}
    (searched : firstInstance types typesOf instances = .ok (some found)) :
    ∃ inst ∈ instances, typesOf inst = .ok (some types) ∧ inst.toType = found := by
  induction instances with
  | nil => cases searched
  | cons inst rest ih =>
      obtain ⟨given, asked, searched⟩ := bind_eq_ok_iff.mp searched
      by_cases same : given = some types
      · rw [if_pos same] at searched
        cases searched
        exact ⟨inst, List.mem_cons_self, same ▸ asked, rfl⟩
      · rw [if_neg same] at searched
        obtain ⟨later, member, matched⟩ := ih searched
        exact ⟨later, List.mem_cons_of_mem _ member, matched⟩

/-- Behind data stands a construct of their kind. -/
theorem construct?_of_data? {kind : Kind} {ref : Ref (.only kind)} {data : kind.Data}
    (held : project.data? ref = .ok (some data)) :
    project.construct? ref.id = some (.ofData kind data) := by
  obtain ⟨construct, here, holds⟩ := map_eq_ok_iff.mp held
  rw [construct_eq_ok_iff.mp here]
  unfold Construct.data? at holds
  split at holds
  · rename_i same
    subst same
    cases holds
    rw [Construct.ofData_data]
  · cases holds

/-- Behind type arguments stand the data that hold them. -/
theorem exists_data_of_typesOf {kind : Kind} {ref : Ref (.only kind)}
    {typesOf : kind.Data → List TypeRef} {types : List TypeRef}
    (given : (project.data? ref).map (Option.map typesOf) = .ok (some types)) :
    ∃ data, project.construct? ref.id = some (.ofData kind data) ∧ typesOf data = types := by
  obtain ⟨data, held, same⟩ := map_eq_ok_iff.mp given
  obtain ⟨data, rfl, equal⟩ := Option.map_eq_some_iff.mp same
  exact ⟨data, construct?_of_data? held, equal⟩

/-- The instance of an object spells its declaration with its types. -/
theorem spellsInstance_of_objectInst {decl : Nat} {ref : ObjectInstRef} {types : List TypeRef}
    (points : project.isInstance .objectInst decl ref.id = true)
    (given : project.objectInstanceTypes ref = .ok (some types)) :
    project.SpellsInstance (ref.id, .short) ⟨decl⟩ types := by
  obtain ⟨inst, here, rfl⟩ := exists_data_of_typesOf given
  rw [isInstance, here] at points
  cases (of_decide_eq_true points).2
  exact .objectInst here

/-- The instance of an interface spells its declaration with its types. -/
theorem spellsInstance_of_interfaceInst {decl : Nat} {ref : InterfaceInstRef}
    {types : List TypeRef} (points : project.isInstance .interfaceInst decl ref.id = true)
    (given : project.interfaceInstanceTypes ref = .ok (some types)) :
    project.SpellsInstance (ref.id, .short) ⟨decl⟩ types := by
  obtain ⟨inst, here, rfl⟩ := exists_data_of_typesOf given
  rw [isInstance, here] at points
  cases (of_decide_eq_true points).2
  exact .interfaceInst here

/-- The instance that is found for a solid is an instance of its target for its type arguments. -/
theorem spellsInstance_of_instanceOfSolid {document : Node} (loaded : load document = .ok project)
    {id : Nat} {inst : TypeRef} (found : project.instanceOfSolid ⟨id⟩ = .ok (some inst)) :
    ∃ expr, project.construct? id = some (.solid expr) ∧
      project.SpellsInstance (inst.id, .short) expr.target expr.typeArgs := by
  obtain ⟨held, asked, found⟩ := bind_eq_ok_iff.mp found
  cases held with
  | none => cases found
  | some expr =>
      refine ⟨expr, construct?_of_data? asked, ?_⟩
      obtain ⟨target, there, found⟩ := bind_eq_ok_iff.mp found
      have there := construct_eq_ok_iff.mp there
      cases target with
      | objectDecl decl =>
          obtain ⟨ref, listed, given, rfl⟩ := exists_of_firstInstance found
          exact spellsInstance_of_objectInst
            (isInstance_of_mem_instanceIds loaded there rfl (List.mem_map_of_mem listed)) given
      | interfaceDecl decl =>
          obtain ⟨ref, listed, given, rfl⟩ := exists_of_firstInstance found
          exact spellsInstance_of_interfaceInst
            (isInstance_of_mem_instanceIds loaded there rfl (List.mem_map_of_mem listed)) given
      | _ => cases found

/-- **A solid and its instance are spelled alike.** Under the policy to fail at cycles the stub of a
solid, in either mode, is written exactly when the short stub of its instance is, and they are the
same text. -/
theorem stub_solid_iff {document : Node} (loaded : load document = .ok project) {id : Nat}
    {inst : TypeRef} (found : project.instanceOfSolid ⟨id⟩ = .ok (some inst)) (mode : Mode)
    (limit : Nat) (text : String) :
    project.stub ⟨mode, .fail, limit⟩ id = .ok text ↔
      project.stub ⟨.short, .fail, limit⟩ inst.id = .ok text := by
  have coherent := (coherent_of_load loaded).1
  obtain ⟨expr, here, ofInst⟩ := spellsInstance_of_instanceOfSolid loaded found
  have ofSolid := SpellsInstance.solid here mode
  exact ⟨ofSolid.stub_eq_ok coherent ofInst, ofInst.stub_eq_ok coherent ofSolid⟩

end Project

namespace Sample

/-- A document of a generic list of which the fields spell an instance. -/
def chain : Node :=
  .object [("basics", .array [.string "int"]),
    ("named", .array [.object [("name", .string "T"), ("type", .number (.integer 1))]]),
    ("solids", .array [.object [("target", .number (.integer 5)),
      ("typeArgs", .array [.number (.integer 1)])]]),
    ("structDescs", .array [.object [("fields", .array [
      .object [("name", .string "next"), ("type", .number (.integer 3))]])]]),
    ("packages", .array [.object [("name", .string "lists"),
      ("objectDecls", .array [.object [("name", .string "List"),
        ("typeParams", .array [.number (.integer 2)]), ("data", .number (.integer 4))]]),
      ("objectInsts", .array [.object [("decl", .number (.integer 5)),
        ("instanceTypes", .array [.number (.integer 1)]),
        ("resolved", .number (.integer 4))]])]])]

/-- The project that this document spells. -/
def chainProject : Project where
  language := ""
  constructs := [
    .basic ⟨"int"⟩,
    .named ⟨"T", ⟨0⟩⟩,
    .solid ⟨⟨5⟩, [⟨0⟩]⟩,
    .structDesc ⟨[⟨"next", ⟨2⟩, false⟩]⟩,
    .package ⟨"lists", "", [],
      { Members.empty with objectDecls := [⟨5⟩], objectInsts := [⟨6⟩] }⟩,
    .objectDecl ⟨⟨"List", "", ⟨4⟩, [⟨1⟩]⟩, ⟨3⟩, [], [⟨6⟩]⟩,
    .objectInst ⟨⟨5⟩, [⟨0⟩], ⟨3⟩, []⟩]
  tables := ⟨[0, 1, 2, 3, 5, 6], [4], [], [], []⟩

theorem load_chain : Project.load chain = .ok chainProject := rfl

end Sample

namespace Project

/-- The solid of the sample is spelled as its instance. -/
theorem stub_solid_sample :
    load Sample.chain = .ok Sample.chainProject ∧
      Sample.chainProject.instanceOfSolid ⟨2⟩ = .ok (some ⟨6⟩) ∧
      Sample.chainProject.stub ⟨.short, .fail, 2⟩ 6 = .ok "List[int]" ∧
      Sample.chainProject.stub ⟨.long, .fail, 2⟩ 2 = .ok "List[int]" := by
  have found : Sample.chainProject.instanceOfSolid ⟨2⟩ = .ok (some ⟨6⟩) := rfl
  have written : Sample.chainProject.stub ⟨.short, .fail, 2⟩ 6 = .ok "List[int]" := by
    decide +kernel
  exact ⟨Sample.load_chain, found, written,
    (stub_solid_iff Sample.load_chain found .long 2 _).mpr written⟩

end Project

end CodeGraph

import CodeGraph.Proofs.Loading.TwoPasses
import CodeGraph.Proofs.Stub.Depth
import CodeGraph.Proofs.Stub.Shifting

/-! # The stubs of packages

The long stub of a package is a block of its members' own long stubs, each of them a level further
in (`CodeGraph.Project.stub_package`). It takes one level more than its members do, and fails with
the first of them.
-/

namespace CodeGraph

open Stub

namespace Package

/-- What the block of a package begins with, given the names of its imports. -/
def front (pack : Package) (imports : List String) : String :=
  "package " ++ pack.name ++ " \x7b\n" ++
    (if pack.path = "" then "" else "  path: " ++ pack.path ++ ";\n") ++
    if imports = [] then "" else "  imports: " ++ ", ".intercalate imports ++ ";\n"

/-- The block of a package, given the names of its imports and the stubs of its members. -/
def block (pack : Package) (imports members : List String) : String :=
  pack.front imports ++ String.join (members.map fun stub => indentLines stub ++ ";\n") ++ "\x7d"

/-- What a package owns is mentioned in long mode, with words of its own. -/
theorem exists_mention {pack : Package} {member : Nat} (owned : member ∈ pack.members.ids) :
    ∃ mention ∈ (Construct.package pack).mentions .long,
      mention.form = .whole ∧ mention.target = (member, .long) ∧ mention.Opens := by
  have mentioned {kind : Kind} {members : List (Ref (.only kind))} (isOwned : kind.isOwned = true)
      (here : member ∈ members.map Ref.id) :
      ∃ mention ∈ members.map Mention.long,
        mention.form = .whole ∧ mention.target = (member, .long) ∧ mention.Opens := by
    obtain ⟨ref, inside, rfl⟩ := List.mem_map.mp here
    exact ⟨.long ref, List.mem_map_of_mem inside, rfl, rfl, kind, rfl, .inr ⟨rfl, isOwned⟩⟩
  simp only [Members.ids, List.mem_append] at owned
  rcases owned with (((((here | here) | here) | here) | here) | here) | here <;>
    obtain ⟨mention, listed, facts⟩ := mentioned rfl here <;>
    refine ⟨mention, ?_, facts⟩ <;>
    simp only [Construct.mentions, Construct.longMentions, List.mem_append, listed, true_or,
      or_true]

end Package

namespace Writer

/-- Within a line, a writer adds a text and does nothing else. -/
def Adds (writer : Writer Unit) (transcript : Transcript) (added : String) : Prop :=
  writer transcript = (.ok (), { transcript with text := transcript.text ++ added })

namespace Adds

variable {transcript : Transcript}

theorem nothing : Adds (pure ()) transcript "" :=
  congrArg (Prod.mk _) (by rw [String.append_empty])

/-- Text within a line adds itself. -/
theorem write (begun : transcript.atLineStart = false) (text : String) :
    Adds (Writer.write text) transcript text := by
  show (_, transcript.write text) = _
  rw [Transcript.write_of_begun begun, ← begun]

/-- Two texts in a row add one behind the other. -/
theorem seq {first second : Writer Unit} {front back : String}
    (here : Adds first transcript front)
    (there : Adds second { transcript with text := transcript.text ++ front } back) :
    Adds (do first; second) transcript (front ++ back) := by
  rw [Adds, seq_apply, here]
  show second _ = _
  rw [there, String.append_assoc]

/-- Items with separators between them. -/
theorem items {α : Type} {writeItem : α → Writer Unit} {nameOf : α → String} (separator : String)
    (begun : transcript.atLineStart = false) {first : α} {rest : List α}
    (item : ∀ entry ∈ first :: rest, ∀ text,
      Adds (writeItem entry) { transcript with text } (nameOf entry)) :
    Adds (do writeItem first; writeRest separator writeItem rest) transcript
      (separator.intercalate ((first :: rest).map nameOf)) := by
  induction rest generalizing first transcript with
  | nil =>
      have one := (item first List.mem_cons_self transcript.text).seq nothing
      rw [String.append_empty] at one
      rw [List.map_cons, List.map_nil, String.intercalate_singleton]
      exact one
  | cons second later ih =>
      obtain ⟨one, others⟩ := List.forall_mem_cons.mp item
      rw [List.map_cons, List.map_cons, String.intercalate_cons_cons, String.append_assoc]
      refine (one transcript.text).seq ((write ?_ separator).seq (ih ?_ ?_))
      · exact begun
      · exact begun
      · exact fun entry member text => others entry member text

end Adds

end Writer

namespace Stub

open Writer

/-- The transcript at the front of a line in the block of a package. -/
def inBlock (options : StubOptions) (id : Nat) (text : String) : Transcript where
  options
  mode := .long
  indent := 1
  atLineStart := true
  text
  underway := [(id, .long)]
  depth := 1

/-- Writes a construct in long mode as a line. -/
def writeOwned (visit : Visit) (id : Nat) : Writer Unit := do
  inMode .long (visit .whole id)
  write ";"
  newline

/-- Members are written one after the other. -/
theorem writeMembers_eq (visit : Visit) {role : Role} (members : List (Ref role)) :
    writeMembers visit members = (members.map Ref.id).forM (writeOwned visit) := by
  induction members with
  | nil => rfl
  | cons member rest ih =>
      rw [writeMembers, ih]
      simp [writeOwned, writeBody]

/-- Writes what a package has between its braces. -/
def writeInside (visit : Visit) (pack : Package) : Writer Unit := do
  writeLine "path: " pack.path ";"
  (do if ← writeEach "imports: " ", " ";" (writeRef visit) pack.imports then newline)
  pack.members.ids.forM (writeOwned visit)

/-- A package is its opening, what is inside, and a brace. -/
theorem writePackage_eq (visit : Visit) (pack : Package) :
    writePackage visit pack = (do
      write "package "
      write pack.name
      write " \x7b"
      newline
      indented (writeInside visit pack)
      write "\x7d") := by
  have branch (taken : Bool) (first second : Writer Unit) :
      (do (if taken then first else pure ()); second) =
        if taken then (do first; second) else second := by
    cases taken <;> simp
  simp [writePackage, writeInside, writeMembers_eq, Members.ids, branch]

variable {project : Project} {options : StubOptions} {id : Nat} {text : String}

/-- A line in a block ends with a semicolon. -/
theorem end_apply :
    (do write ";"; newline : Writer Unit) { inBlock options id text with atLineStart := false } =
      (.ok (), inBlock options id (text ++ ";\n")) := by
  rw [seq_apply, Adds.write rfl ";"]
  show (_, inBlock options id (text ++ ";" ++ "\n")) = _
  rw [String.append_assoc]
  rfl

/-- A line of a block, whatever stands between its first word and its end. -/
theorem line_apply {front added : String} (nonempty : front ≠ "") {middle : Writer Unit}
    (here : ∀ text, middle.Adds { inBlock options id text with atLineStart := false } added) :
    (do write front; middle; write ";"; newline : Writer Unit) (inBlock options id text) =
      (.ok (), inBlock options id (text ++ ("  " ++ front ++ added ++ ";\n"))) := by
  have opened : write front (inBlock options id text) = (.ok (), { inBlock options id
      (text ++ ("  " ++ front)) with atLineStart := false }) :=
    congrArg (Prod.mk _) (Transcript.write_of_atLineStart rfl nonempty)
  rw [seq_apply, opened]
  show (do middle; write ";"; newline : Writer Unit) _ = _
  rw [seq_apply, here]
  refine end_apply.trans (congrArg (Prod.mk _) (congrArg (inBlock options id) ?_))
  show text ++ ("  " ++ front) ++ added ++ ";\n" = _
  simp only [String.append_assoc]

/-- The line for a path is written if there is a path. -/
theorem path_apply (path : String) :
    writeLine "path: " path ";" (inBlock options id text) =
      (.ok (), inBlock options id
        (text ++ if path = "" then "" else "  path: " ++ path ++ ";\n")) := by
  by_cases empty : path = ""
  · rw [if_pos empty, String.append_empty, empty]
    rfl
  · rw [if_neg empty]
    have line : writeLine "path: " path ";" =
        (do write "path: "; write path; write ";"; newline : Writer Unit) := by
      simp [writeLine, writeWrapped, empty]
    rw [line, line_apply (by decide) fun _ => Adds.write rfl path]
    rfl

/-- A package is its name in short mode, and a block in long mode. -/
theorem writeConstruct_package (visit : Visit) (pack : Package) (transcript : Transcript) :
    writeConstruct visit .whole (.package pack) transcript =
      (match transcript.mode with
        | .short => write pack.name
        | .long => writePackage visit pack) transcript := by
  show (match transcript.mode with
    | .short => writeShort visit (.package pack)
    | .long => writeLong visit (.package pack)) transcript = _
  cases transcript.mode <;> rfl

/-- A package is referred to by its name. -/
theorem import_adds {room : Nat} {imported : PackageRef} {other : Package}
    (there : project.construct? imported.id = some (.package other)) {transcript : Transcript}
    (fresh : (imported.id, .short) ∉ transcript.underway)
    (below : transcript.depth < transcript.options.maxDepth)
    (begun : transcript.atLineStart = false) :
    Adds (writeRef (writeWithin project (room + 1)) imported) transcript other.name := by
  have equal : ∀ (visit : Visit) (inner : Transcript), inner.mode = .short →
      writeConstruct visit .whole (.package other) inner = write other.name inner := by
    intro visit inner short
    rw [writeConstruct_package, short]
  have written := @writeWithin_fresh project room .whole imported.id
    { transcript with mode := .short } fresh below _ there _ equal
  let entered : Transcript := { transcript with mode := .short }.within imported.id
  have named : write other.name entered = _ := @Adds.write entered begun other.name
  show inMode .short (writeWithin project (room + 1) .whole imported.id) transcript = _
  rw [inMode, written, underway, named]
  simp only [entered, Transcript.within, Transcript.remove, List.erase_cons_head,
    Nat.add_sub_cancel]

/-- The line for imports names the packages, if there are any. -/
theorem imports_apply {room : Nat} {imports : List PackageRef} {nameOf : PackageRef → String}
    (ample : 1 < options.maxDepth)
    (named : ∀ imported ∈ imports, ∃ other,
      project.construct? imported.id = some (.package other) ∧ other.name = nameOf imported) :
    (do if ← writeEach "imports: " ", " ";" (writeRef (writeWithin project (room + 1))) imports
      then newline : Writer Unit) (inBlock options id text) =
        (.ok (), inBlock options id (text ++
          if imports.map nameOf = [] then ""
          else "  imports: " ++ ", ".intercalate (imports.map nameOf) ++ ";\n")) := by
  cases imports with
  | nil =>
      rw [List.map_nil, if_pos rfl, String.append_empty]
      rfl
  | cons first rest =>
      let visit : Visit := writeWithin project (room + 1)
      have line : (do if ← writeEach "imports: " ", " ";" (writeRef visit) (first :: rest)
          then newline : Writer Unit) = (do
            write "imports: "
            (do writeRef visit first; writeRest ", " (writeRef visit) rest)
            write ";"
            newline) := by
        simp [writeEach]
      have middle (before : String) := @Adds.items
        { inBlock options id before with atLineStart := false } _ (writeRef visit) nameOf ", " rfl
        first rest (by
          intro imported member later
          obtain ⟨other, there, same⟩ := named imported member
          rw [← same]
          exact import_adds there (by simp [inBlock]) ample rfl)
      rw [line, line_apply (by decide) middle]
      rfl

section Members

variable (coherent : Coherent project.constructs)
variable (plain : ∀ construct ∈ project.constructs, ∀ text ∈ construct.strings, '\n' ∉ text.toList)
variable {pack : Package} (here : project.construct? id = some (.package pack))
variable (cycles : CyclePolicy) (depth : Nat)
include coherent plain here

omit plain in
/-- Members are inside the arena. -/
theorem inside_of_owned {member : Nat} (owned : member ∈ pack.members.ids) :
    member < project.size := by
  obtain ⟨mention, mentioned, -, target, -⟩ := Package.exists_mention owned
  have writes : project.Writes (id, .long) (member, .long) :=
    ⟨.package pack, here, mention, mentioned, target⟩
  exact writes.inside coherent

/-- A member is written within its package as it is alone, a level further in. -/
theorem member_shifts {member : Nat} (owned : member ∈ pack.members.ids) (text : String) :
    let alone : Transcript := .start ⟨.long, cycles, depth⟩
    let within := inBlock ⟨.long, cycles, depth + 1⟩ id text
    let writer : Writer Unit := writeWithin project depth .whole member
    writer.Shifts id (depth + 1) text alone within ∧
      ((writer within).1 = .ok () → (writer within).2.Settled) := by
  intro alone within writer
  obtain ⟨mention, mentioned, whole, target, opens⟩ := Package.exists_mention owned
  have outermost : project.Turn [] (id, .long) := .start (Project.lt_size_of_construct? here)
  have nested := outermost.enter List.not_mem_nil
  have turn : project.Turn within.underway (member, within.mode) :=
    .next coherent nested ⟨.package pack, here, mention, mentioned, target⟩
  have sameId : mention.ref.id = member := congrArg Prod.fst target
  have long : mention.mode = .long := congrArg Prod.snd target
  have ready := fresh_of_opens coherent nested here mentioned rfl opens
  rw [target, whole, long, sameId] at ready
  have tolerant : Tolerant fun text => '\n' ∉ text.toList := by
    intro text inLine
    simpa [unbroken] using inLine
  have holds := @writeWithin_holds project _ _
    (shifts_compositional coherent id (depth + 1) text) coherent tolerant plain depth .whole member
    within (Nat.add_comm 1 depth) turn trivial nofun (.inr ready)
  exact ⟨holds.good alone ⟨rfl, rfl, rfl, rfl, rfl, rfl, rfl, rfl⟩, holds.settles⟩

/-- A member that is written alone is written within its package with its lines indented. -/
theorem member_apply {member : Nat} (owned : member ∈ pack.members.ids) {stub : String}
    (written : project.stub ⟨.long, cycles, depth⟩ member = .ok stub) (text : String) :
    inMode .long (writeWithin project depth .whole member)
        (inBlock ⟨.long, cycles, depth + 1⟩ id text) =
      (.ok (), { inBlock ⟨.long, cycles, depth + 1⟩ id (text ++ indentLines stub) with
        atLineStart := false }) := by
  obtain ⟨shifts, settles⟩ := member_shifts coherent plain here cycles depth owned text
  let alone : Transcript := .start ⟨.long, cycles, depth⟩
  let within := inBlock ⟨.long, cycles, depth + 1⟩ id text
  let writer : Writer Unit := writeWithin project depth .whole member
  obtain ⟨passedAlone, same⟩ : (writer alone).1 = .ok () ∧ (writer alone).2.text = stub :=
    Project.stub_eq_ok_iff.mp written
  have passed : (writer within).1 = .ok () := by
    rw [shifts.result, passedAlone]
    rfl
  have shifted : Shifted id (depth + 1) text (writer alone).2 (writer within).2 :=
    shifts.shifted passedAlone
  -- The lines are indented here, so what is settled is within a line.
  have begun : (writer within).2.atLineStart = false := by
    cases line : (writer within).2.atLineStart with
    | false => rfl
    | true => cases shifted.indent.symm.trans (settles passed line)
  have textual : (writer within).2.text = text ++ indentLines stub := by
    have beside := shifted.text
    rw [← shifted.line, begun, same] at beside
    rw [← beside]
    exact String.append_empty.symm
  have inside : member < project.size := inside_of_owned coherent here owned
  obtain ⟨result, added, line, -, runs⟩ :=
    @writeWithin_tidyAt _ coherent depth .whole _ inside within trivial
  have ran : writer within = _ := runs text
  show ((writer within).1, { (writer within).2 with mode := .long }) = _
  rw [ran] at passed begun textual ⊢
  cases passed
  cases begun
  rw [← textual]
  rfl

/-- A member that is written alone is a line of its package. -/
theorem writeOwned_apply {member : Nat} (owned : member ∈ pack.members.ids) {stub : String}
    (written : project.stub ⟨.long, cycles, depth⟩ member = .ok stub) (text : String) :
    writeOwned (writeWithin project depth) member
        (inBlock ⟨.long, cycles, depth + 1⟩ id text) =
      (.ok (), inBlock ⟨.long, cycles, depth + 1⟩ id (text ++ (indentLines stub ++ ";\n"))) := by
  rw [writeOwned, seq_apply, member_apply coherent plain here cycles depth owned written]
  refine end_apply.trans (congrArg (Prod.mk _) (congrArg (inBlock _ id) ?_))
  rw [String.append_assoc]

/-- A member fails in a package as it does alone, with the limit of the package. -/
theorem writeOwned_error {member : Nat} (owned : member ∈ pack.members.ids) {error : StubError}
    (failed : project.stub ⟨.long, cycles, depth⟩ member = .error error) (text : String) :
    (writeOwned (writeWithin project depth) member
      (inBlock ⟨.long, cycles, depth + 1⟩ id text)).1 = .error (error.withLimit (depth + 1)) := by
  obtain ⟨shifts, -⟩ := member_shifts coherent plain here cycles depth owned text
  let within := inBlock ⟨.long, cycles, depth + 1⟩ id text
  let writer : Writer Unit := writeWithin project depth .whole member
  have result : (inMode .long writer within).1 = .error (error.withLimit (depth + 1)) := by
    show (writer within).1 = _
    rw [shifts.result, Project.stub_eq_error_iff_fst.mp failed]
    rfl
  rw [writeOwned, seq_apply, result]
  exact result

/-- The members that are written alone are the lines of their package, one behind the other. -/
theorem members_apply {members : List Nat} (owned : ∀ member ∈ members, member ∈ pack.members.ids)
    {stubs : List String}
    (written : members.mapM (project.stub ⟨.long, cycles, depth⟩) = .ok stubs) (text : String) :
    members.forM (writeOwned (writeWithin project depth))
        (inBlock ⟨.long, cycles, depth + 1⟩ id text) =
      (.ok (), inBlock ⟨.long, cycles, depth + 1⟩ id
        (text ++ String.join (stubs.map fun stub => indentLines stub ++ ";\n"))) := by
  induction mapM_eq_ok_iff.mp written generalizing text with
  | nil =>
      show (_, inBlock _ id text) = (_, inBlock _ id (text ++ ""))
      rw [String.append_empty]
  | @cons member stub rest others atMember matched ih =>
      obtain ⟨first, later⟩ := List.forall_mem_cons.mp owned
      have here := writeOwned_apply coherent plain here cycles depth first atMember text
      rw [List.forM_eq_forM, List.forM_cons, seq_apply, here]
      refine (ih later (mapM_eq_ok_iff.mpr matched) _).trans ?_
      rw [List.map_cons, String.join_cons, String.append_assoc]

/-- The first member that fails alone fails within its package. -/
theorem members_error {members : List Nat} (owned : ∀ member ∈ members, member ∈ pack.members.ids)
    {error : StubError}
    (failed : members.mapM (project.stub ⟨.long, cycles, depth⟩) = .error error) (text : String) :
    (members.forM (writeOwned (writeWithin project depth))
        (inBlock ⟨.long, cycles, depth + 1⟩ id text)).1 =
      .error (error.withLimit (depth + 1)) := by
  induction members generalizing text with
  | nil => cases failed
  | cons member rest ih =>
      obtain ⟨first, later⟩ := List.forall_mem_cons.mp owned
      rw [List.forM_eq_forM, List.forM_cons, seq_apply]
      cases atMember : project.stub ⟨.long, cycles, depth⟩ member with
      | ok stub =>
          rw [writeOwned_apply coherent plain here cycles depth first atMember]
          apply ih later
          rw [List.mapM_cons, atMember] at failed
          cases others : rest.mapM (project.stub ⟨.long, cycles, depth⟩) with
          | ok stubs =>
              rw [others] at failed
              cases failed
          | error cause =>
              rw [others] at failed
              exact failed
      | error cause =>
          rw [List.mapM_cons, atMember] at failed
          cases failed
          have stopped := writeOwned_error coherent plain here cycles depth first atMember text
          rw [stopped]
          exact stopped

end Members

/-- Between its braces a package has its path and its imports before its members. -/
theorem writeInside_apply {room : Nat} {pack : Package} {nameOf : PackageRef → String}
    (ample : 1 < options.maxDepth)
    (named : ∀ imported ∈ pack.imports, ∃ other,
      project.construct? imported.id = some (.package other) ∧ other.name = nameOf imported) :
    writeInside (writeWithin project (room + 1)) pack
        (inBlock options id ("package " ++ pack.name ++ " \x7b\n")) =
      pack.members.ids.forM (writeOwned (writeWithin project (room + 1)))
        (inBlock options id (pack.front (pack.imports.map nameOf))) := by
  rw [writeInside, seq_apply, path_apply]
  show (do _; _ : Writer Unit) _ = _
  rw [seq_apply, imports_apply ample named]
  rfl

/-- The first line of a package. -/
theorem opening_apply (name : String) (rest : Writer Unit) :
    (do write "package "; write name; write " \x7b"; newline; rest : Writer Unit)
        { Transcript.start options with mode := .long, underway := [(id, .long)], depth := 1 } =
      rest { inBlock options id ("package " ++ name ++ " \x7b\n") with indent := 0 } := by
  let begun (text : String) : Transcript :=
    { inBlock options id text with indent := 0, atLineStart := false }
  have word : write "package " { Transcript.start options with
      mode := .long, underway := [(id, .long)], depth := 1 } = (.ok (), begun "package ") :=
    congrArg (Prod.mk _) (Transcript.write_of_atLineStart rfl (by decide))
  have named : write name (begun "package ") = (.ok (), begun ("package " ++ name)) :=
    Adds.write rfl name
  have brace : write " \x7b" (begun ("package " ++ name)) =
      (.ok (), begun ("package " ++ name ++ " \x7b")) :=
    Adds.write rfl _
  rw [seq_apply, word]
  show (do write name; write " \x7b"; newline; rest : Writer Unit) _ = _
  rw [seq_apply, named]
  show (do write " \x7b"; newline; rest : Writer Unit) _ = _
  rw [seq_apply, brace]
  show (do newline; rest : Writer Unit) _ = _
  rw [seq_apply]
  refine congrArg (fun text => rest { inBlock options id text with indent := 0 }) ?_
  show "package " ++ name ++ " \x7b" ++ "\n" = "package " ++ name ++ " \x7b\n"
  rw [String.append_assoc]
  rfl

/-- A package is its front, what its members come to, and its end. -/
theorem writePackage_apply {room : Nat} {pack : Package} {nameOf : PackageRef → String}
    (ample : 1 < options.maxDepth)
    (named : ∀ imported ∈ pack.imports, ∃ other,
      project.construct? imported.id = some (.package other) ∧ other.name = nameOf imported) :
    let run := pack.members.ids.forM (writeOwned (writeWithin project (room + 1)))
      (inBlock options id (pack.front (pack.imports.map nameOf)))
    writePackage (writeWithin project (room + 1)) pack
        { Transcript.start options with mode := .long, underway := [(id, .long)], depth := 1 } =
      match run.1 with
      | .ok () => (.ok (), { run.2 with indent := run.2.indent - 1 }.write "\x7d")
      | .error error => (.error error, { run.2 with indent := run.2.indent - 1 }) := by
  intro run
  let visit : Visit := writeWithin project (room + 1)
  let opening := "package " ++ pack.name ++ " \x7b\n"
  have within : writeInside visit pack (inBlock options id opening) = run :=
    writeInside_apply ample named
  have inside : indented (writeInside visit pack)
      { inBlock options id opening with indent := 0 } =
        (run.1, { run.2 with indent := run.2.indent - 1 }) := by
    rw [← within]
    rfl
  rw [writePackage_eq]
  refine (opening_apply pack.name _).trans ?_
  rw [seq_apply, inside]
  cases run.1 <;> rfl

/-- What a package imports are packages, so each of them has a name. -/
theorem exists_names (coherent : Coherent project.constructs) {pack : Package}
    (here : project.construct? id = some (.package pack)) :
    ∃ nameOf : PackageRef → String, ∀ imported ∈ pack.imports, ∃ other,
      project.construct? imported.id = some (.package other) ∧ other.name = nameOf imported := by
  have each (imported : PackageRef) : ∃ name, imported ∈ pack.imports → ∃ other,
      project.construct? imported.id = some (.package other) ∧ other.name = name := by
    by_cases listed : imported ∈ pack.imports
    · have stored : imported.any ∈ (Construct.package pack).refs :=
        List.mem_append_left _ (List.mem_map_of_mem listed)
      obtain ⟨target, there, accepts⟩ :=
        Project.exists_target coherent (List.mem_of_getElem? here) stored
      have same : target.kind = .package := of_decide_eq_true accepts
      cases target with
      | package other => exact ⟨other.name, fun _ => ⟨other, there, rfl⟩⟩
      | _ => cases same
    · exact ⟨"", fun member => absurd member listed⟩
  choose nameOf named using each
  exact ⟨nameOf, named⟩

end Stub

namespace Project

open Stub

variable {project : Project} {id : Nat}

/-- The stub of a package is what its front, its members and its end come to. -/
theorem stub_package_eq {room : Nat} {cycles : CyclePolicy} {pack : Package}
    (here : project.construct? id = some (.package pack)) {nameOf : PackageRef → String}
    (named : ∀ imported ∈ pack.imports, ∃ other,
      project.construct? imported.id = some (.package other) ∧ other.name = nameOf imported) :
    let options : StubOptions := ⟨.long, cycles, room + 2⟩
    let (result, transcript) := pack.members.ids.forM (writeOwned (writeWithin project (room + 1)))
      (inBlock options id (pack.front (pack.imports.map nameOf)))
    project.stub options id = result.map fun _ =>
      ({ transcript with indent := transcript.indent - 1 }.write "\x7d").text := by
  intro options
  let visit : Visit := writeWithin project (room + 1)
  let run := pack.members.ids.forM (writeOwned visit)
    (inBlock options id (pack.front (pack.imports.map nameOf)))
  let entered : Transcript := (Transcript.start options).within id
  show project.stub options id = run.1.map fun _ =>
    ({ run.2 with indent := run.2.indent - 1 }.write "\x7d").text
  have fresh := @writeWithin_fresh project (room + 1) .whole id (.start options)
    List.not_mem_nil (Nat.succ_pos _) _ here (fun visit => writePackage visit pack)
    fun visit inner long => by
      rw [writeConstruct_package, long]
      rfl
  have stub : project.stub options id = (writePackage visit pack entered).1.map fun _ =>
      (writePackage visit pack entered).2.text := by
    rw [stub_eq]
    show (writeWithin project (room + 1 + 1) .whole id (.start options)).1.map _ = _
    rw [fresh]
    rfl
  have written : writePackage visit pack entered = _ :=
    writePackage_apply (show 1 < room + 2 by omega) named
  rw [stub, written]
  cases run.1 <;> rfl

/-- **A package is put together from its members.** In a loaded project whose strings are without
the end of a line, the long stub of a package has one level more than its members have alone. There
is one if and only if there is one of every member, and it is the block of their stubs. If there is
none, the package fails as the first member without a stub does, with its own limit of depth. -/
theorem stub_package {document : Node} (loaded : load document = .ok project)
    (plain : ∀ construct ∈ project.constructs, ∀ text ∈ construct.strings, '\n' ∉ text.toList)
    {pack : Package} (here : project.construct? id = some (.package pack)) (cycles : CyclePolicy)
    {depth : Nat} (room : 1 ≤ depth) :
    ((∃ text, project.stub ⟨.long, cycles, depth + 1⟩ id = .ok text) ↔
      ∀ member ∈ pack.members.ids, ∃ text, project.stub ⟨.long, cycles, depth⟩ member = .ok text) ∧
    (∃ imports, List.Forall₂ (fun (imported : PackageRef) name => ∃ other,
        project.construct? imported.id = some (.package other) ∧ other.name = name)
          pack.imports imports ∧
      ∀ stubs, List.Forall₂ (fun member text =>
          project.stub ⟨.long, cycles, depth⟩ member = .ok text) pack.members.ids stubs →
        project.stub ⟨.long, cycles, depth + 1⟩ id = .ok (pack.block imports stubs)) ∧
    ∀ error, project.stub ⟨.long, cycles, depth + 1⟩ id = .error error ↔
      ∃ before member after cause, pack.members.ids = before ++ member :: after ∧
        (∀ earlier ∈ before, ∃ text, project.stub ⟨.long, cycles, depth⟩ earlier = .ok text) ∧
        project.stub ⟨.long, cycles, depth⟩ member = .error cause ∧
        error = cause.withLimit (depth + 1) := by
  obtain ⟨level, rfl⟩ := Nat.exists_eq_add_of_le' room
  have coherent := (coherent_of_load loaded).1
  obtain ⟨nameOf, named⟩ := exists_names coherent here
  let alone : Nat → Except StubError String := project.stub ⟨.long, cycles, level + 1⟩
  let front := pack.front (pack.imports.map nameOf)
  have whole := @stub_package_eq project id level cycles pack here nameOf named
  have written (stubs : List String) (each : pack.members.ids.mapM alone = .ok stubs) :
      project.stub ⟨.long, cycles, level + 1 + 1⟩ id =
        .ok (pack.block (pack.imports.map nameOf) stubs) := by
    have run := @members_apply project id coherent plain pack here cycles (level + 1)
      pack.members.ids (fun _ owned => owned) stubs each front
    -- Behind the block the indentation is back at the front of the line.
    have settled (text : String) :
        { inBlock ⟨.long, cycles, level + 1 + 1⟩ id text with indent := 0 }.Settled := fun _ => rfl
    refine whole.trans ?_
    rw [run]
    exact congrArg Except.ok ((settled _).text_write "\x7d")
  have failed (cause : StubError) (first : pack.members.ids.mapM alone = .error cause) :
      project.stub ⟨.long, cycles, level + 1 + 1⟩ id =
        .error (cause.withLimit (level + 1 + 1)) := by
    have run := @members_error project id coherent plain pack here cycles (level + 1)
      pack.members.ids (fun _ owned => owned) cause first front
    refine whole.trans ?_
    rw [run]
    rfl
  refine ⟨⟨?_, ?_⟩, ⟨pack.imports.map nameOf, ?_, ?_⟩, fun error => ⟨?_, ?_⟩⟩
  · rintro ⟨text, same⟩ member owned
    cases each : pack.members.ids.mapM alone with
    | ok stubs => exact exists_value_of_mapM each owned
    | error cause => cases same.symm.trans (failed cause each)
  · intro each
    obtain ⟨stubs, each⟩ := exists_mapM_eq_ok each
    exact ⟨_, written stubs each⟩
  · rw [List.forall₂_map_right_iff, List.forall₂_same]
    exact named
  · intro stubs each
    exact written stubs (mapM_eq_ok_iff.mpr each)
  · intro same
    cases each : pack.members.ids.mapM alone with
    | ok stubs => cases same.symm.trans (written stubs each)
    | error cause =>
        obtain ⟨before, member, after, split, earlier, atMember⟩ := mapM_eq_error_iff.mp each
        cases same.symm.trans (failed cause each)
        exact ⟨before, member, after, cause, split, earlier, atMember, rfl⟩
  · rintro ⟨before, member, after, cause, split, earlier, atMember, rfl⟩
    exact failed cause (mapM_eq_error_iff.mpr ⟨before, member, after, split, earlier, atMember⟩)

/-- The package of a generic list and its instance has a line for each of them. -/
theorem stub_package_sample :
    load Sample.document = .ok Sample.project ∧
      (∀ construct ∈ Sample.project.constructs, ∀ text ∈ construct.strings, '\n' ∉ text.toList) ∧
      ∃ pack, Sample.project.construct? 3 = some (.package pack) ∧
        ∃ decl inst, Sample.project.stub ⟨.long, .mark, 255⟩ 4 = .ok decl ∧
          Sample.project.stub ⟨.long, .mark, 255⟩ 5 = .ok inst ∧
          Sample.project.stub ⟨.long, .mark, 256⟩ 3 = .ok (pack.block [] [decl, inst]) := by
  have coherent := (coherent_of_load Sample.load_document).1
  have plain : ∀ construct ∈ Sample.project.constructs, ∀ text ∈ construct.strings,
      '\n' ∉ text.toList := by decide
  have writes (member : Nat) (inside : member < Sample.project.size) :
      ∃ text, Sample.project.stub ⟨.long, .mark, 255⟩ member = .ok text := by
    cases result : Sample.project.stub ⟨.long, .mark, 255⟩ member with
    | ok text => exact ⟨text, rfl⟩
    | error error =>
        rcases stub_eq_error coherent inside result with ⟨-, short⟩ | ⟨impossible, -⟩
        · exact absurd short (by decide)
        · cases impossible
  refine ⟨Sample.load_document, plain, _, rfl, ?_⟩
  obtain ⟨decl, first⟩ := writes 4 (by decide)
  obtain ⟨inst, second⟩ := writes 5 (by decide)
  refine ⟨decl, inst, first, second, ?_⟩
  obtain ⟨imports, named, written⟩ :=
    (@stub_package Sample.project 3 _ Sample.load_document plain _ rfl .mark 255 (by decide)).2.1
  cases named
  exact written [decl, inst] (.cons first (.cons second .nil))

end Project

end CodeGraph

import CodeGraph.CommandLine.Command
import CodeGraph.Proofs.CommandLine.StubArguments
import CodeGraph.Proofs.Loading.Integrity
import CodeGraph.Proofs.Loading.Lookup

/-! # All packages or one of them

The stub command prints everything that it is asked for, or nothing but a complaint. What it prints
for all packages is what it prints for one after the other, and its complaint is that about the
first package that has one (`CodeGraph.CommandLine.run_stub`).
-/

namespace CodeGraph

/-- Changing the error of steps in a row changes that of each. -/
theorem mapError_mapM {ε ε' α β : Type} {f : α → Except ε β} {cause : ε → ε'} (items : List α) :
    (items.mapM f).mapError cause = items.mapM fun item => (f item).mapError cause := by
  induction items with
  | nil => rfl
  | cons item rest ih =>
      rw [List.mapM_cons, List.mapM_cons, ← ih]
      cases f item with
      | error error => rfl
      | ok value => cases rest.mapM f <;> rfl

/-- One text in a row is joined to itself. -/
theorem join_mapM_singleton {ε α : Type} {f : α → Except ε String} (item : α) :
    ([item].mapM f).map String.join = f item := by
  rw [List.mapM_cons]
  cases f item with
  | error error => rfl
  | ok line => exact congrArg Except.ok (by simp)

namespace Project

variable {project : Project}

/-- The stub of a construct as a line. -/
def stubLine (project : Project) (options : StubOptions) (id : Nat) : Except StubError String :=
  (project.stub options id).map (· ++ "\n")

/-- The stubs of ids in a row are those of each, joined. -/
theorem stubLines_eq (options : StubOptions) (ids : List Nat) :
    project.stubLines options ids = (ids.mapM (project.stubLine options)).map String.join := by
  induction ids with
  | nil => rfl
  | cons id ids ih =>
      rw [stubLines, ih, List.mapM_cons, stubLine]
      cases project.stub options id with
      | error error => rfl
      | ok text =>
          cases ids.mapM (project.stubLine options) with
          | error error => rfl
          | ok lines => exact congrArg Except.ok String.join_cons.symm

/-- Every package can be looked up at its index. -/
theorem lookup_package {document : Node} (loaded : load document = .ok project) {position : Nat}
    {id : Nat} (listed : (project.table .packages)[position]? = some id) :
    project.lookup (.only .package) (position + 1 : Nat) = some ⟨id⟩ := by
  obtain ⟨kind, present, belongs⟩ :=
    (coherent_of_load loaded).2 .packages id (List.mem_of_getElem? listed)
  obtain ⟨construct, here, rfl⟩ := kinds_eq_some_iff.mp present
  have package : construct.kind = .package := by
    cases kind : construct.kind <;> rw [kind] at belongs <;> cases belongs
  have accepted : (Role.only .package).accepts construct.kind = true := by
    rw [package]
    rfl
  exact lookup_eq_some_iff.mpr ⟨position, construct, rfl, listed, here, accepted⟩

end Project

namespace CommandLine

variable {files : String → Except FileError String}

namespace Selection

/-- The constructs whose stubs a selection asks for, if the project has them. -/
def ids? (project : Project) : Selection → Option (List Nat)
  | all => some (project.table .packages)
  | type index => (project.lookup .anyType index).map fun ref => [ref.id]
  | package index => (project.lookup (.only .package) index).map fun ref => [ref.id]

variable {project : Project} {selection : Selection}

/-- What is selected by ids is written one id after the other. -/
theorem selectedStub_of_ids {ids : List Nat} (selected : selection.ids? project = some ids)
    (options : StubOptions) :
    selectedStub project selection options =
      (project.stubLines options ids).mapError StubError.message := by
  cases selection with
  | all =>
      cases selected
      rfl
  | type index | package index =>
      obtain ⟨ref, found, rfl⟩ := Option.map_eq_some_iff.mp selected
      simp only [selectedStub, found]

/-- A selection that leads nowhere ends in a complaint. -/
theorem selectedStub_of_none (selected : selection.ids? project = none) (options : StubOptions) :
    ∃ complaint, selectedStub project selection options = .error complaint := by
  cases selection with
  | all => cases selected
  | type index | package index =>
      have missing := Option.map_eq_none_iff.mp selected
      exact ⟨_, by simp only [selectedStub, missing]; rfl⟩

end Selection

/-- What the arguments of the stub command ask for, written in full. -/
def Rendering (files : String → Except FileError String) (arguments : List String)
    (output : String) : Prop :=
  ∃ request project ids lines, StubRequest.parse arguments = .ok request ∧
    projectIn files request.path = .ok project ∧ request.selection.ids? project = some ids ∧
    ids.mapM (project.stubLine request.options) = .ok lines ∧ output = String.join lines

/-- One command ends as others in a row: it prints what they print one after the other, or it has
the complaint of the first that fails. -/
structure Outcome.ComposedOf (whole : Outcome) (parts : List Outcome) : Prop where
  exits_iff : whole.exitCode = 0 ↔ ∀ part ∈ parts, part.exitCode = 0
  output : whole.exitCode = 0 → whole.output = String.join (parts.map Outcome.output)
  errors : whole.exitCode ≠ 0 → ∃ before part after, parts = before ++ part :: after ∧
    (∀ earlier ∈ before, earlier.exitCode = 0) ∧ part.exitCode ≠ 0 ∧ whole.errors = part.errors

namespace Outcome

/-- The exit code tells whether there is output. -/
theorem exitCode_ofResult {result : Except String String} :
    (ofResult result).exitCode = 0 ↔ ∃ output, result = .ok output := by
  cases result <;> simp [ofResult, done, failed]

/-- What is worked through item by item ends as the items do in a row. -/
theorem composedOf_mapM {α : Type} {f : α → Except String String} (items : List α) :
    (ofResult ((items.mapM f).map String.join)).ComposedOf
      (items.map fun item => ofResult (f item)) := by
  cases worked : items.mapM f with
  | ok lines =>
      have exits : (ofResult ((Except.ok lines).map String.join)).exitCode = 0 := rfl
      have printed : lines.map id = items.map fun item => (ofResult (f item)).output :=
        map_eq_of_mapM worked fun item _ line written => by rw [written]; rfl
      refine ⟨iff_of_true exits (List.forall_mem_map.mpr fun item member => ?_), fun _ => ?_,
        fun fails => absurd exits fails⟩
      · exact exitCode_ofResult.mpr (exists_value_of_mapM worked member)
      · rw [List.map_map, ← List.map_id lines, printed]
        rfl
  | error complaint =>
      obtain ⟨before, item, after, rfl, earlier, failed⟩ := mapM_eq_error_iff.mp worked
      have fails : (ofResult ((Except.error complaint).map String.join)).exitCode ≠ 0 :=
        Nat.one_ne_zero
      have complains : ofResult (f item) = .failed complaint := congrArg ofResult failed
      have itemFails : (ofResult (f item)).exitCode ≠ 0 := complains ▸ Nat.one_ne_zero
      refine ⟨iff_of_false fails fun exits => ?_, fun exits => absurd exits fails, fun _ => ?_⟩
      · exact itemFails (exits _ (List.mem_map_of_mem (by simp)))
      · refine ⟨_, _, _, List.map_append, List.forall_mem_map.mpr fun item member => ?_, itemFails,
          ?_⟩
        · exact exitCode_ofResult.mpr (earlier item member)
        · exact congrArg Outcome.errors complains.symm

end Outcome

section Runs

variable {request : StubRequest} {project : Project}

/-- A request that can be read is carried out. -/
theorem run_of_parse {arguments : List String}
    (parsed : StubRequest.parse arguments = .ok request) :
    run files ("stub" :: arguments) = .ofResult (stubOutput files request) := by
  rw [run, Command.parse, parsed]
  rfl

/-- The project in a file was loaded from its document. -/
theorem exists_document_of_projectIn {path : String}
    (loaded : projectIn files path = .ok project) :
    ∃ document, Project.load document = .ok project := by
  obtain ⟨text, -, spelled⟩ := bind_eq_ok_iff.mp loaded
  obtain ⟨document, -, loaded⟩ := bind_eq_ok_iff.mp (mapError_eq_ok_iff.mp spelled)
  exact ⟨document, loaded⟩

/-- What the stub command prints about one construct, or its complaint. -/
def lineOutput (project : Project) (request : StubRequest) (id : Nat) : Except String String :=
  (project.stubLine request.options id).mapError fun error =>
    s!"error: {request.path}: {error.message}"

/-- The output for ids is that of each, joined. -/
theorem stubOutput_of_ids (request : StubRequest)
    (loaded : projectIn files request.path = .ok project) {ids : List Nat}
    (selected : request.selection.ids? project = some ids) :
    stubOutput files request =
      (ids.mapM (lineOutput project request)).map String.join := by
  rw [stubOutput, loaded, ok_bind, Selection.selectedStub_of_ids selected, Project.stubLines_eq]
  show _ = (ids.mapM fun id => (project.stubLine request.options id).mapError _).map String.join
  rw [← mapError_mapM]
  cases ids.mapM (project.stubLine request.options) <;> rfl

/-- What is printed is the rendering of the request. -/
theorem rendering_of_output {arguments : List String} {output : String}
    (parsed : StubRequest.parse arguments = .ok request)
    (printed : stubOutput files request = .ok output) : Rendering files arguments output := by
  obtain ⟨project, loaded, written⟩ := bind_eq_ok_iff.mp printed
  have written := mapError_eq_ok_iff.mp written
  cases selected : request.selection.ids? project with
  | none =>
      obtain ⟨complaint, refused⟩ := Selection.selectedStub_of_none selected request.options
      cases refused.symm.trans written
  | some ids =>
      rw [Selection.selectedStub_of_ids selected, mapError_eq_ok_iff,
        Project.stubLines_eq] at written
      obtain ⟨lines, worked, joined⟩ := map_eq_ok_iff.mp written
      exact ⟨request, project, ids, lines, parsed, loaded, selected, worked, joined.symm⟩

/-- A rendering is printed, and nothing else happens. -/
theorem run_of_rendering {arguments : List String} {output : String}
    (rendered : Rendering files arguments output) :
    run files ("stub" :: arguments) = .done output := by
  obtain ⟨request, project, ids, lines, parsed, loaded, selected, worked, rfl⟩ := rendered
  rw [run_of_parse parsed, stubOutput, loaded, ok_bind, Selection.selectedStub_of_ids selected,
    Project.stubLines_eq, worked]
  rfl

/-- The command fails with a complaint, or what it prints is what it is asked for. -/
theorem run_stub_cases (files : String → Except FileError String) (arguments : List String) :
    (∃ complaint, run files ("stub" :: arguments) = .failed complaint) ∨
      ∃ output, Rendering files arguments output := by
  cases parsed : StubRequest.parse arguments with
  | error error =>
      refine .inl ⟨s!"error: {error.message}\n{stubUsage}", ?_⟩
      rw [run, Command.parse, parsed]
      rfl
  | ok request =>
      cases printed : stubOutput files request with
      | error complaint =>
          refine .inl ⟨complaint, ?_⟩
          rw [run_of_parse parsed, printed]
          rfl
      | ok output => exact .inr ⟨output, rendering_of_output parsed printed⟩

/-- The invocation with the index of a package. -/
theorem run_selected {before after : List String}
    (parsed : StubRequest.parse (before ++ after) = .ok request)
    (all : request.selection = .all) (loaded : projectIn files request.path = .ok project)
    (few : (project.table .packages).length ≤ Decimal.maxSigned) {position id : Nat}
    (listed : (project.table .packages)[position]? = some id) :
    run files ("stub" :: (before ++ "--package" :: toString (position + 1) :: after)) =
      .ofResult (lineOutput project request id) := by
  obtain ⟨inside, -⟩ := List.getElem?_eq_some_iff.mp listed
  obtain ⟨document, spelled⟩ := exists_document_of_projectIn loaded
  let chosen : StubRequest := { request with selection := .package (position + 1 : Nat) }
  have chosenParsed :
      StubRequest.parse (before ++ "--package" :: toString (position + 1) :: after) = .ok chosen :=
    StubRequest.parse_selected parsed all .package (Decimal.signed?_toString (by omega))
  have selected : chosen.selection.ids? project = some [id] := by
    rw [Selection.ids?, Project.lookup_package spelled listed]
    rfl
  rw [run_of_parse chosenParsed, stubOutput_of_ids chosen loaded selected, join_mapM_singleton]
  rfl

end Runs

/-- **The stub command prints all or nothing, package by package.** On any files and arguments it
prints what it is asked for in full, or fails with a complaint and prints nothing. Arguments that
select nothing and lead to a file that loads end as those end in a row that select one package
after the other; an index has to fit 64 bits, as any list in memory does. -/
theorem run_stub (files : String → Except FileError String) :
    (∀ arguments,
      (∃ output, Rendering files arguments output ∧
        run files ("stub" :: arguments) = ⟨0, output, ""⟩) ∨
      ((¬ ∃ output, Rendering files arguments output) ∧
        ∃ errors, errors ≠ "" ∧ run files ("stub" :: arguments) = ⟨1, "", errors⟩)) ∧
    ∀ before after request project, StubRequest.parse (before ++ after) = .ok request →
      request.selection = .all → projectIn files request.path = .ok project →
      (project.table .packages).length ≤ Decimal.maxSigned →
      (run files ("stub" :: (before ++ after))).ComposedOf
        ((List.range' 1 (project.table .packages).length).map fun index =>
          run files ("stub" :: (before ++ "--package" :: toString index :: after))) := by
  constructor
  · intro arguments
    rcases run_stub_cases files arguments with ⟨complaint, failed⟩ | ⟨output, rendered⟩
    · refine .inr ⟨?_, complaint ++ "\n", by simp, failed⟩
      rintro ⟨output, rendered⟩
      cases failed.symm.trans (run_of_rendering rendered)
    · exact .inl ⟨output, rendered, run_of_rendering rendered⟩
  · intro before after request project parsed all loaded few
    have parts : (List.range' 1 (project.table .packages).length).map (fun index =>
        run files ("stub" :: (before ++ "--package" :: toString index :: after))) =
          (project.table .packages).map fun id => .ofResult (lineOutput project request id) := by
      apply List.ext_getElem (by simp)
      intro position _ inside
      rw [List.length_map] at inside
      rw [List.getElem_map, List.getElem_map, List.getElem_range', Nat.one_mul, Nat.add_comm]
      exact run_selected parsed all loaded few (List.getElem?_eq_getElem inside)
    rw [parts, run_of_parse parsed, stubOutput_of_ids request loaded (by rw [all]; rfl)]
    exact Outcome.composedOf_mapM _

end CommandLine

namespace Sample

/-- The text of a document of two packages. -/
def twoPackages : String :=
  "\x7b\"packages\": [\x7b\"name\": \"a\"\x7d, \x7b\"name\": \"b\", \"imports\": [1]\x7d]\x7d"

/-- The project that this text spells. -/
def twoPackagesProject : Project where
  language := ""
  constructs := [.package ⟨"a", "", [], .empty⟩, .package ⟨"b", "", [⟨0⟩], .empty⟩]
  tables := ⟨[], [0, 1], [], [], []⟩

end Sample

namespace CommandLine

/-- The stubs of two packages are printed one after the other. -/
theorem run_stub_sample :
    StubRequest.parse (["--short"] ++ ["code.json"]) =
        .ok ⟨"code.json", .all, ⟨.short, .fail, 256⟩⟩ ∧
      projectIn (fun _ => .ok Sample.twoPackages) "code.json" = .ok Sample.twoPackagesProject ∧
      (Sample.twoPackagesProject.table .packages).length ≤ Decimal.maxSigned ∧
      (run (fun _ => .ok Sample.twoPackages) ["stub", "--short", "code.json"]).ComposedOf
        [run (fun _ => .ok Sample.twoPackages) ["stub", "--short", "--package", "1", "code.json"],
          run (fun _ => .ok Sample.twoPackages)
            ["stub", "--short", "--package", "2", "code.json"]] := by
  have parsed : StubRequest.parse (["--short"] ++ ["code.json"]) =
      .ok ⟨"code.json", .all, ⟨.short, .fail, 256⟩⟩ := by decide +kernel
  have loaded : projectIn (fun _ => .ok Sample.twoPackages) "code.json" =
      .ok Sample.twoPackagesProject := by decide +kernel
  have few : (Sample.twoPackagesProject.table .packages).length ≤ Decimal.maxSigned := by decide
  exact ⟨parsed, loaded, few, (run_stub _).2 ["--short"] ["code.json"] _ _ parsed rfl loaded few⟩

end CommandLine

end CodeGraph

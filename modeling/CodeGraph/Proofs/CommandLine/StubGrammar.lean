import CodeGraph.Proofs.CommandLine.StubArguments
import Mathlib.Data.List.Basic
import Mathlib.Data.List.Perm.Basic

/-! # The grammar of the stub command's arguments

Arguments of the stub command split into units, each of which is one argument or a flag with its
index (`CodeGraph.CommandLine.SplitsInto`). They are accepted where there is one path among the
units and at most one selection, and the units alone tell what is asked for
(`CodeGraph.CommandLine.StubRequest.parse_iff_units`). So neither the order of the units matters,
but for options that are repeated, nor how a selection is spelled.
-/

namespace CodeGraph

namespace Decimal

/-- A nonempty run of decimal digits spells a number. -/
structure Digits (text : List Char) (n : Nat) : Prop where
  nonempty : text ≠ []
  decimal : ∀ c ∈ text, c.isDigit = true
  spells : value text = n

/-- The unsigned 64-bit numerals. They may begin with a plus sign, as signed ones may. -/
inductive Unsigned : List Char → Nat → Prop
  | bare {text : List Char} {n : Nat} (digits : Digits text n) (fits : n ≤ maxUnsigned) :
    Unsigned text n
  | plus {text : List Char} {n : Nat} (digits : Digits text n) (fits : n ≤ maxUnsigned) :
    Unsigned ('+' :: text) n

/-- The signed 64-bit numerals. -/
inductive Signed : List Char → Int → Prop
  | bare {text : List Char} {n : Nat} (digits : Digits text n) (fits : n ≤ maxSigned) :
    Signed text n
  | plus {text : List Char} {n : Nat} (digits : Digits text n) (fits : n ≤ maxSigned) :
    Signed ('+' :: text) n
  | minus {text : List Char} {n : Nat} (digits : Digits text n) (fits : n ≤ maxSigned + 1) :
    Signed ('-' :: text) (-n)

/-- A numeral is read if its digits stay below the limit. -/
theorem upTo?_iff_digits {limit n : Nat} {text : List Char} :
    upTo? limit text = some n ↔ Digits text n ∧ n ≤ limit := by
  rw [upTo?_eq_some_iff, List.all_eq_true]
  constructor
  · rintro ⟨nonempty, decimal, fits, rfl⟩
    exact ⟨⟨nonempty, decimal, rfl⟩, fits⟩
  · rintro ⟨⟨nonempty, decimal, rfl⟩, fits⟩
    exact ⟨nonempty, decimal, fits, rfl⟩

/-- Digits do not begin with a sign. -/
theorem Digits.head_ne {c : Char} {text : List Char} {n : Nat} (digits : Digits (c :: text) n) :
    c ≠ '+' ∧ c ≠ '-' := by
  have decimal := digits.decimal c List.mem_cons_self
  constructor <;>
    · rintro rfl
      cases decimal

/-- A number without sign is read from what spells one. -/
theorem unsigned?_eq_some_iff {text : List Char} {n : Nat} :
    unsigned? text = some n ↔ Unsigned text n := by
  constructor
  · intro read
    unfold unsigned? at read
    split at read <;> obtain ⟨digits, fits⟩ := upTo?_iff_digits.mp read
    · exact .plus digits fits
    · exact .bare digits fits
  · intro numeral
    cases numeral with
    | bare digits fits =>
        unfold unsigned?
        split
        · exact absurd rfl digits.head_ne.1
        · exact upTo?_iff_digits.mpr ⟨digits, fits⟩
    | plus digits fits => exact upTo?_iff_digits.mpr ⟨digits, fits⟩

/-- Behind a minus the magnitude may be one larger. -/
theorem signed?_minus (text : List Char) :
    signed? ('-' :: text) = (upTo? (maxSigned + 1) text).map fun n : Nat => -(n : Int) := by
  rw [signed?]
  cases upTo? (maxSigned + 1) text <;> rfl

/-- A number with a sign is read from what spells one. -/
theorem signed?_eq_some_iff {text : List Char} {index : Int} :
    signed? text = some index ↔ Signed text index := by
  constructor
  · intro read
    unfold signed? at read
    split at read
    · obtain ⟨n, magnitude, rfl⟩ := Option.map_eq_some_iff.mp read
      obtain ⟨digits, fits⟩ := upTo?_iff_digits.mp magnitude
      exact .plus digits fits
    · obtain ⟨n, magnitude, rfl⟩ := Option.map_eq_some_iff.mp ((signed?_minus _).symm.trans read)
      obtain ⟨digits, fits⟩ := upTo?_iff_digits.mp magnitude
      exact .minus digits fits
    · obtain ⟨n, magnitude, rfl⟩ := Option.map_eq_some_iff.mp read
      obtain ⟨digits, fits⟩ := upTo?_iff_digits.mp magnitude
      exact .bare digits fits
  · intro numeral
    cases numeral with
    | bare digits fits =>
        unfold signed?
        split
        · exact absurd rfl digits.head_ne.1
        · exact absurd rfl digits.head_ne.2
        · rw [upTo?_iff_digits.mpr ⟨digits, fits⟩]
          rfl
    | plus digits fits =>
        rw [signed?, upTo?_iff_digits.mpr ⟨digits, fits⟩]
        rfl
    | minus digits fits =>
        rw [signed?_minus, upTo?_iff_digits.mpr ⟨digits, fits⟩]
        rfl

end Decimal

namespace CommandLine

/-- What comes after a start makes up the text with it. -/
theorem after?_eq_some_iff {start text rest : String} :
    after? start text = some rest ↔ text = start ++ rest := by
  rw [after?, Option.map_eq_some_iff]
  simp only [List.isPrefixOf?_eq_some_iff_append_eq]
  constructor
  · rintro ⟨rest, split, rfl⟩
    rw [← String.toList_inj, ← split, String.toList_append, String.toList_ofList]
  · rintro rfl
    exact ⟨rest.toList, String.toList_append.symm, String.ofList_toList⟩

theorem after?_append (start rest : String) : after? start (start ++ rest) = some rest :=
  after?_eq_some_iff.mpr rfl

/-- Nothing comes after a start that the text does not have. -/
theorem after?_eq_none_iff {start text : String} :
    after? start text = none ↔ ∀ rest, text ≠ start ++ rest := by
  simp only [Option.eq_none_iff_forall_ne_some, ne_eq, after?_eq_some_iff]

/-! ## Arguments by themselves -/

namespace StubArgument

/-- The arguments that are flags by themselves. -/
def flags : List String := ["--short", "--long", "--mark-cycles", "--type", "--package"]

/-- An argument that is no flag by itself is told by how it begins. -/
theorem ofString_of_not_flag {text : String} (other : text ∉ flags) :
    ofString text =
      match after? "--max-depth=" text, after? "--type=" text, after? "--package=" text with
      | some depth, _, _ => maxDepth depth
      | none, some index, _ => selectIndex .type index
      | none, none, some index => selectIndex .package index
      | none, none, none => if (after? "-" text).isSome then option text else path text := by
  simp only [flags, List.mem_cons, List.not_mem_nil, or_false, not_or] at other
  obtain ⟨short, long, markCycles, type, package⟩ := other
  rw [ofString, if_neg short, if_neg long, if_neg markCycles, if_neg type, if_neg package]
  cases after? "--max-depth=" text <;> cases after? "--type=" text <;>
    cases after? "--package=" text <;> rfl

/-- An option with its value in it is no flag. -/
theorem not_flag_of_assigned (name text : String) : name ++ "=" ++ text ∉ flags := by
  intro flag
  have assigned : '=' ∈ (name ++ "=" ++ text).toList := by simp
  have free : ∀ flag ∈ flags, '=' ∉ flag.toList := by decide
  exact free _ flag assigned

/-- A depth is recognised by its option. -/
theorem ofString_maxDepth (text : String) : ofString ("--max-depth=" ++ text) = maxDepth text := by
  have other : "--max-depth=" ++ text ∉ flags := not_flag_of_assigned "--max-depth" text
  rw [ofString_of_not_flag other, after?_append]

/-- A selection is recognised by its option. -/
theorem ofString_selectIndex (what : Selectable) (text : String) :
    ofString (what.flag ++ "=" ++ text) = selectIndex what text := by
  have noDepth : after? "--max-depth=" (what.flag ++ "=" ++ text) = none := by
    rw [after?_eq_none_iff]
    cases what <;> simp [Selectable.flag, ← String.toList_inj]
  have noType : after? "--type=" (Selectable.package.flag ++ "=" ++ text) = none := by
    rw [after?_eq_none_iff]
    simp [Selectable.flag, ← String.toList_inj]
  rw [ofString_of_not_flag (not_flag_of_assigned what.flag text), noDepth]
  cases what with
  | type =>
      have type : after? "--type=" (Selectable.type.flag ++ "=" ++ text) = some text :=
        after?_append "--type=" text
      rw [type]
  | package =>
      have package : after? "--package=" (Selectable.package.flag ++ "=" ++ text) = some text :=
        after?_append "--package=" text
      rw [noType, package]

/-- An argument that does not begin with a dash is a path. -/
theorem ofString_of_no_dash {text : String} (plain : text.toList.head? ≠ some '-') :
    ofString text = path text := by
  have free {start : String} (dash : start.toList.head? = some '-') :
      after? start text = none := by
    rw [after?_eq_none_iff]
    rintro rest rfl
    rw [String.toList_append, List.head?_append, dash] at plain
    exact plain rfl
  have other : text ∉ flags := by
    intro flag
    have dashes : ∀ flag ∈ flags, flag.toList.head? = some '-' := by decide
    exact plain (dashes text flag)
  rw [ofString_of_not_flag other, free (by decide), free (by decide), free (by decide),
    free (by decide)]
  rfl

/-- How an argument is spelled. -/
def text : StubArgument → String
  | mode .short => "--short"
  | mode .long => "--long"
  | markCycles => "--mark-cycles"
  | select what => what.flag
  | selectIndex what index => what.flag ++ "=" ++ index
  | maxDepth text => "--max-depth=" ++ text
  | option text => text
  | path text => text

/-- What an argument is recognised as is what it spells. -/
theorem text_ofString (argument : String) : (ofString argument).text = argument := by
  by_cases flag : argument ∈ flags
  · have spelled : ∀ flag ∈ flags, (ofString flag).text = flag := by decide
    exact spelled argument flag
  · rw [ofString_of_not_flag flag]
    split
    · rename_i assigned
      exact (after?_eq_some_iff.mp assigned).symm
    · rename_i assigned
      exact (after?_eq_some_iff.mp assigned).symm
    · rename_i assigned
      exact (after?_eq_some_iff.mp assigned).symm
    · split <;> rfl

/-- What is recognised as a path does not begin with a dash. -/
theorem no_dash_of_path {argument given : String} (recognised : ofString argument = path given) :
    given.toList.head? ≠ some '-' := by
  obtain rfl : given = argument := by
    have same := text_ofString argument
    rwa [recognised] at same
  have other : given ∉ flags := by
    intro flag
    have flagged : ∀ flag ∈ flags, ofString flag ≠ path flag := by decide
    exact flagged given flag recognised
  rw [ofString_of_not_flag other] at recognised
  intro dash
  obtain ⟨rest, begins⟩ := List.head?_eq_some_iff.mp dash
  have dashed : after? "-" given = some (String.ofList rest) := by
    rw [after?_eq_some_iff, ← String.toList_inj, begins]
    simp
  rw [dashed] at recognised
  split at recognised <;> cases recognised

end StubArgument

namespace Selection

/-- The selection that was made, if there was one. -/
def chosen : Selection → List Selection
  | all => []
  | selection => [selection]

theorem chosen_all : all.chosen = [] := rfl

theorem chosen_selection (what : Selectable) (index : Int) :
    (what.selection index).chosen = [what.selection index] := by
  cases what <;> rfl

/-- A selection of one kind is chosen. -/
theorem chosen_of_ne {selection : Selection} (made : selection ≠ all) :
    selection.chosen = [selection] := by
  cases selection with
  | all => exact absurd rfl made
  | _ => rfl

/-- At most one selection is chosen. -/
theorem length_chosen_le (selection : Selection) : selection.chosen.length ≤ 1 := by
  cases selection <;> simp [chosen]

end Selection

/-! ## Units -/

/-- What an argument, or a flag together with its index, asks for. -/
inductive StubUnit
  | mode (mode : Mode)
  | markCycles
  | maxDepth (limit : Nat)
  | select (what : Selectable) (index : Int)
  | path (text : String)
deriving DecidableEq

namespace StubUnit

/-- The spellings of a unit. A selection is spelled as one argument or as two, and a path is
anything that does not begin with a dash. -/
inductive Spelled : StubUnit → List String → Prop
  | short : Spelled (mode .short) ["--short"]
  | long : Spelled (mode .long) ["--long"]
  | markCycles : Spelled markCycles ["--mark-cycles"]
  | maxDepth {text : String} {limit : Nat} (numeral : Decimal.Unsigned text.toList limit) :
    Spelled (maxDepth limit) ["--max-depth=" ++ text]
  | apart {what : Selectable} {text : String} {index : Int}
    (numeral : Decimal.Signed text.toList index) : Spelled (select what index) [what.flag, text]
  | joined {what : Selectable} {text : String} {index : Int}
    (numeral : Decimal.Signed text.toList index) :
    Spelled (select what index) [what.flag ++ "=" ++ text]
  | path {text : String} (plain : text.toList.head? ≠ some '-') : Spelled (path text) [text]

/-- The modes among units, in order. -/
def modes (units : List StubUnit) : List Mode :=
  units.filterMap fun | mode asked => some asked | _ => none

/-- The nesting limits among units, in order. -/
def limits (units : List StubUnit) : List Nat :=
  units.filterMap fun | maxDepth limit => some limit | _ => none

/-- The selections among units, in order. -/
def selections (units : List StubUnit) : List Selection :=
  units.filterMap fun | select what index => some (what.selection index) | _ => none

/-- The paths among units, in order. -/
def paths (units : List StubUnit) : List String :=
  units.filterMap fun | path text => some text | _ => none

end StubUnit

/-- Arguments that are spellings of units, one after the other. -/
inductive SplitsInto : List String → List StubUnit → Prop
  | nil : SplitsInto [] []
  | cons {unit : StubUnit} {spelling arguments : List String} {units : List StubUnit}
    (first : unit.Spelled spelling) (later : SplitsInto arguments units) :
    SplitsInto (spelling ++ arguments) (unit :: units)

/-- What units with one path and at most one selection ask for. Of modes and of nesting limits the
last one counts. -/
structure AskFor (units : List StubUnit) (request : StubRequest) : Prop where
  path : StubUnit.paths units = [request.path]
  single : (StubUnit.selections units).length ≤ 1
  selection : request.selection = (StubUnit.selections units).headD .all
  mode : request.options.mode = (StubUnit.modes units).getLastD .long
  maxDepth : request.options.maxDepth = (StubUnit.limits units).getLastD 256
  cycles : request.options.cycles = .mark ↔ .markCycles ∈ units

/-- There is something that units with one path and at most one selection ask for. -/
theorem exists_askFor {units : List StubUnit} (path : (StubUnit.paths units).length = 1)
    (single : (StubUnit.selections units).length ≤ 1) : ∃ request, AskFor units request := by
  obtain ⟨text, path⟩ := List.length_eq_one_iff.mp path
  refine ⟨⟨text, (StubUnit.selections units).headD .all, ?_⟩, path, single, rfl, ?_, ?_, ?_⟩
  · exact {
      mode := (StubUnit.modes units).getLastD .long
      cycles := if .markCycles ∈ units then .mark else .fail
      maxDepth := (StubUnit.limits units).getLastD 256 }
  · rfl
  · rfl
  · by_cases marked : .markCycles ∈ units <;> simp [marked]

/-- Units can change places as long as modes and limits stay in order. -/
theorem AskFor.of_perm {units units' : List StubUnit} {request : StubRequest}
    (asked : AskFor units request) (moved : units.Perm units')
    (modes : StubUnit.modes units = StubUnit.modes units')
    (limits : StubUnit.limits units = StubUnit.limits units') : AskFor units' request := by
  have paths : (StubUnit.paths units).Perm (StubUnit.paths units') := moved.filterMap _
  rw [asked.path] at paths
  have selections : (StubUnit.selections units).Perm (StubUnit.selections units') :=
    moved.filterMap _
  have selection : StubUnit.selections units = StubUnit.selections units' := by
    cases made : StubUnit.selections units with
    | nil => exact (List.nil_perm.mp (made ▸ selections)).symm
    | cons first more =>
        have none : more = [] := by simpa [made] using asked.single
        rw [made, none] at selections
        rw [none, List.singleton_perm.mp selections]
  exact {
    path := (List.singleton_perm.mp paths).symm
    single := selection ▸ asked.single
    selection := selection ▸ asked.selection
    mode := modes ▸ asked.mode
    maxDepth := limits ▸ asked.maxDepth
    cycles := asked.cycles.trans moved.mem_iff }

namespace PartialRequest

variable {request next final : PartialRequest}

/-- A request with one more unit, if that can be. -/
def add (request : PartialRequest) : StubUnit → Option PartialRequest
  | .mode mode => some { request with options := { request.options with mode } }
  | .markCycles => some { request with options := { request.options with cycles := .mark } }
  | .maxDepth maxDepth => some { request with options := { request.options with maxDepth } }
  | .select what index =>
    if request.selection = .all then some { request with selection := what.selection index }
    else none
  | .path text => if request.path = none then some { request with path := some text } else none

/-- A selection succeeds if none was made before. -/
theorem select_eq_ok_iff {what : Selectable} {text : String} {index : Int}
    (numeral : Decimal.Signed text.toList index) :
    request.select what text = .ok next ↔ request.add (.select what index) = some next := by
  unfold select add
  rw [Decimal.signed?_eq_some_iff.mpr numeral]
  by_cases all : request.selection = .all <;> simp [all]

/-- A unit that is read, however it is spelled, is added to the request. -/
theorem read_spelled {unit : StubUnit} {spelling : List String} (spelled : unit.Spelled spelling)
    (rest : List String) :
    request.read (spelling ++ rest) = .ok final ↔
      ∃ next, request.add unit = some next ∧ next.read rest = .ok final := by
  cases spelled with
  | short | long | markCycles =>
      simp only [List.singleton_append, read, add, Option.some.injEq, exists_eq_left']
      rfl
  | maxDepth numeral =>
      simp [read, add, StubArgument.ofString_maxDepth, Decimal.unsigned?_eq_some_iff.mpr numeral]
  | @apart what text index numeral =>
      have recognised : StubArgument.ofString what.flag = .select what := by cases what <;> rfl
      simp [read, recognised, select_eq_ok_iff numeral]
  | joined numeral =>
      simp [read, StubArgument.ofString_selectIndex, select_eq_ok_iff numeral]
  | path plain =>
      rw [List.singleton_append, read, StubArgument.ofString_of_no_dash plain]
      by_cases free : request.path = none <;> simp [add, free]

/-- Arguments that split into units are read as the units are added, one after the other. -/
theorem read_eq_ok_iff {arguments : List String} {units : List StubUnit}
    (split : SplitsInto arguments units) :
    request.read arguments = .ok final ↔ units.foldlM add request = some final := by
  induction split generalizing request with
  | nil => simp [read, pure]
  | cons first later ih => simp only [read_spelled first, ih, List.foldlM_cons, bind,
      Option.bind_eq_some_iff]

/-- What is selected was spelled by a numeral. -/
theorem exists_signed_of_select {what : Selectable} {text : String}
    (selected : request.select what text = .ok next) :
    ∃ index, Decimal.Signed text.toList index := by
  unfold select at selected
  split at selected
  · cases selected
  · split at selected
    · rename_i index numeral
      exact ⟨index, Decimal.signed?_eq_some_iff.mp numeral⟩
    · cases selected

/-- Arguments that are read begin with a spelling of a unit. -/
theorem exists_spelled_of_read {argument : String} {rest : List String}
    (done : request.read (argument :: rest) = .ok final) :
    ∃ (unit : StubUnit) (spelling later : List String), unit.Spelled spelling ∧
      argument :: rest = spelling ++ later ∧ later.length ≤ rest.length := by
  have same := StubArgument.text_ofString argument
  rw [read] at done
  cases recognised : StubArgument.ofString argument with
  | mode mode =>
      rw [recognised] at same
      cases mode <;> cases same
      · exact ⟨_, _, rest, .short, rfl, Nat.le_refl _⟩
      · exact ⟨_, _, rest, .long, rfl, Nat.le_refl _⟩
  | markCycles =>
      rw [recognised] at same
      cases same
      exact ⟨_, _, rest, .markCycles, rfl, Nat.le_refl _⟩
  | select what =>
      rw [recognised] at same done
      cases same
      cases rest with
      | nil => cases done
      | cons index later =>
          obtain ⟨selected, chosen, -⟩ := bind_eq_ok_iff.mp done
          obtain ⟨_, numeral⟩ := exists_signed_of_select chosen
          exact ⟨_, _, later, .apart numeral, rfl, Nat.le_succ _⟩
  | selectIndex what index =>
      rw [recognised] at same done
      cases same
      obtain ⟨selected, chosen, -⟩ := bind_eq_ok_iff.mp done
      obtain ⟨_, numeral⟩ := exists_signed_of_select chosen
      exact ⟨_, _, rest, .joined numeral, rfl, Nat.le_refl _⟩
  | maxDepth text =>
      rw [recognised] at same done
      cases same
      cases numeral : Decimal.unsigned? text.toList with
      | none => simp [numeral] at done
      | some limit =>
          exact ⟨_, _, rest, .maxDepth (Decimal.unsigned?_eq_some_iff.mp numeral), rfl,
            Nat.le_refl _⟩
  | option text =>
      rw [recognised] at done
      cases done
  | path text =>
      rw [recognised] at same
      cases same
      exact ⟨_, _, rest, .path (StubArgument.no_dash_of_path recognised), rfl, Nat.le_refl _⟩

/-- Arguments that are read split into units. -/
theorem splitsInto_of_read {arguments : List String} (done : request.read arguments = .ok final) :
    ∃ units, SplitsInto arguments units := by
  -- A flag takes the argument behind it along, so the induction is on how many are left.
  induction length : arguments.length using Nat.strongRecOn generalizing request arguments
  rename_i length ih
  cases arguments with
  | nil => exact ⟨[], .nil⟩
  | cons argument rest =>
      subst length
      obtain ⟨unit, spelling, later, spelled, split, shorter⟩ := exists_spelled_of_read done
      rw [split, read_spelled spelled] at done
      obtain ⟨next, -, done⟩ := done
      obtain ⟨units, splits⟩ := ih _ (Nat.lt_succ_of_le shorter) done rfl
      exact ⟨unit :: units, split ▸ .cons spelled splits⟩

/-- What adding units makes of a request. -/
@[mk_iff]
structure LeadsTo (request : PartialRequest) (units : List StubUnit) (final : PartialRequest) :
    Prop where
  path : request.path.toList ++ StubUnit.paths units = final.path.toList
  selection :
    request.selection.chosen ++ StubUnit.selections units = final.selection.chosen
  mode : final.options.mode = (StubUnit.modes units).getLastD request.options.mode
  maxDepth : final.options.maxDepth = (StubUnit.limits units).getLastD request.options.maxDepth
  cycles : final.options.cycles = .mark ↔ request.options.cycles = .mark ∨ .markCycles ∈ units

theorem leadsTo_nil : request.LeadsTo [] final ↔ request = final := by
  constructor
  · intro leads
    obtain ⟨path, selection, ⟨mode, cycles, maxDepth⟩⟩ := request
    obtain ⟨path', selection', ⟨mode', cycles', maxDepth'⟩⟩ := final
    have samePath : path = path' := by
      have added := leads.path
      cases path <;> cases path' <;> simp_all [StubUnit.paths]
    have sameSelection : selection = selection' := by
      have added := leads.selection
      cases selection <;> cases selection' <;> simp_all [StubUnit.selections, Selection.chosen]
    have sameCycles : cycles = cycles' := by
      have marked := leads.cycles
      cases cycles <;> cases cycles' <;> simp_all
    obtain rfl : mode' = mode := leads.mode
    obtain rfl : maxDepth' = maxDepth := leads.maxDepth
    rw [samePath, sameSelection, sameCycles]
  · rintro rfl
    exact ⟨by simp [StubUnit.paths], by simp [StubUnit.selections], rfl, rfl, by simp⟩

/-- A unit is added before those behind it. A second path or selection leads nowhere. -/
theorem leadsTo_cons {unit : StubUnit} {units : List StubUnit} :
    request.LeadsTo (unit :: units) final ↔
      ∃ next, request.add unit = some next ∧ next.LeadsTo units final := by
  simp only [leadsTo_iff, StubUnit.paths, StubUnit.selections, StubUnit.modes, StubUnit.limits,
    List.filterMap_cons, List.mem_cons]
  cases unit with
  | mode | maxDepth =>
      simp only [add, Option.some.injEq, exists_eq_left', List.getLastD_cons, reduceCtorEq,
        false_or]
  | markCycles => simp only [add, Option.some.injEq, exists_eq_left', true_or, or_true]
  | select what index =>
      by_cases all : request.selection = .all
      · simp only [add, all, if_true, Option.some.injEq, exists_eq_left', reduceCtorEq, false_or,
          Selection.chosen_all, Selection.chosen_selection, List.nil_append, List.singleton_append]
      · constructor
        · intro leads
          have many := congrArg List.length leads.2.1
          have few := final.selection.length_chosen_le
          rw [Selection.chosen_of_ne all, List.length_append, List.length_cons] at many
          simp only [List.length_cons] at many
          omega
        · rintro ⟨next, added, -⟩
          rw [add, if_neg all] at added
          cases added
  | path text =>
      cases free : request.path with
      | none =>
          simp only [add, free, if_true, Option.some.injEq, exists_eq_left', reduceCtorEq,
            false_or, Option.toList_none, Option.toList_some, List.nil_append,
            List.singleton_append]
      | some path =>
          constructor
          · intro leads
            have many := congrArg List.length leads.1
            have few : final.path.toList.length ≤ 1 := by cases final.path <;> simp
            simp only [Option.toList_some, List.length_append, List.length_cons] at many
            omega
          · rintro ⟨next, added, -⟩
            simp only [add, free, reduceCtorEq, if_false] at added

/-- Units are added one by one. -/
theorem foldlM_add_iff {units : List StubUnit} :
    units.foldlM add request = some final ↔ request.LeadsTo units final := by
  induction units generalizing request with
  | nil => rw [leadsTo_nil, List.foldlM_nil]; simp [pure]
  | cons unit units ih =>
      simp only [leadsTo_cons, List.foldlM_cons, bind, Option.bind_eq_some_iff, ih]

end PartialRequest

namespace StubRequest

/-- A request is what is read from its arguments, with a path. -/
theorem parse_eq_ok_iff_read {arguments : List String} {request : StubRequest} :
    parse arguments = .ok request ↔
      PartialRequest.start.read arguments =
        .ok ⟨some request.path, request.selection, request.options⟩ := by
  rw [parse, bind_eq_ok_iff]
  constructor
  · rintro ⟨⟨path, selection, options⟩, done, parsed⟩
    cases path with
    | none => cases parsed
    | some path =>
        cases parsed
        exact done
  · intro done
    exact ⟨_, done, rfl⟩

/-- The selections of units are those chosen if there is at most one. -/
theorem selections_eq_chosen_iff {units : List StubUnit} {selection : Selection} :
    StubUnit.selections units = selection.chosen ↔
      (StubUnit.selections units).length ≤ 1 ∧
        selection = (StubUnit.selections units).headD .all := by
  constructor
  · intro same
    rw [same]
    refine ⟨selection.length_chosen_le, ?_⟩
    cases selection <;> rfl
  · rintro ⟨single, rfl⟩
    cases made : StubUnit.selections units with
    | nil => rfl
    | cons first more =>
        have member : first ∈ StubUnit.selections units := made ▸ List.mem_cons_self
        obtain ⟨unit, -, asked⟩ := List.mem_filterMap.mp member
        have none : more = [] := by simpa [made] using single
        cases unit with
        | select what index =>
            cases asked
            rw [none, List.headD_cons, Selection.chosen_selection]
        | _ => cases asked

/-- Arguments that split into units are read as what the units ask for. -/
theorem parse_eq_ok_iff {arguments : List String} {units : List StubUnit}
    (split : SplitsInto arguments units) {request : StubRequest} :
    parse arguments = .ok request ↔ AskFor units request := by
  rw [parse_eq_ok_iff_read, PartialRequest.read_eq_ok_iff split, PartialRequest.foldlM_add_iff]
  have unmarked : PartialRequest.start.options.cycles = .mark ∨ .markCycles ∈ units ↔
      .markCycles ∈ units := by
    simp [PartialRequest.start, StubOptions.standard]
  constructor
  · rintro ⟨path, selection, mode, maxDepth, cycles⟩
    obtain ⟨single, selection⟩ := selections_eq_chosen_iff.mp selection
    exact ⟨path, single, selection, mode, maxDepth, cycles.trans unmarked⟩
  · rintro ⟨path, single, selection, mode, maxDepth, cycles⟩
    have selection := selections_eq_chosen_iff.mpr ⟨single, selection⟩
    exact ⟨path, selection, mode, maxDepth, cycles.trans unmarked.symm⟩

/-- **The arguments of the stub command have a grammar.** They are accepted exactly if they split
into units with one path and at most one selection. What is asked for is then told by the units
alone: by the path, the selection if there is one, the last mode, the last nesting limit and whether
cycles are to be marked. So the same is asked for when a selection is spelled in the other way, and
when units change places, as long as modes and limits each stay in order. -/
theorem parse_iff_units :
    (∀ arguments, (∃ request, parse arguments = .ok request) ↔
      ∃ units, SplitsInto arguments units ∧ (StubUnit.paths units).length = 1 ∧
        (StubUnit.selections units).length ≤ 1) ∧
    (∀ arguments units, SplitsInto arguments units →
      ∀ request, parse arguments = .ok request ↔ AskFor units request) ∧
    ∀ arguments units arguments' units', SplitsInto arguments units →
      SplitsInto arguments' units' → units.Perm units' →
      StubUnit.modes units = StubUnit.modes units' →
      StubUnit.limits units = StubUnit.limits units' →
      ∀ request, parse arguments = .ok request ↔ parse arguments' = .ok request := by
  refine ⟨?_, fun arguments units split request => parse_eq_ok_iff split, ?_⟩
  · intro arguments
    constructor
    · rintro ⟨request, parsed⟩
      obtain ⟨units, split⟩ := PartialRequest.splitsInto_of_read (parse_eq_ok_iff_read.mp parsed)
      have asked := (parse_eq_ok_iff split).mp parsed
      exact ⟨units, split, by rw [asked.path]; rfl, asked.single⟩
    · rintro ⟨units, split, path, single⟩
      obtain ⟨request, asked⟩ := exists_askFor path single
      exact ⟨request, (parse_eq_ok_iff split).mpr asked⟩
  · intro arguments units arguments' units' split split' moved modes limits request
    rw [parse_eq_ok_iff split, parse_eq_ok_iff split']
    exact ⟨fun asked => asked.of_perm moved modes limits,
      fun asked => asked.of_perm moved.symm modes.symm limits.symm⟩

/-- Of two modes the last one counts, wherever they stand, and a selection can be spelled apart and
with a sign. -/
theorem parse_iff_units_sample :
    SplitsInto ["p.json", "--type", "+3", "--short", "--max-depth=7", "--long"]
        [.path "p.json", .select .type 3, .mode .short, .maxDepth 7, .mode .long] ∧
      parse ["p.json", "--type", "+3", "--short", "--max-depth=7", "--long"] =
        .ok ⟨"p.json", .type 3, ⟨.long, .fail, 7⟩⟩ ∧
      parse ["--short", "--max-depth=7", "--long", "--type=3", "p.json"] =
        .ok ⟨"p.json", .type 3, ⟨.long, .fail, 7⟩⟩ := by
  have numeral : Decimal.Signed "+3".toList 3 := Decimal.signed?_eq_some_iff.mp (by decide)
  have bare : Decimal.Signed "3".toList 3 := Decimal.signed?_eq_some_iff.mp (by decide)
  have limit : Decimal.Unsigned "7".toList 7 := Decimal.unsigned?_eq_some_iff.mp (by decide)
  have path : (StubUnit.path "p.json").Spelled ["p.json"] := .path (by decide)
  have depth : (StubUnit.maxDepth 7).Spelled ["--max-depth=7"] := .maxDepth limit
  have apart : (StubUnit.select .type 3).Spelled ["--type", "+3"] := .apart numeral
  have joined : (StubUnit.select .type 3).Spelled ["--type=3"] := .joined bare
  have split : SplitsInto ["p.json", "--type", "+3", "--short", "--max-depth=7", "--long"]
      [.path "p.json", .select .type 3, .mode .short, .maxDepth 7, .mode .long] :=
    .cons path (.cons apart (.cons .short (.cons depth (.cons .long .nil))))
  have split' : SplitsInto ["--short", "--max-depth=7", "--long", "--type=3", "p.json"]
      [.mode .short, .maxDepth 7, .mode .long, .select .type 3, .path "p.json"] :=
    .cons .short (.cons depth (.cons .long (.cons joined (.cons path .nil))))
  obtain ⟨-, asks, moves⟩ := parse_iff_units
  have parsed : parse ["p.json", "--type", "+3", "--short", "--max-depth=7", "--long"] =
      .ok ⟨"p.json", .type 3, ⟨.long, .fail, 7⟩⟩ :=
    (asks _ _ split _).mpr ⟨rfl, by decide, rfl, rfl, rfl, by decide⟩
  exact ⟨split, parsed, (moves _ _ _ _ split split' (by decide) rfl rfl _).mp parsed⟩

end StubRequest

end CommandLine

end CodeGraph

import CodeGraph.CommandLine.StubRequest
import CodeGraph.Proofs.Outcome

/-! # Adding a selection to arguments

Arguments that are read without a selection can be cut anywhere, and a selection can be put in at
the cut. Only the selection of the request changes
(`CodeGraph.CommandLine.StubRequest.parse_selected`).
-/

namespace CodeGraph

namespace Decimal

/-- A number that fits 64 bits with its sign is read back from how it is written. -/
theorem signed?_toString {n : Nat} (fits : n ≤ maxSigned) :
    signed? (toString n).toList = some (n : Int) := by
  have read := upTo?_toString fits
  obtain ⟨-, digits, -, -⟩ := upTo?_eq_some_iff.mp read
  have digits := List.all_eq_true.mp digits
  unfold signed?
  split
  · rename_i rest begins
    exact absurd (digits '+' (begins ▸ List.mem_cons_self)) (by decide)
  · rename_i rest begins
    exact absurd (digits '-' (begins ▸ List.mem_cons_self)) (by decide)
  · rw [read]
    rfl

end Decimal

namespace CommandLine

namespace PartialRequest

/-- What an argument that selects nothing makes of a request. -/
def take (request : PartialRequest) : StubArgument → Option PartialRequest
  | .mode mode => some { request with options := { request.options with mode } }
  | .markCycles => some { request with options := { request.options with cycles := .mark } }
  | .maxDepth text => (Decimal.unsigned? text.toList).map fun maxDepth =>
    { request with options := { request.options with maxDepth } }
  | .path text => if request.path.isNone then some { request with path := some text } else none
  | _ => none

variable {request next final : PartialRequest}

/-- An argument that is taken on the way selects nothing. -/
theorem selection_of_take {argument : StubArgument} (taken : request.take argument = some next) :
    next.selection = request.selection := by
  cases argument with
  | mode | markCycles =>
      cases taken
      rfl
  | maxDepth text =>
      obtain ⟨maxDepth, -, rfl⟩ := Option.map_eq_some_iff.mp taken
      rfl
  | path text =>
      simp only [take] at taken
      split at taken <;> cases taken
      rfl
  | _ => cases taken

/-- Whether something is selected makes no difference to other arguments. -/
theorem take_selected {argument : StubArgument} (taken : request.take argument = some next)
    (selection : Selection) :
    { request with selection }.take argument = some { next with selection } := by
  cases argument with
  | mode | markCycles =>
      cases taken
      rfl
  | maxDepth text =>
      obtain ⟨maxDepth, read, rfl⟩ := Option.map_eq_some_iff.mp taken
      simp only [take, read, Option.map_some]
  | path text =>
      simp only [take] at taken ⊢
      split at taken <;> cases taken
      rename_i free
      rw [if_pos free]
  | _ => cases taken

/-- An argument that can be taken is taken, and reading goes on. -/
theorem read_of_take {argument : String} (rest : List String)
    (taken : request.take (.ofString argument) = some next) :
    request.read (argument :: rest) = next.read rest := by
  rw [read]
  cases recognised : StubArgument.ofString argument with
  | mode | markCycles =>
      rw [recognised] at taken
      cases taken
      rfl
  | maxDepth text =>
      rw [recognised] at taken
      obtain ⟨maxDepth, read, rfl⟩ := Option.map_eq_some_iff.mp taken
      simp only [read]
  | path text =>
      rw [recognised] at taken
      simp only [take] at taken ⊢
      split at taken <;> cases taken
      rename_i free
      rw [if_pos free]
  | _ =>
      rw [recognised] at taken
      cases taken

/-- Whatever is selected is not everything. -/
theorem select_eq_ok {what : Selectable} {text : String}
    (selected : request.select what text = .ok final) : final.selection ≠ .all := by
  unfold select at selected
  split at selected
  · cases selected
  · split at selected
    · cases selected
      cases what <;> exact nofun
    · cases selected

/-- An argument that is read selects nothing, or it selects something for good. -/
theorem read_cons {argument : String} {rest : List String}
    (done : request.read (argument :: rest) = .ok final) :
    (∃ next, request.take (.ofString argument) = some next ∧ next.read rest = .ok final) ∨
      ∃ (selected : PartialRequest) (later : List String), selected.selection ≠ .all ∧
        later.length ≤ rest.length ∧ selected.read later = .ok final := by
  rw [read] at done
  cases recognised : StubArgument.ofString argument with
  | mode | markCycles =>
      rw [recognised] at done
      exact .inl ⟨_, rfl, done⟩
  | maxDepth text =>
      rw [recognised] at done
      cases depth : Decimal.unsigned? text.toList with
      | none => simp [depth] at done
      | some maxDepth =>
          simp only [depth] at done
          exact .inl ⟨_, by simp only [take, depth, Option.map_some], done⟩
  | path text =>
      rw [recognised] at done
      by_cases free : request.path.isNone = true
      · simp only [free, if_true] at done
        exact .inl ⟨_, if_pos free, done⟩
      · simp [free] at done
  | select what =>
      rw [recognised] at done
      cases rest with
      | nil => cases done
      | cons index later =>
          obtain ⟨selected, chosen, done⟩ := bind_eq_ok_iff.mp done
          exact .inr ⟨selected, later, select_eq_ok chosen, Nat.le_succ _, done⟩
  | selectIndex what text =>
      rw [recognised] at done
      obtain ⟨selected, chosen, done⟩ := bind_eq_ok_iff.mp done
      exact .inr ⟨selected, rest, select_eq_ok chosen, Nat.le_refl _, done⟩
  | option text =>
      rw [recognised] at done
      cases done

/-- What is selected stays selected. -/
theorem selection_of_read {arguments : List String} (done : request.read arguments = .ok final)
    (selected : request.selection ≠ .all) : final.selection ≠ .all := by
  -- A flag takes the argument behind it along, so the induction is on how many are left.
  induction length : arguments.length using Nat.strongRecOn generalizing request arguments
  rename_i length ih
  cases arguments with
  | nil =>
      cases done
      exact selected
  | cons argument rest =>
      subst length
      rcases read_cons done with ⟨next, taken, done⟩ | ⟨next, later, chosen, shorter, done⟩
      · exact ih _ (Nat.lt_succ_self _) done (selection_of_take taken ▸ selected) rfl
      · exact ih _ (Nat.lt_succ_of_le shorter) done chosen rfl

/-- Arguments that select nothing can be cut anywhere: those in front are read to the same end,
whatever is selected already and whatever is read behind them. -/
theorem read_append {before after : List String}
    (done : request.read (before ++ after) = .ok final) (none : final.selection = .all) :
    ∃ middle : PartialRequest, middle.selection = .all ∧ middle.read after = .ok final ∧
      ∀ selection rest, { request with selection }.read (before ++ rest) =
        { middle with selection }.read rest := by
  induction before generalizing request with
  | nil =>
      refine ⟨request, ?_, done, fun _ _ => rfl⟩
      by_contra selected
      exact selection_of_read done selected none
  | cons argument before ih =>
      rcases read_cons done with ⟨next, taken, done⟩ | ⟨next, later, chosen, -, done⟩
      · obtain ⟨middle, unselected, done, reads⟩ := ih done
        refine ⟨middle, unselected, done, ?_⟩
        intro selection rest
        rw [List.cons_append, read_of_take _ (take_selected taken selection), reads]
      · exact absurd none (selection_of_read done chosen)

/-- A selecting flag takes the next argument as its index. -/
theorem read_flag (none : request.selection = .all) (what : Selectable) {text : String}
    {index : Int} (numeral : Decimal.signed? text.toList = some index) (rest : List String) :
    request.read (what.flag :: text :: rest) =
      { request with selection := what.selection index }.read rest := by
  have recognised : StubArgument.ofString what.flag = .select what := by cases what <;> rfl
  simp [read, recognised, select, none, numeral]

/-- Arguments that select nothing are read the same way when something is selected already. -/
theorem read_selected {arguments : List String} (done : request.read arguments = .ok final)
    (none : final.selection = .all) (selection : Selection) :
    { request with selection }.read arguments = .ok { final with selection } := by
  rw [← arguments.append_nil] at done ⊢
  obtain ⟨middle, -, same, reads⟩ := read_append done none
  cases same
  exact reads selection []

end PartialRequest

namespace StubRequest

/-- **A selection can be added.** Where arguments ask for all packages, a selection that is put in
anywhere changes the selection of the request and nothing else. -/
theorem parse_selected {before after : List String} {request : StubRequest}
    (parsed : parse (before ++ after) = .ok request) (all : request.selection = .all)
    (what : Selectable) {text : String} {index : Int}
    (numeral : Decimal.signed? text.toList = some index) :
    parse (before ++ what.flag :: text :: after) =
      .ok { request with selection := what.selection index } := by
  obtain ⟨final, done, parsed⟩ := bind_eq_ok_iff.mp parsed
  obtain ⟨path, selection, options⟩ := final
  cases path with
  | none => cases parsed
  | some path =>
      cases parsed
      obtain ⟨middle, none, rest, reads⟩ := PartialRequest.read_append done all
      have front : PartialRequest.start.read (before ++ what.flag :: text :: after) =
          { middle with selection := .all }.read (what.flag :: text :: after) :=
        reads .all _
      rw [parse, front, PartialRequest.read_flag rfl what numeral,
        PartialRequest.read_selected rest all]
      rfl

end StubRequest

end CommandLine

end CodeGraph

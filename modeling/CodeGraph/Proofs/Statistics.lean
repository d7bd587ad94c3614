import CodeGraph.Project.Statistics
import CodeGraph.Proofs.Loading.Stretches
import Mathlib.Algebra.BigOperators.Group.List.Basic
import Mathlib.Data.Nat.Count

/-! # What statistics add up to

Statistics count the constructs of the arena one after the other into an ordered list of kinds
(`CodeGraph.Statistics.bump`), and apart from that the ids that each table lists. After any number
of constructs the list holds every kind that occurred with the number of its constructs
(`CodeGraph.Statistics.foldl_bump`). Every construct has one kind and is listed in the table of its
kind only, so both ways to count agree (`CodeGraph.Project.statistics_of_load`).
-/

namespace CodeGraph

section Counting

variable {α : Type}

/-- Counts of nothing can be left out of a sum. -/
theorem sum_filter_pos (counts : List (α × Nat)) :
    ((counts.filter fun (_, count) => 0 < count).map Prod.snd).sum = (counts.map Prod.snd).sum := by
  induction counts with
  | nil => rfl
  | cons entry rest ih =>
      obtain ⟨value, count⟩ := entry
      cases count <;> simp [ih]

variable [DecidableEq α]

/-- A value is counted in a list as often as there are positions at which it stands. -/
theorem count_positions (items : List α) (value : α) :
    Nat.count (fun position => items[position]? = some value) items.length = items.count value := by
  induction items with
  | nil => rfl
  | cons item rest ih => simp [Nat.count_succ', List.count_cons, ih]

/-- The items that are one of several values can be counted value by value. -/
theorem sum_map_count {values : List α} (distinct : values.Nodup) (items : List α) :
    (values.map fun value => items.count value).sum = items.countP (· ∈ values) := by
  have once (item : α) : (values.map fun value => if item = value then 1 else 0).sum =
      if item ∈ values then 1 else 0 := by
    rw [← distinct.count]
    clear distinct
    induction values with
    | nil => rfl
    | cons value rest ih => grind
  induction items with
  | nil => simp
  | cons item rest ih =>
      simp only [List.count_cons, beq_iff_eq, List.sum_map_add, ih, once, List.countP_cons,
        decide_eq_true_eq]

end Counting

namespace Kind

/-- No kind is missing from the list of kinds. -/
theorem mem_all (kind : Kind) : kind ∈ all := by
  cases kind <;> decide

/-- The list of kinds ascends in the order by which kinds are counted. -/
theorem pairwise_position_all : all.Pairwise fun kind later => kind.position < later.position := by
  decide

/-- What is of certain kinds can be counted kind by kind. -/
theorem sum_count (certain : Kind → Bool) (kinds : List Kind) :
    ((all.filter certain).map fun kind => kinds.count kind).sum = kinds.countP certain := by
  have distinct : all.Nodup := by decide
  rw [sum_map_count (distinct.filter certain)]
  simp [mem_all]

end Kind

/-! ## The counting fold -/

namespace Statistics

/-- Some kinds with the counts that a function gives them, without those it counts zero times. -/
def tally (kinds : List Kind) (count : Kind → Nat) : List (Kind × Nat) :=
  (kinds.map fun kind => (kind, count kind)).filter fun (_, count) => 0 < count

/-- The first kind is listed if it is counted. -/
theorem tally_cons (first : Kind) (rest : List Kind) (count : Kind → Nat) :
    tally (first :: rest) count =
      if 0 < count first then (first, count first) :: tally rest count else tally rest count := by
  simp only [tally, List.map_cons, List.filter_cons, decide_eq_true_eq]

/-- Only the counts of the listed kinds matter. -/
theorem tally_congr {kinds : List Kind} {count other : Kind → Nat}
    (same : ∀ kind ∈ kinds, count kind = other kind) : tally kinds count = tally kinds other := by
  unfold tally
  rw [List.map_congr_left fun kind mem => congrArg (Prod.mk kind) (same kind mem)]

/-- A kind that precedes all that were counted so far is counted in front of them. -/
theorem bump_of_before {kind : Kind} {counted : List (Kind × Nat)}
    (before : ∀ entry ∈ counted, kind.position < entry.1.position) :
    bump kind counted = (kind, 1) :: counted := by
  cases counted with
  | nil => rfl
  | cons entry rest =>
      obtain ⟨other, count⟩ := entry
      have later : kind.position < other.position := before _ List.mem_cons_self
      have differs : other ≠ kind := by
        rintro rfl
        exact later.false
      rw [bump, if_neg differs, if_neg later.not_gt]

/-- Counting a kind raises the count of this kind by one, and no other. -/
theorem bump_tally {kind : Kind} {kinds : List Kind} (count : Kind → Nat)
    (ascending : kinds.Pairwise fun kind later => kind.position < later.position)
    (listed : kind ∈ kinds) :
    bump kind (tally kinds count) =
      tally kinds fun other => if other = kind then count other + 1 else count other := by
  induction kinds with
  | nil => cases listed
  | cons first rest ih =>
      obtain ⟨before, ascending⟩ := List.pairwise_cons.mp ascending
      rw [tally_cons, tally_cons]
      by_cases here : first = kind
      · subst here
        have others : tally rest count =
            tally rest fun other => if other = first then count other + 1 else count other := by
          refine tally_congr fun other mem => (if_neg ?_).symm
          rintro rfl
          exact (before _ mem).false
        have later : ∀ entry ∈ tally rest count, first.position < entry.1.position := by
          intro entry mem
          obtain ⟨other, there, rfl⟩ := List.mem_map.mp (List.mem_of_mem_filter mem)
          exact before other there
        rcases Nat.eq_zero_or_pos (count first) with none | some
        · simp [none, bump_of_before later, ← others]
        · simp [some, bump, ← others]
      · have there : kind ∈ rest := by simpa [Ne.symm here] using listed
        specialize ih ascending there
        rcases Nat.eq_zero_or_pos (count first) with none | some
        · simpa [none, here] using ih
        · simpa [some, here, bump, before kind there] using ih

/-- **What has been counted.** After any kinds, one after the other, every kind is listed in order
with the number of times it occurred among them, and no kind that did not. -/
theorem foldl_bump (kinds : List Kind) :
    kinds.foldl (fun counted kind => bump kind counted) [] =
      tally Kind.all fun kind => kinds.count kind := by
  induction kinds using List.reverseRecOn with
  | nil => rfl
  | append_singleton kinds kind ih =>
      rw [List.foldl_concat, ih, bump_tally _ Kind.pairwise_position_all kind.mem_all]
      refine congrArg _ (funext fun other => ?_)
      grind

end Statistics

namespace Project

/-- The kinds that statistics list are those of the arena, counted one after the other. -/
theorem statistics_kinds (project : Project) :
    project.statistics.kinds = Statistics.tally Kind.all fun kind => project.kinds.count kind := by
  rw [← Statistics.foldl_bump, kinds, List.foldl_map]
  rfl

/-- The constructs of certain kinds are counted by the counts of these kinds. -/
theorem sum_kinds (project : Project) (certain : Kind → Bool) :
    ((project.statistics.kinds.filter fun (kind, _) => certain kind).map Prod.snd).sum =
      project.kinds.countP certain := by
  rw [statistics_kinds, Statistics.tally, List.filter_comm, sum_filter_pos, List.filter_map,
    List.map_map]
  exact Kind.sum_count certain project.kinds

/-- A table of a loaded project lists the constructs of its kinds. -/
theorem length_table_of_load {document : Node} {project : Project}
    (loaded : load document = .ok project) (table : Table) :
    (project.table table).length = project.kinds.countP fun kind => kind.table = table := by
  obtain ⟨entries, constructs, -, -, read, rfl⟩ := load_eq_ok_iff.mp loaded
  have listed : (ofConstructs document entries constructs).table table =
      Entry.idsIn entries table := Draft.table_ofEntries entries table
  rw [listed, kinds_ofConstructs read, Entry.length_idsIn, Entry.kinds, List.countP_map,
    List.countP_eq_length_filter]
  rfl

/-- **Statistics add up.** In a loaded project the kinds that are listed are those that occur, each
once and with the number of the ids that have it. Their counts add up to the number of constructs,
and so do the counts of the tables. The count of each table is that of the kinds that belong to the
table. -/
theorem statistics_of_load {document : Node} {project : Project}
    (loaded : load document = .ok project) :
    project.statistics.constructs = project.size ∧
    (∀ kind count, (kind, count) ∈ project.statistics.kinds ↔
      0 < count ∧ count =
        Nat.count (fun id => (project.construct? id).map Construct.kind = some kind)
          project.size) ∧
    (project.statistics.kinds.map Prod.fst).Sublist Kind.all ∧
    (project.statistics.kinds.map Prod.snd).sum = project.statistics.constructs ∧
    (Table.all.map project.statistics.tables.get).sum = project.statistics.constructs ∧
    ∀ table, project.statistics.tables.get table =
      ((project.statistics.kinds.filter fun (kind, _) => kind.table = table).map Prod.snd).sum := by
  have numbered (kind : Kind) :
      Nat.count (fun id => (project.construct? id).map Construct.kind = some kind) project.size =
        project.kinds.count kind := by
    rw [← count_positions, kinds, List.length_map]
    simp only [List.getElem?_map]
    rfl
  have total : (project.statistics.kinds.map Prod.snd).sum = project.size := by
    simpa [kinds, size] using sum_kinds project fun _ => true
  have tables (table : Table) : project.statistics.tables.get table =
      ((project.statistics.kinds.filter fun (kind, _) => kind.table = table).map Prod.snd).sum := by
    refine Eq.trans ?_ (sum_kinds project fun kind => kind.table = table).symm
    rw [← length_table_of_load loaded]
    exact Tables.get_ofFn _ table
  refine ⟨rfl, ?_, ?_, total, ?_, tables⟩
  · intro kind count
    rw [numbered, statistics_kinds]
    simp only [Statistics.tally, List.mem_filter, List.mem_map, Prod.mk.injEq, decide_eq_true_eq]
    constructor
    · rintro ⟨⟨_, -, rfl, rfl⟩, occurs⟩
      exact ⟨occurs, rfl⟩
    · rintro ⟨occurs, rfl⟩
      exact ⟨⟨kind, kind.mem_all, rfl, rfl⟩, occurs⟩
  · have sublist : (project.statistics.kinds.map Prod.fst).Sublist
        ((Kind.all.map fun kind => (kind, project.kinds.count kind)).map Prod.fst) := by
      rw [statistics_kinds]
      exact List.filter_sublist.map _
    rwa [List.map_map, Function.comp_def, List.map_id'] at sublist
  · have listed (table : Table) :
        project.statistics.tables.get table = (project.kinds.map Kind.table).count table := by
      rw [List.count, List.countP_map]
      exact (Tables.get_ofFn _ table).trans (length_table_of_load loaded table)
    have all (table : Table) : table ∈ Table.all := by cases table <;> decide
    rw [List.map_congr_left fun table _ => listed table, sum_map_count (by decide)]
    simp [all, kinds, statistics, size]

/-- Of the nine constructs of the clients six are types, and two of these are instances of the
generic list. -/
theorem statistics_of_load_sample :
    load Sample.clients = .ok Sample.clientsProject ∧
      (.objectInst, 2) ∈ Sample.clientsProject.statistics.kinds ∧
      Nat.count (fun id => (Sample.clientsProject.construct? id).map Construct.kind =
        some .objectInst) Sample.clientsProject.size = 2 ∧
      (Sample.clientsProject.statistics.kinds.map Prod.snd).sum = 9 ∧
      Sample.clientsProject.statistics.tables.get .types = 6 ∧
      ((Sample.clientsProject.statistics.kinds.filter fun (kind, _) =>
        kind.table = .types).map Prod.snd).sum = 6 := by
  obtain ⟨constructs, kinds, -, total, -, tables⟩ := statistics_of_load Sample.load_clients
  have listed : (.objectInst, 2) ∈ Sample.clientsProject.statistics.kinds := by decide
  have six : Sample.clientsProject.statistics.tables.get .types = 6 := rfl
  refine ⟨Sample.load_clients, listed, ((kinds _ _).mp listed).2.symm, total.trans constructs, six,
    ?_⟩
  rw [← tables, six]

end Project

end CodeGraph

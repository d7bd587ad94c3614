import CodeGraph.Proofs.Loading.Integrity
import CodeGraph.Proofs.Stub.Mentions
import Mathlib.Data.List.Chain
import Mathlib.Data.List.Nodup
import Mathlib.Data.List.Perm.Subperm
import Mathlib.Logic.Relation

/-! # Texts within texts

A construct in a mode writes those that its text mentions. In a coherent project every such step
stays within the arena. A step into long mode starts from long mode and goes from a package to a
member, or from a member or a signature to what it owns, so at most three long texts nest, and
constructs that nest without repetition are at most three more than the project has
(`CodeGraph.Project.Nested.length_le`).
-/

namespace CodeGraph

open Stub

namespace Kind

/-- How many long texts can nest from a construct of a kind on, itself included. -/
def longRank : Kind → Nat
  | package => 3
  | signature | interfaceDecl | interfaceInst | objectDecl | objectInst | methodDecl
  | methodInst => 2
  | _ => 1

/-- Every kind has a rank. -/
theorem longRank_pos (kind : Kind) : 1 ≤ kind.longRank := by
  cases kind <;> decide

/-- There are three ranks. -/
theorem longRank_le (kind : Kind) : kind.longRank ≤ 3 := by
  cases kind <;> decide

end Kind

/-- What mentions in the text of a construct of some kind may be like, in a mode. -/
structure Stub.Mention.Proper (kind : Kind) (mode : Mode) (mention : Mention) : Prop where
  short : mention.mode = .short → mention.ref.role ≠ .only .methodInst
  long : mention.mode = .long →
    mode = .long ∧ ∃ target, mention.ref.role = .only target ∧ target.longRank < kind.longRank
  call : ∀ name, mention.form = .callOf name →
    mention.mode = .short ∧ mention.ref.role = .only .signature

namespace Stub.Mention

variable {kind : Kind} {mode : Mode}

@[simp]
theorem short_proper {role : Role} (ref : Ref role) :
    Proper kind mode (.short ref) ↔ role ≠ .only .methodInst := by
  constructor
  · intro proper
    exact proper.short rfl
  · intro other
    exact ⟨fun _ => other, nofun, nofun⟩

@[simp]
theorem long_proper {target : Kind} (ref : Ref (.only target)) :
    Proper kind mode (.long ref) ↔ mode = .long ∧ target.longRank < kind.longRank := by
  constructor
  · intro proper
    obtain ⟨long, other, same, smaller⟩ := proper.long rfl
    cases same
    exact ⟨long, smaller⟩
  · intro falls
    rcases falls with ⟨long, smaller⟩
    exact ⟨nofun, fun _ => ⟨long, target, rfl, smaller⟩, nofun⟩

@[simp]
theorem call_proper (name : String) (sig : SignatureRef) : Proper kind mode (.call name sig) :=
  ⟨fun _ => nofun, nofun, fun _ _ => ⟨rfl, rfl⟩⟩

end Stub.Mention

namespace Construct

/-- The references behind a construct's mentions are among those that it stores. -/
theorem ref_mem_refs {construct : Construct} {mode : Mode} {mention : Mention}
    (member : mention ∈ construct.mentions mode) : mention.ref ∈ construct.refs := by
  suffices stored : ∀ ref ∈ (construct.mentions mode).map Mention.ref, ref ∈ construct.refs from
    stored _ (List.mem_map_of_mem member)
  cases construct <;> cases mode <;>
    simp only [mentions, shortMentions, longMentions, refs, DeclHeader.refs, Members.refs,
      Mention.short, Mention.long, Mention.call, List.map_append, List.map_cons, List.map_map,
      Option.toList_map, Function.comp_def] <;>
    grind

/-- What a text mentions is proper for its kind. -/
theorem mentions_proper (construct : Construct) (mode : Mode) :
    ∀ mention ∈ construct.mentions mode, mention.Proper construct.kind mode := by
  cases construct <;> cases mode <;>
    simp only [mentions, shortMentions, longMentions, kind, List.forall_mem_append,
      List.forall_mem_cons, List.forall_mem_map] <;>
    simp [Kind.longRank]

end Construct

namespace Project

variable {project : Project}

/-- The text of a construct in a mode mentions another construct, which is written in its own
mode. -/
def Writes (project : Project) (outer inner : Nat × Mode) : Prop :=
  ∃ construct, project.construct? outer.1 = some construct ∧
    ∃ mention ∈ construct.mentions outer.2, mention.target = inner

/-- How many long texts can nest from the construct with an id on. -/
def longRank (project : Project) (id : Nat) : Nat := (project.kinds[id]?.map Kind.longRank).getD 1

/-- An id has the rank of the kind of its construct. -/
theorem longRank_of_construct? {id : Nat} {construct : Construct}
    (here : project.construct? id = some construct) :
    project.longRank id = construct.kind.longRank := by
  rw [longRank, kinds_eq_some_iff.mpr ⟨construct, here, rfl⟩]
  rfl

/-- Every id has a rank. -/
theorem longRank_pos (project : Project) (id : Nat) : 1 ≤ project.longRank id := by
  unfold longRank
  cases project.kinds[id]? with
  | none => exact Nat.le_refl 1
  | some kind => exact kind.longRank_pos

/-- Ids have no more ranks than kinds. -/
theorem longRank_le (project : Project) (id : Nat) : project.longRank id ≤ 3 := by
  unfold longRank
  cases project.kinds[id]? with
  | none => decide
  | some kind => exact kind.longRank_le

/-- What a text mentions is there. -/
theorem exists_target_of_mention (coherent : Coherent project.constructs) {id : Nat}
    {construct : Construct} (here : project.construct? id = some construct) {mode : Mode}
    {mention : Mention} (member : mention ∈ construct.mentions mode) :
    ∃ target, project.construct? mention.target.1 = some target ∧
      mention.ref.role.accepts target.kind = true :=
  exists_target coherent (List.mem_of_getElem? here) (Construct.ref_mem_refs member)

namespace Writes

variable {outer inner : Nat × Mode}

/-- What is mentioned lies inside the arena. -/
theorem inside (coherent : Coherent project.constructs) (writes : project.Writes outer inner) :
    inner.1 < project.size := by
  obtain ⟨construct, here, mention, member, rfl⟩ := writes
  obtain ⟨target, there, -⟩ := exists_target_of_mention coherent here member
  exact lt_size_of_construct? there

/-- A long text is nested in long texts only, of constructs that are of a higher rank. -/
theorem of_long (coherent : Coherent project.constructs) (writes : project.Writes outer inner)
    (long : inner.2 = .long) :
    outer.2 = .long ∧ project.longRank inner.1 < project.longRank outer.1 := by
  obtain ⟨construct, here, mention, member, rfl⟩ := writes
  obtain ⟨same, kind, role, smaller⟩ := (construct.mentions_proper _ mention member).long long
  obtain ⟨target, there, accepts⟩ := exists_target_of_mention coherent here member
  rw [role, Role.accepts, decide_eq_true_iff] at accepts
  refine ⟨same, ?_⟩
  rw [longRank_of_construct? here, longRank_of_construct? there, accepts]
  exact smaller

end Writes

/-- The pairs of a chain of texts within texts, the innermost first: each is written by the next,
and none repeats. -/
structure Nested (project : Project) (underway : List (Nat × Mode)) : Prop where
  inside : ∀ pair ∈ underway, pair.1 < project.size
  linked : underway.IsChain fun inner outer => project.Writes outer inner
  distinct : underway.Nodup

/-- Whatever chain of texts is within each other, at most three of them are long. -/
theorem countP_long_le (coherent : Coherent project.constructs) {chain : List (Nat × Mode)}
    (linked : chain.IsChain fun inner outer => project.Writes outer inner) :
    chain.countP (·.2 = .long) ≤ 3 := by
  -- From a long text on, the ranks go up to three.
  suffices bound : chain.countP (·.2 = .long) ≤ 3 ∧ ∀ pair ∈ chain.head?, pair.2 = .long →
      chain.countP (·.2 = .long) + project.longRank pair.1 ≤ 4 from bound.1
  induction chain with
  | nil => simp
  | cons inner outers ih =>
      obtain ⟨below, outermost⟩ := ih linked.tail
      by_cases long : inner.2 = .long
      · have count : (inner :: outers).countP (·.2 = .long) = outers.countP (·.2 = .long) + 1 := by
          simp [long]
        have lower := project.longRank_pos inner.1
        have upper := project.longRank_le inner.1
        suffices bound : outers.countP (·.2 = .long) + 1 + project.longRank inner.1 ≤ 4 by
          rw [count]
          exact ⟨by omega, by simpa using fun _ => bound⟩
        cases outers with
        | nil => simpa using by omega
        | cons outer rest =>
            have writes := (List.isChain_cons_cons.mp linked).1
            obtain ⟨longOuter, smaller⟩ := writes.of_long coherent long
            have outerBound := outermost outer rfl longOuter
            omega
      · simpa [List.countP_cons, long] using below

namespace Nested

variable {underway : List (Nat × Mode)}

theorem nil : project.Nested [] := ⟨by simp, .nil, .nil⟩

/-- Of the constructs underway at most as many are short as there are ids. -/
theorem countP_short_le (nested : project.Nested underway) :
    underway.countP (·.2 ≠ .long) ≤ project.size := by
  have onlyShort {pair : Nat × Mode} (member : pair ∈ underway.filter (·.2 ≠ .long)) :
      pair ∈ underway ∧ pair.2 = .short := by
    obtain ⟨member, notLong⟩ := List.mem_filter.mp member
    refine ⟨member, ?_⟩
    cases mode : pair.2 with
    | short => rfl
    | long => simp [mode] at notLong
  have distinct : ((underway.filter (·.2 ≠ .long)).map Prod.fst).Nodup := by
    apply List.Nodup.map_on _ (nested.distinct.filter _)
    intro one first other second same
    exact Prod.ext same ((onlyShort first).2.trans (onlyShort second).2.symm)
  have inside : (underway.filter (·.2 ≠ .long)).map Prod.fst ⊆ List.range project.size := by
    intro id member
    obtain ⟨pair, listed, rfl⟩ := List.mem_map.mp member
    exact List.mem_range.mpr (nested.inside pair (onlyShort listed).1)
  have bound := (distinct.subperm inside).length_le
  rwa [List.length_map, List.length_range, ← List.countP_eq_length_filter] at bound

/-- Constructs that nest without repetition are at most three more than the project has. -/
theorem length_le (coherent : Coherent project.constructs) (nested : project.Nested underway) :
    underway.length ≤ project.size + 3 := by
  have long := countP_long_le coherent nested.linked
  have short := nested.countP_short_le
  have split := List.length_eq_countP_add_countP (l := underway) fun pair => pair.2 = .long
  simp only [decide_not, decide_eq_true_eq, ne_eq] at *
  omega

end Nested

/-- A pair whose turn comes while others are underway, the innermost of which writes it. It may be
underway itself. -/
structure Turn (project : Project) (underway : List (Nat × Mode)) (pair : Nat × Mode) : Prop where
  inside : pair.1 < project.size
  linked : (pair :: underway).IsChain fun inner outer => project.Writes outer inner
  nested : project.Nested underway

namespace Turn

variable {underway : List (Nat × Mode)} {pair : Nat × Mode}

/-- At the start it is the turn of any construct. -/
theorem start (inside : pair.1 < project.size) : project.Turn [] pair :=
  ⟨inside, .singleton pair, .nil⟩

/-- A construct whose turn it is can be put underway. -/
theorem enter (turn : project.Turn underway pair) (fresh : pair ∉ underway) :
    project.Nested (pair :: underway) where
  inside := List.forall_mem_cons.mpr ⟨turn.inside, turn.nested.inside⟩
  linked := turn.linked
  distinct := List.nodup_cons.mpr ⟨fresh, turn.nested.distinct⟩

/-- Within a construct it is the turn of what it writes. -/
theorem next (coherent : Coherent project.constructs) (nested : project.Nested (pair :: underway))
    {inner : Nat × Mode} (writes : project.Writes pair inner) :
    project.Turn (pair :: underway) inner where
  inside := writes.inside coherent
  linked := List.isChain_cons_cons.mpr ⟨writes, nested.linked⟩
  nested := nested

/-- Whatever is underway leads to the pair whose turn it is. -/
theorem transGen (turn : project.Turn underway pair) {outer : Nat × Mode}
    (member : outer ∈ underway) : Relation.TransGen project.Writes outer pair := by
  have linked := turn.linked
  clear turn
  induction underway generalizing pair with
  | nil => cases member
  | cons first rest ih =>
      obtain ⟨writes, later⟩ := List.isChain_cons_cons.mp linked
      rcases List.mem_cons.mp member with rfl | member
      · exact .single writes
      · exact (ih member later).tail writes

end Turn

end Project

end CodeGraph

import CodeGraph.Proofs.ReferentialIntegrity
import Mathlib.Data.List.Nodup
import Mathlib.Data.List.Perm.Subperm

/-! # What can be reached

The walk keeps the ids ahead of it in a list, in which an id may stand more than once, and notices
only on meeting an id that it has seen it before. All the same it lists the constructs in
depth-first preorder (`CodeGraph.Project.Preorder`), where a construct is followed by what is new
below it before anything beside it. That order has each construct once, so a walk in the arena
ends, and it is closed under parts, so it has exactly what can be reached
(`CodeGraph.Project.reachable_preorder`).
-/

namespace CodeGraph.Project

open Relation

variable {project : Project}

/-- One construct is a part of another. -/
def HasPart (project : Project) (id part : Nat) : Prop :=
  ∃ parts, project.parts id = .ok parts ∧ part ∈ parts

/-- The constructs that are new after `seen`, in depth-first preorder from those ahead. One that is
new comes first, behind it what is new below its parts, and then what is still new beside it. -/
inductive Preorder (project : Project) : (seen ahead order : List Nat) → Prop
  | done (seen : List Nat) : Preorder project seen [] []
  | again {seen rest order : List Nat} {id : Nat} (member : id ∈ seen)
      (beside : Preorder project seen rest order) : Preorder project seen (id :: rest) order
  | enter {seen parts rest order later : List Nat} {id : Nat} (fresh : id ∉ seen)
      (present : project.parts id = .ok parts)
      (below : Preorder project (seen ++ [id]) parts order)
      (beside : Preorder project (seen ++ id :: order) rest later) :
      Preorder project seen (id :: rest) (id :: (order ++ later))

/-- One step of the walk, on what it has seen and what is ahead: the first construct ahead is left
behind if it was seen before, and otherwise its parts are put in its place. -/
inductive WalkStep (project : Project) : List Nat × List Nat → List Nat × List Nat → Prop
  | again {seen rest : List Nat} {id : Nat} (member : id ∈ seen) :
      WalkStep project (seen, id :: rest) (seen, rest)
  | enter {seen parts rest : List Nat} {id : Nat} (fresh : id ∉ seen)
      (present : project.parts id = .ok parts) :
      WalkStep project (seen, id :: rest) (seen ++ [id], parts ++ rest)

/-- The parts of an id are those of its construct. -/
theorem parts_eq_ok_iff {id : Nat} {parts : List Nat} :
    project.parts id = .ok parts ↔
      ∃ construct, project.construct? id = some construct ∧ construct.parts = parts := by
  unfold Project.parts Project.construct entryAt construct?
  cases project.constructs[id]? <;> simp [Except.map]

/-- There are no more ids in the arena than it has places. -/
theorem length_le_size {ids : List Nat} (distinct : ids.Nodup)
    (inside : ∀ id ∈ ids, id < project.size) : ids.length ≤ project.size := by
  have within : ids ⊆ List.range project.size := fun id member =>
    List.mem_range.mpr (inside id member)
  simpa using (distinct.subperm within).length_le

/-! ## Steps of the walk -/

/-- A walk with nothing ahead is over. -/
theorem walk_nil (unseen : Nat) (seen : List Nat) : project.walk unseen seen [] = .ok seen := by
  cases unseen <;> rfl

/-- What was seen is passed over. -/
theorem walk_again (unseen : Nat) {seen : List Nat} {id : Nat} (member : id ∈ seen)
    (rest : List Nat) : project.walk unseen seen (id :: rest) = project.walk unseen seen rest := by
  cases unseen with
  | zero => rfl
  | succ unseen => simp only [walk, List.dropWhile_cons, List.contains_iff_mem.mpr member, if_true]

/-- What is new is seen, and its parts come next. -/
theorem walk_enter (unseen : Nat) {seen parts : List Nat} {id : Nat} (fresh : id ∉ seen)
    (present : project.parts id = .ok parts) (rest : List Nat) :
    project.walk (unseen + 1) seen (id :: rest) =
      project.walk unseen (seen ++ [id]) (parts ++ rest) := by
  have turnsHere : (id :: rest).dropWhile seen.contains = id :: rest := by
    rw [List.dropWhile_cons_of_neg (mt List.contains_iff_mem.mp fresh)]
  simp only [walk, turnsHere, present, ok_bind]

namespace Preorder

variable {seen ahead order : List Nat}

/-- The walk comes to the end of what is ahead by one step after the other, and has then seen what
is new there in preorder. -/
theorem steps (ordered : project.Preorder seen ahead order) (rest : List Nat) :
    ReflTransGen project.WalkStep (seen, ahead ++ rest) (seen ++ order, rest) := by
  induction ordered generalizing rest with
  | done seen => simpa using ReflTransGen.refl
  | again member _ ih => exact (ih rest).head (.again member)
  | @enter seen parts beside order later id fresh present _ _ ihBelow ihBeside =>
      have below := ihBelow (beside ++ rest)
      rw [List.append_assoc, List.singleton_append] at below
      have passed := (below.trans (ihBeside rest)).head (.enter fresh present)
      simpa using passed

/-- A walk uses up its count by one for each construct that is new to it. -/
theorem walk_eq (ordered : project.Preorder seen ahead order) (unseen : Nat) (rest : List Nat) :
    project.walk (order.length + unseen) seen (ahead ++ rest) =
      project.walk unseen (seen ++ order) rest := by
  induction ordered generalizing unseen rest with
  | done seen => simp
  | again member _ ih => rw [List.cons_append, walk_again _ member, ih]
  | @enter seen parts beside order later id fresh present _ _ ihBelow ihBeside =>
      have steps : (id :: (order ++ later)).length + unseen =
          order.length + (later.length + unseen) + 1 := by
        simp only [List.length_cons, List.length_append]
        omega
      rw [List.cons_append, steps, walk_enter _ fresh present, ihBelow, List.append_assoc,
        List.singleton_append, ihBeside, List.append_assoc, List.cons_append]

/-- A walk ends with the preorder of what was ahead, behind what was seen before. -/
theorem walk_eq_ok (ordered : project.Preorder seen ahead order) (unseen : Nat) :
    project.walk (order.length + unseen) seen ahead = .ok (seen ++ order) := by
  have walked := ordered.walk_eq unseen []
  rwa [List.append_nil, walk_nil] at walked

/-- There is one preorder. -/
theorem unique {other : List Nat} (ordered : project.Preorder seen ahead order)
    (alike : project.Preorder seen ahead other) : order = other := by
  have walked := ordered.walk_eq_ok other.length
  rw [Nat.add_comm, alike.walk_eq_ok] at walked
  exact (List.append_cancel_left (Except.ok.inj walked)).symm

/-! ## What is listed -/

/-- A preorder stays inside the arena. -/
theorem inside (ordered : project.Preorder seen ahead order) : ∀ id ∈ order, id < project.size := by
  induction ordered with
  | done => simp
  | again _ _ ih => exact ih
  | enter _ present _ _ ihBelow ihBeside =>
      obtain ⟨construct, here, -⟩ := parts_eq_ok_iff.mp present
      exact List.forall_mem_cons.mpr
        ⟨lt_size_of_construct? here, List.forall_mem_append.mpr ⟨ihBelow, ihBeside⟩⟩

/-- What was seen before is not listed again, and nothing is listed twice. -/
theorem nodup (ordered : project.Preorder seen ahead order) (distinct : seen.Nodup) :
    (seen ++ order).Nodup := by
  induction ordered with
  | done => simpa using distinct
  | again _ _ ih => exact ih distinct
  | @enter seen parts beside order later id fresh _ _ _ ihBelow ihBeside =>
      have entered : (seen ++ [id]).Nodup := by
        simpa using (List.nodup_concat seen id).mpr ⟨fresh, distinct⟩
      have below := ihBelow entered
      rw [List.append_assoc, List.singleton_append] at below
      simpa using ihBeside below

/-- Everything listed can be reached from what was ahead. -/
theorem reached (ordered : project.Preorder seen ahead order) :
    ∀ id ∈ order, ∃ start ∈ ahead, ReflTransGen project.HasPart start id := by
  induction ordered with
  | done => simp
  | again _ _ ih =>
      intro id member
      obtain ⟨start, among, reaches⟩ := ih id member
      exact ⟨start, List.mem_cons_of_mem _ among, reaches⟩
  | @enter seen parts beside order later root fresh present _ _ ihBelow ihBeside =>
      intro id member
      rcases List.mem_cons.mp member with rfl | member
      · exact ⟨id, List.mem_cons_self, .refl⟩
      rcases List.mem_append.mp member with member | member
      · obtain ⟨part, among, reaches⟩ := ihBelow id member
        exact ⟨root, List.mem_cons_self, reaches.head ⟨parts, present, among⟩⟩
      · obtain ⟨start, among, reaches⟩ := ihBeside id member
        exact ⟨start, List.mem_cons_of_mem _ among, reaches⟩

/-- What was ahead has been seen in the end. -/
theorem covers (ordered : project.Preorder seen ahead order) :
    ∀ id ∈ ahead, id ∈ seen ++ order := by
  induction ordered with
  | done => simp
  | again member _ ih => exact List.forall_mem_cons.mpr ⟨List.mem_append_left _ member, ih⟩
  | enter _ _ _ _ _ ihBeside =>
      refine List.forall_mem_cons.mpr ⟨by simp, fun id among => ?_⟩
      simpa using ihBeside id among

/-- The parts of what is listed have been seen in the end. -/
theorem closed (ordered : project.Preorder seen ahead order) {id part : Nat} (member : id ∈ order)
    (partOf : project.HasPart id part) : part ∈ seen ++ order := by
  induction ordered with
  | done => cases member
  | again _ _ ih => exact ih member
  | @enter seen parts beside order later root fresh present below _ ihBelow ihBeside =>
      have belowSeen : ∀ part ∈ seen ++ [root] ++ order,
          part ∈ seen ++ root :: (order ++ later) := by
        simp only [List.mem_append, List.mem_cons]
        tauto
      rcases List.mem_cons.mp member with rfl | member
      · obtain ⟨found, asked, among⟩ := partOf
        cases present.symm.trans asked
        exact belowSeen part (below.covers part among)
      rcases List.mem_append.mp member with member | member
      · exact belowSeen part (ihBelow member)
      · simpa using ihBeside member

/-- A single construct comes first in its own preorder. -/
theorem head?_eq {root : Nat} (ordered : project.Preorder [] [root] order) :
    order.head? = some root := by
  cases ordered with
  | again member _ => cases member
  | enter => rfl

/-- From a single construct exactly what can be reached is listed. -/
theorem mem_iff {root : Nat} (ordered : project.Preorder [] [root] order) (id : Nat) :
    id ∈ order ↔ ReflTransGen project.HasPart root id := by
  constructor
  · intro member
    obtain ⟨start, among, reaches⟩ := ordered.reached id member
    rwa [List.mem_singleton.mp among] at reaches
  · intro reaches
    induction reaches with
    | refl => exact ordered.covers root (List.mem_singleton_self root)
    | tail _ partOf ih => exact ordered.closed ih partOf

end Preorder

/-- A walk in the arena of a coherent project ends: whatever it has seen, there is a preorder of
what is new to it. On the way down there is always one construct less to see. -/
theorem exists_preorder (coherent : Coherent project.constructs) {seen : List Nat}
    (distinct : seen.Nodup) (seenInside : ∀ id ∈ seen, id < project.size) (ahead : List Nat)
    (aheadInside : ∀ id ∈ ahead, id < project.size) :
    ∃ order, project.Preorder seen ahead order := by
  match ahead with
  | [] => exact ⟨[], .done seen⟩
  | id :: rest =>
      obtain ⟨idInside, restInside⟩ := List.forall_mem_cons.mp aheadInside
      by_cases member : id ∈ seen
      · obtain ⟨order, beside⟩ := exists_preorder coherent distinct seenInside rest restInside
        exact ⟨order, .again member beside⟩
      · obtain ⟨parts, present, partsInside⟩ := exists_parts coherent idInside
        have entered : (seen ++ [id]).Nodup := by
          simpa using (List.nodup_concat seen id).mpr ⟨member, distinct⟩
        have enteredInside : ∀ other ∈ seen ++ [id], other < project.size :=
          List.forall_mem_append.mpr ⟨seenInside, by simpa using idInside⟩
        have room : seen.length + 1 ≤ project.size := by
          simpa using length_le_size entered enteredInside
        obtain ⟨order, below⟩ := exists_preorder coherent entered enteredInside parts partsInside
        have left := below.nodup entered
        have leftInside := List.forall_mem_append.mpr ⟨enteredInside, below.inside⟩
        rw [List.append_assoc, List.singleton_append] at left leftInside
        obtain ⟨later, beside⟩ := exists_preorder coherent left leftInside rest restInside
        exact ⟨_, .enter member present below beside⟩
termination_by (project.size - seen.length, ahead.length)
decreasing_by
  · exact Prod.Lex.right _ (Nat.lt_succ_self _)
  · apply Prod.Lex.left
    rw [List.length_append, List.length_singleton]
    omega
  · apply Prod.Lex.left
    rw [List.length_append, List.length_cons]
    omega

/-- What is reachable is the preorder from the root. -/
theorem reachable_of_preorder {root : Nat} {order : List Nat}
    (ordered : project.Preorder [] [root] order) : project.reachable root = .ok order := by
  have bound : order.length ≤ project.size := length_le_size (ordered.nodup .nil) ordered.inside
  obtain ⟨spare, enough⟩ : ∃ spare, project.size + 1 = order.length + spare :=
    Nat.exists_eq_add_of_le (Nat.le_succ_of_le bound)
  rw [reachable, enough, ordered.walk_eq_ok, List.nil_append]

/-- A root is concrete exactly if no type parameter is among what it reaches. -/
theorem isConcrete_of_reachable {root : Nat} {order : List Nat}
    (found : project.reachable root = .ok order) (inside : ∀ id ∈ order, id < project.size) :
    ∃ concrete, project.isConcrete root = .ok concrete ∧
      (concrete = true ↔ ∀ id ∈ order, project.kind id ≠ .ok .named) := by
  obtain ⟨kinds, asked⟩ : ∃ kinds, order.mapM project.kind = .ok kinds := by
    apply exists_mapM_eq_ok
    intro id member
    obtain ⟨construct, here⟩ := exists_construct_of_inside (inside id member)
    exact ⟨construct.kind, kind_eq_ok_iff.mpr ⟨construct, here, rfl⟩⟩
  refine ⟨kinds.all (· ≠ .named), by rw [isConcrete, found, ok_bind, asked]; rfl, ?_⟩
  simp only [List.all_eq_true, decide_eq_true_eq, forall_mem_iff_of_mapM asked]
  exact forall₂_congr fun id _ =>
    ⟨fun other named => other _ named rfl, fun other kind known named => other (named ▸ known)⟩

/-- **What can be reached is listed in depth-first preorder.** From a root in the arena of a loaded
project the walk comes to its end, and what it has seen then is the one preorder of the root: the
root first, nothing twice, and exactly what parts of parts lead to. So the root is concrete exactly
if they lead to no type parameter, whether or not they lead in circles. -/
theorem reachable_preorder {document : Node} (loaded : load document = .ok project) {root : Nat}
    (inside : root < project.size) :
    ∃ order, project.reachable root = .ok order ∧
      ReflTransGen project.WalkStep ([], [root]) (order, []) ∧
      (∀ other, project.Preorder [] [root] other ↔ other = order) ∧
      order.head? = some root ∧ order.Nodup ∧
      (∀ id, id ∈ order ↔ ReflTransGen project.HasPart root id) ∧
      ∃ concrete, project.isConcrete root = .ok concrete ∧
        (concrete = true ↔
          ∀ id, ReflTransGen project.HasPart root id → project.kind id ≠ .ok .named) := by
  have coherent := (coherent_of_load loaded).1
  obtain ⟨order, ordered⟩ := exists_preorder coherent .nil (by simp) [root] (by simpa using inside)
  have reached := reachable_of_preorder ordered
  obtain ⟨concrete, asked, none⟩ := isConcrete_of_reachable reached ordered.inside
  refine ⟨order, reached, ordered.steps [], ?_, ordered.head?_eq, ordered.nodup .nil,
    ordered.mem_iff, concrete, asked, ?_⟩
  · intro other
    exact ⟨fun alike => alike.unique ordered, fun same => same ▸ ordered⟩
  · simpa only [ordered.mem_iff] using none

/-- The instance of the generic list reaches its structure, which mentions itself, and a type
parameter. -/
theorem reachable_preorder_sample :
    load Sample.document = .ok Sample.project ∧ 5 < Sample.project.size ∧
      Sample.project.reachable 5 = .ok [5, 0, 2, 1] ∧ Sample.project.HasPart 2 2 ∧
      Sample.project.Preorder [] [5] [5, 0, 2, 1] ∧ Sample.project.isConcrete 5 = .ok false := by
  have inside : 5 < Sample.project.size := by decide
  have found : Sample.project.reachable 5 = .ok [5, 0, 2, 1] := rfl
  obtain ⟨order, reached, -, only, -⟩ := reachable_preorder Sample.load_document inside
  cases found.symm.trans reached
  exact ⟨Sample.load_document, inside, found, ⟨_, rfl, by decide⟩, (only _).mpr rfl, rfl⟩

end CodeGraph.Project

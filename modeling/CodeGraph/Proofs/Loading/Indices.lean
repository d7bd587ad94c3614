import CodeGraph.Proofs.Loading.Appending

/-! # Indices before and after a load

While a document loads, an index is resolved by the tables and the kinds of the slots, whichever of
them are filled. Once it is loaded, an index is looked up among the constructs. Both go by the same
tables and the same kinds, so they agree at every moment (`CodeGraph.Project.indices_of_load`). A
table lists no id twice, so an index can be told from what it leads to.
-/

namespace CodeGraph.Project

section Loaded

variable {document : Node} {project : Project} (loaded : load document = .ok project)
include loaded

/-- No table lists an id at two positions. -/
theorem position_unique_of_load {table : Table} {position other id : Nat}
    (here : (project.table table)[position]? = some id)
    (there : (project.table table)[other]? = some id) : other = position := by
  have distinct : (project.table table).Nodup :=
    (tables_of_load loaded table).1.imp fun below => Nat.ne_of_lt below
  have inside : other < (project.table table).length := (List.getElem?_eq_some_iff.mp there).choose
  exact (List.getElem?_inj inside distinct).mp (there.trans here.symm)

/-- An index is resolved over reserved slots as it is looked up in the loaded project. -/
theorem lookup_iff_resolveIndex {entries : List Entry}
    (reserved : Entry.ofDocument document = .ok entries) {role : Role} {index : Int}
    {ref : Ref role} :
    project.lookup role index = some ref ↔
      (Draft.ofEntries entries).resolveIndex index = .ok ref := by
  obtain ⟨found, constructs, -, again, read, rfl⟩ := load_eq_ok_iff.mp loaded
  cases reserved.symm.trans again
  have table : (ofConstructs document entries constructs).table role.table =
      (Draft.ofEntries entries).table role.table := rfl
  have kinds : (ofConstructs document entries constructs).kinds =
      (Draft.ofEntries entries).kinds := by
    rw [kinds_ofConstructs read, Draft.kinds_ofEntries]
  rw [Draft.resolveIndex_eq_ok_iff, lookup_eq_some_iff, Draft.atIndex?_eq_some_iff,
    ← table, ← kinds]
  constructor
  · intro leads
    obtain ⟨position, construct, counted, listed, here, accepted⟩ := leads
    exact ⟨⟨position, counted, listed⟩, _, kinds_eq_some_iff.mpr ⟨construct, here, rfl⟩, accepted⟩
  · intro leads
    obtain ⟨⟨position, counted, listed⟩, kind, present, accepted⟩ := leads
    obtain ⟨construct, here, rfl⟩ := kinds_eq_some_iff.mp present
    exact ⟨position, construct, counted, listed, here, accepted⟩

/-- **Indices mean the same during a load and after it.** Take a document that loads, and fill any
of its entries in any order. That succeeds, and at that moment an index resolves to a reference
exactly if the loaded project looks it up as that reference. The construct at a position of a
role's table, if the role accepts it, is looked up by the index one above the position and by no
other; every index that is not of this form, so every index below one or past the end, leads to
nothing. -/
theorem indices_of_load :
    (∃ allocation, Allocation.ofDocument document = .ok allocation ∧
      (∀ order : List Nat, order.Nodup →
        (∀ position ∈ order, position < allocation.pending.length) →
        ∃ draft, order.foldlM (Draft.fillPending allocation.pending) allocation.compose =
          .ok draft) ∧
      (∀ (order : List Nat) (draft : Draft),
        (∀ position ∈ order, position < allocation.pending.length) →
        order.foldlM (Draft.fillPending allocation.pending) allocation.compose = .ok draft →
        ∀ (role : Role) (index : Int) (ref : Ref role),
          project.lookup role index = some ref ↔ draft.resolveIndex index = .ok ref)) ∧
    (∀ (role : Role) (position id : Nat) (construct : Construct),
      (project.table role.table)[position]? = some id →
      project.construct? id = some construct → role.accepts construct.kind = true →
      project.lookup role (position + 1) = some ⟨id⟩ ∧
      ∀ index, project.lookup role index = some ⟨id⟩ → index = position + 1) ∧
    (∀ (role : Role) (index : Int),
      (∀ (position id : Nat) (construct : Construct),
        (project.table role.table)[position]? = some id →
        project.construct? id = some construct → role.accepts construct.kind = true →
        index ≠ position + 1) →
      project.lookup role index = none) ∧
    (∀ (role : Role) (index : Int),
      index < 1 ∨ ((project.table role.table).length : Int) < index →
      project.lookup role index = none) := by
  have nothing {role : Role} {index : Int}
      (other : ∀ (position id : Nat) (construct : Construct),
        (project.table role.table)[position]? = some id →
        project.construct? id = some construct → role.accepts construct.kind = true →
        index ≠ position + 1) : project.lookup role index = none := by
    apply Option.eq_none_iff_forall_ne_some.mpr
    intro ref found
    obtain ⟨position, construct, counted, listed, here, accepted⟩ :=
      lookup_eq_some_iff.mp found
    exact other position ref.id construct listed here accepted counted
  obtain ⟨entries, constructs, -, reserved, read, -⟩ := load_eq_ok_iff.mp loaded
  have allocated := Allocation.ofDocument_eq_ok_iff.mpr ⟨entries, reserved, rfl⟩
  refine ⟨⟨_, allocated, ?_⟩, ?_, fun role index => nothing, ?_⟩
  · simp only [Allocation.length_pending, Draft.fillPending_ofEntries, Draft.compose_ofEntries]
    constructor
    · intro order distinct inside
      obtain ⟨values, readOrder⟩ := exists_mapM_eq_ok fun position member =>
        Draft.exists_constructAt read (inside position member)
      obtain ⟨draft, run, -⟩ :=
        (Draft.Filled.empty entries).run_ok inside distinct (by simp) readOrder
      exact ⟨draft, run⟩
    · intro order draft inside run role index ref
      obtain ⟨-, filled⟩ := (Draft.Filled.empty entries).of_run inside run
      rw [filled.sameShape.resolveIndex, lookup_iff_resolveIndex loaded reserved]
  · intro role position id construct listed here accepted
    refine ⟨lookup_eq_some_iff.mpr ⟨position, construct, rfl, listed, here, accepted⟩, ?_⟩
    intro index found
    obtain ⟨other, _, rfl, again, -, -⟩ := lookup_eq_some_iff.mp found
    rw [position_unique_of_load loaded listed again]
  · intro role index outside
    apply nothing
    rintro position id construct listed - - rfl
    have inside : position < (project.table role.table).length :=
      (List.getElem?_eq_some_iff.mp listed).choose
    omega

end Loaded

/-- The generic list is the fourth type. While the first three entries of its document are filled,
backwards, no other index resolves to it. -/
theorem indices_of_load_sample :
    load Sample.document = .ok Sample.project ∧
      (∃ draft, [2, 1, 0].foldlM (Draft.fillPending Sample.allocation.pending)
          Sample.allocation.compose = .ok draft ∧
        ∀ index : Int, draft.resolveIndex index =
          .ok (⟨4⟩ : ObjectDeclRef) ↔ index = 4) ∧
      Sample.project.lookup (.only .objectDecl) 4 = some ⟨4⟩ ∧
      Sample.project.lookup (.only .objectDecl) (-9223372036854775808) = none := by
  have same : Allocation.ofDocument Sample.document = .ok Sample.allocation := rfl
  obtain ⟨⟨allocation, allocated, runs, agree⟩, positions, -, outside⟩ :=
    indices_of_load Sample.load_document
  cases same.symm.trans allocated
  obtain ⟨draft, run⟩ := runs [2, 1, 0] (by decide) (by decide)
  obtain ⟨found, unique⟩ := positions (.only .objectDecl) 3 4 _ rfl rfl rfl
  refine ⟨Sample.load_document, ⟨draft, run, ?_⟩, found, outside _ _ (.inl (by decide))⟩
  intro index
  rw [← agree [2, 1, 0] draft (by decide) run (.only .objectDecl) index ⟨4⟩]
  exact ⟨unique index, fun same => same ▸ found⟩

end CodeGraph.Project

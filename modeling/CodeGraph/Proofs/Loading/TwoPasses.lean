import CodeGraph.Proofs.Loading.Linking
import Mathlib.Data.List.Perm.Subperm

/-! # Filling slots in any order

The second pass fills one slot at a time. The invariant `CodeGraph.Draft.Filled` says of a draft
which entries are filled, and that each of them holds what its entry spells over the draft in which
nothing is filled. Filling a fresh position keeps it and filling a position again fails, so a
document loads in some order of all its entries exactly when each entry can be read over the empty
draft (`CodeGraph.Project.loadInOrder_eq_ok_iff`), and a failing load reports the first entry of
the order that cannot be read.
-/

namespace CodeGraph

/-- The construct that an entry spells, its references resolved over a draft. -/
def Entry.construct (draft : Draft) (entry : Entry) : LoadResult Construct :=
  LoadResult.within entry.path (Construct.ofNode draft entry.kind entry.placement entry.node)

namespace Draft

/-- The construct of the entry at a position, read while no slot is filled. -/
def constructAt (entries : List Entry) (position : Nat) : LoadResult Construct := do
  let entry ← entryAt entries position
  entry.construct (ofEntries entries)

section Fill

variable {draft : Draft} {id : Nat} {construct : Construct}

/-- A reserved slot takes a construct of its kind. -/
theorem fill_reserved {reservation : Reservation}
    (reserved : draft.slots[id]? = some (.reserved reservation))
    (kinds : reservation.kind = construct.kind) :
    (fill id construct).runOn draft =
      (.ok (), { draft with slots := draft.slots.set id (.filled construct) }) := by
  simp [fill, entryAt_eq_ok_iff.mpr reserved, kinds]

/-- A reserved slot refuses a construct of another kind. -/
theorem fill_misplaced {reservation : Reservation}
    (reserved : draft.slots[id]? = some (.reserved reservation))
    (kinds : reservation.kind ≠ construct.kind) :
    (fill id construct).runOn draft = (.error (.of (.misplaced construct.kind)), draft) := by
  simp [fill, entryAt_eq_ok_iff.mpr reserved, kinds]

/-- A filled slot refuses every construct. -/
theorem fill_filled {present : Construct} (here : draft.slots[id]? = some (.filled present)) :
    (fill id construct).runOn draft = (.error (.of (.filledTwice id present.kind)), draft) := by
  simp [fill, entryAt_eq_ok_iff.mpr here]

/-- Outside the arena there is no slot to fill. -/
theorem fill_outside (outside : draft.slots[id]? = none) :
    (fill id construct).runOn draft =
      (.error (.of (.outOfBounds ⟨draft.slots.length, id⟩)), draft) := by
  simp [fill, entryAt, outside]

end Fill

/-- Slots that are filled are complete. -/
theorem completeFrom_filled (id : Nat) (constructs : List Construct) :
    completeFrom id (constructs.map .filled) = .ok constructs := by
  induction constructs generalizing id with
  | nil => rfl
  | cons construct rest ih => simp [completeFrom, ih (id + 1)]

/-- A draft that is filled is complete with what it is filled with. -/
theorem complete_filledWith (draft : Draft) (constructs : List Construct) :
    (draft.filledWith constructs).complete = .ok constructs :=
  completeFrom_filled 0 constructs

/-- What is built at a position is what the entry there spells. -/
theorem constructAt_of_entry {entries : List Entry} {position : Nat} {entry : Entry}
    (present : entries[position]? = some entry) :
    constructAt entries position = entry.construct (ofEntries entries) := by
  simp only [constructAt, entryAt_eq_ok_iff.mpr present]
  rfl

/-- If all entries spell constructs, one can be built at each position. -/
theorem exists_constructAt {entries : List Entry} {constructs : List Construct}
    (read : entries.mapM (Entry.construct (ofEntries entries)) = .ok constructs) {position : Nat}
    (inside : position < entries.length) :
    ∃ construct, constructAt entries position = .ok construct := by
  have matched := mapM_eq_ok_iff.mp read
  rw [constructAt_of_entry (List.getElem?_eq_getElem inside)]
  exact ⟨_, matched.get inside (matched.length_eq ▸ inside)⟩

/-- What is built at a position is what the entry that waits there spells. -/
theorem constructAt_of_pending {entries : List Entry} {position : Nat} {entry : Pending}
    (present : (Allocation.ofEntries entries).pending[position]? = some entry) :
    constructAt entries position = LoadResult.within entry.path
      (Construct.ofNode (ofEntries entries) entry.kind entry.placement entry.node) := by
  obtain ⟨entry, listed, rfl⟩ := Allocation.getElem?_pending_eq_some_iff.mp present
  exact constructAt_of_entry listed

/-- What could be built was spelled by an entry that waits. -/
theorem constructAt_eq_ok {entries : List Entry} {position : Nat}
    (read : ∃ construct, constructAt entries position = .ok construct) :
    ∃ entry construct, (Allocation.ofEntries entries).pending[position]? = some entry ∧
      Construct.ofNode (ofEntries entries) entry.kind entry.placement entry.node =
        .ok construct := by
  obtain ⟨construct, read⟩ := read
  simp only [constructAt, bind_eq_ok_iff, LoadResult.liftBounds_eq_ok_iff, entryAt_eq_ok_iff,
    Entry.construct, LoadResult.within_eq_ok_iff] at read
  obtain ⟨entry, present, read⟩ := read
  exact ⟨entry.pendingAt position, construct,
    Allocation.getElem?_pending_eq_some_iff.mpr ⟨entry, present, rfl⟩, read⟩

/-- What could not be built was spelled badly by the entry at its position, whose path the error
has. -/
theorem constructAt_eq_error {entries : List Entry} {position : Nat} {error : LoadError}
    (inside : position < entries.length) (failed : constructAt entries position = .error error) :
    ∃ entry cause, entries[position]? = some entry ∧
      Construct.ofNode (ofEntries entries) entry.kind entry.placement entry.node = .error cause ∧
      error = cause.within entry.path := by
  have present := List.getElem?_eq_getElem inside
  rw [constructAt_of_entry present, Entry.construct, LoadResult.within,
    mapError_eq_error_iff] at failed
  obtain ⟨cause, unread, rfl⟩ := failed
  exact ⟨entries[position], cause, present, unread, rfl⟩

/-- Constructs have the kinds that their entries are reserved for. -/
theorem kind_eq_of_mapM {entries : List Entry} {constructs : List Construct}
    (read : entries.mapM (Entry.construct (ofEntries entries)) = .ok constructs) :
    constructs.map Construct.kind = Entry.kinds entries := by
  apply map_eq_of_mapM read
  intro entry _ construct spelled
  exact Construct.kind_of_ofNode (LoadResult.within_eq_ok_iff.mp spelled)

/-- Constructs read from entries can be linked. -/
theorem linkable_of_mapM {entries : List Entry} {constructs : List Construct}
    (read : entries.mapM (Entry.construct (ofEntries entries)) = .ok constructs) :
    Linkable (Entry.kinds entries) constructs where
  kind_eq := kind_eq_of_mapM read
  declared := by
    intro construct member
    obtain ⟨entry, -, spelled⟩ := exists_item_of_mapM read member
    rw [← kinds_ofEntries]
    exact Construct.decl_fits_of_ofNode (LoadResult.within_eq_ok_iff.mp spelled)

/-- A draft over some entries in which the entries at the positions `done` are filled, and no
others. What fills a slot is what its entry spells while no slot is filled. -/
structure Filled (entries : List Entry) (done : List Nat) (draft : Draft) : Prop where
  tables : draft.tables = (ofEntries entries).tables
  keys : draft.keys = (ofEntries entries).keys
  size : draft.slots.length = entries.length
  ahead : ∀ position entry, entries[position]? = some entry → position ∉ done →
    draft.slots[position]? = some (.reserved ⟨entry.kind, entry.name⟩)
  behind : ∀ position ∈ done, ∃ construct, constructAt entries position = .ok construct ∧
    draft.slots[position]? = some (.filled construct)

namespace Filled

variable {entries : List Entry} {done : List Nat} {draft : Draft}

/-- At first nothing is filled. -/
theorem empty (entries : List Entry) : Filled entries [] (ofEntries entries) where
  tables := rfl
  keys := rfl
  size := by simp [ofEntries, compose]
  ahead := by
    intro position entry present _
    simp [ofEntries, compose, present, Entry.reservation]
  behind := by simp

variable (filled : Filled entries done draft)
include filled

/-- Filling slots does not change the shape of a draft. -/
theorem sameShape : draft.SameShape (ofEntries entries) where
  tables := filled.tables
  keys := filled.keys
  kinds := by
    apply List.ext_getElem?
    intro position
    rw [List.getElem?_map, List.getElem?_map]
    cases present : entries[position]? with
    | none =>
        have outside : entries.length ≤ position := List.getElem?_eq_none_iff.mp present
        rw [List.getElem?_eq_none (filled.size ▸ outside)]
        simp [ofEntries, compose, present]
    | some entry =>
        have reserved : (ofEntries entries).slots[position]? =
            some (.reserved ⟨entry.kind, entry.name⟩) :=
          (empty entries).ahead position entry present List.not_mem_nil
        by_cases member : position ∈ done
        · obtain ⟨construct, read, here⟩ := filled.behind position member
          rw [constructAt_of_entry present, Entry.construct,
            LoadResult.within_eq_ok_iff] at read
          rw [here, reserved]
          exact congrArg some (Construct.kind_of_ofNode read)
        · rw [filled.ahead position entry present member, reserved]

/-- Reading an entry over a draft gives what it gives while no slot is filled. -/
theorem construct_eq (entry : Entry) :
    entry.construct draft = entry.construct (ofEntries entries) := by
  simp only [Entry.construct, filled.sameShape.construct]

/-- Filling the slot of an entry reads the entry over the empty draft first. -/
theorem fillEntry_eq {position : Nat} {entry : Entry} (present : entries[position]? = some entry) :
    fillEntry entries draft position = constructAt entries position >>= fun construct =>
      LoadResult.within entry.path ((fill position construct).outcome draft) := by
  rw [constructAt_of_entry present, ← filled.construct_eq, Entry.construct,
    ← LoadResult.within_bind]
  simp only [fillEntry, entryAt_eq_ok_iff.mpr present]
  rfl

/-- A fresh position is filled if its entry can be read. -/
theorem fillEntry_fresh {position : Nat} (inside : position < entries.length)
    (fresh : position ∉ done) {construct : Construct}
    (read : constructAt entries position = .ok construct) :
    fillEntry entries draft position =
      .ok { draft with slots := draft.slots.set position (.filled construct) } := by
  have present := List.getElem?_eq_getElem inside
  have kinds : entries[position].kind = construct.kind := by
    rw [constructAt_of_entry present, Entry.construct, LoadResult.within_eq_ok_iff] at read
    exact (Construct.kind_of_ofNode read).symm
  rw [filled.fillEntry_eq present, read, ok_bind, Change.outcome,
    fill_reserved (filled.ahead position _ present fresh) kinds]
  rfl

/-- A position that is filled is not filled again. -/
theorem fillEntry_again {position : Nat} (again : position ∈ done) (next : Draft) :
    fillEntry entries draft position ≠ .ok next := by
  obtain ⟨construct, read, here⟩ := filled.behind position again
  have inside : position < entries.length := by
    rw [← filled.size]
    exact (List.getElem?_eq_some_iff.mp here).choose
  intro succeeded
  rw [filled.fillEntry_eq (List.getElem?_eq_getElem inside), read, ok_bind,
    LoadResult.within_eq_ok_iff, Change.outcome, fill_filled here] at succeeded
  cases succeeded

/-- Filling a fresh position keeps the invariant. -/
theorem set {position : Nat} {construct : Construct}
    (inside : position < entries.length) (read : constructAt entries position = .ok construct) :
    Filled entries (position :: done)
      { draft with slots := draft.slots.set position (.filled construct) } where
  tables := filled.tables
  keys := filled.keys
  size := by simp [filled.size]
  ahead := by
    intro other entry present outside
    rw [List.mem_cons, not_or] at outside
    obtain ⟨different, outside⟩ := outside
    rw [List.getElem?_set_ne (Ne.symm different)]
    exact filled.ahead other entry present outside
  behind := by
    intro other member
    by_cases same : other = position
    · subst same
      refine ⟨construct, read, ?_⟩
      rw [List.getElem?_set_self (filled.size ▸ inside)]
    · obtain ⟨earlier, readEarlier, here⟩ :=
        filled.behind other ((List.mem_cons.mp member).resolve_left same)
      refine ⟨earlier, readEarlier, ?_⟩
      rw [List.getElem?_set_ne (Ne.symm same)]
      exact here

omit filled in
/-- A position that is done once is not among those to come. -/
theorem fresh_behind {position : Nat} {rest : List Nat} (unrepeated : position ∉ rest)
    (fresh : ∀ other ∈ rest, other ∉ done) : ∀ other ∈ rest, other ∉ position :: done := by
  intro other member again
  rcases List.mem_cons.mp again with rfl | again
  · exact unrepeated member
  · exact fresh other member again

omit filled in
/-- Filling fresh positions one after the other succeeds if each of their entries can be read. -/
theorem run_ok {order : List Nat} (filled : Filled entries done draft)
    (inside : ∀ position ∈ order, position < entries.length) (distinct : order.Nodup)
    (fresh : ∀ position ∈ order, position ∉ done) {constructs : List Construct}
    (read : order.mapM (constructAt entries) = .ok constructs) :
    ∃ final, order.foldlM (fillEntry entries) draft = .ok final ∧
      Filled entries (order.reverse ++ done) final := by
  induction order generalizing done draft constructs with
  | nil => exact ⟨draft, rfl, filled⟩
  | cons position rest ih =>
      simp only [List.mapM_cons, bind_eq_ok_iff] at read
      obtain ⟨construct, readFirst, later, readLater, _⟩ := read
      obtain ⟨unrepeated, distinct⟩ := List.nodup_cons.mp distinct
      have here := inside position List.mem_cons_self
      have notDone := fresh position List.mem_cons_self
      obtain ⟨final, run, complete⟩ := ih (filled.set here readFirst)
        (fun other member => inside other (List.mem_cons_of_mem _ member)) distinct
        (fresh_behind unrepeated fun other member => fresh other (List.mem_cons_of_mem _ member))
        readLater
      refine ⟨final, ?_, by simpa using complete⟩
      rw [List.foldlM_cons, filled.fillEntry_fresh here notDone readFirst]
      exact run

omit filled in
/-- Filling fresh positions fails as reading their entries does. -/
theorem run_error {order : List Nat} (filled : Filled entries done draft)
    (inside : ∀ position ∈ order, position < entries.length) (distinct : order.Nodup)
    (fresh : ∀ position ∈ order, position ∉ done) {error : LoadError}
    (failed : order.mapM (constructAt entries) = .error error) :
    order.foldlM (fillEntry entries) draft = .error error := by
  induction order generalizing done draft with
  | nil => cases failed
  | cons position rest ih =>
      have here := inside position List.mem_cons_self
      have present := List.getElem?_eq_getElem here
      obtain ⟨unrepeated, distinct⟩ := List.nodup_cons.mp distinct
      rw [List.mapM_cons] at failed
      rw [List.foldlM_cons]
      cases readFirst : constructAt entries position with
      | error cause =>
          rw [readFirst] at failed
          rw [filled.fillEntry_eq present, readFirst]
          simpa using failed
      | ok construct =>
          rw [filled.fillEntry_fresh here (fresh position List.mem_cons_self) readFirst]
          apply ih (filled.set here readFirst)
            (fun other member => inside other (List.mem_cons_of_mem _ member)) distinct
            (fresh_behind unrepeated fun other member =>
              fresh other (List.mem_cons_of_mem _ member))
          rw [readFirst] at failed
          cases later : rest.mapM (constructAt entries) with
          | error cause => simpa [later] using failed
          | ok constructs => simp [later, pure, Except.pure] at failed

omit filled in
/-- A run that succeeds fills every position of its order once. -/
theorem run_distinct {order : List Nat} (filled : Filled entries done draft)
    (inside : ∀ position ∈ order, position < entries.length) {final : Draft}
    (run : order.foldlM (fillEntry entries) draft = .ok final) :
    order.Nodup ∧ ∀ position ∈ order, position ∉ done := by
  induction order generalizing done draft with
  | nil => simp
  | cons position rest ih =>
      have here := inside position List.mem_cons_self
      rw [List.foldlM_cons, bind_eq_ok_iff] at run
      obtain ⟨next, first, later⟩ := run
      have fresh : position ∉ done := fun again => filled.fillEntry_again again next first
      have read := first
      rw [filled.fillEntry_eq (List.getElem?_eq_getElem here), bind_eq_ok_iff] at read
      obtain ⟨construct, read, -⟩ := read
      rw [filled.fillEntry_fresh here fresh read] at first
      cases first
      obtain ⟨distinct, laterFresh⟩ := ih (filled.set here read)
        (fun other member => inside other (List.mem_cons_of_mem _ member)) later
      refine ⟨List.nodup_cons.mpr ⟨?_, distinct⟩, ?_⟩
      · intro repeated
        exact laterFresh position repeated List.mem_cons_self
      · intro other member
        rcases List.mem_cons.mp member with rfl | member
        · exact fresh
        · exact fun again => laterFresh other member (List.mem_cons_of_mem _ again)

omit filled in
/-- A run that succeeds takes each position once and fills it with what its entry spells. -/
theorem of_run {order : List Nat} (filled : Filled entries done draft)
    (inside : ∀ position ∈ order, position < entries.length) {final : Draft}
    (run : order.foldlM (fillEntry entries) draft = .ok final) :
    order.Nodup ∧ Filled entries (order.reverse ++ done) final := by
  obtain ⟨distinct, fresh⟩ := filled.run_distinct inside run
  cases read : order.mapM (constructAt entries) with
  | ok constructs =>
      obtain ⟨again, rerun, complete⟩ := filled.run_ok inside distinct fresh read
      cases run.symm.trans rerun
      exact ⟨distinct, complete⟩
  | error error =>
      rw [filled.run_error inside distinct fresh read] at run
      cases run

/-- Once every slot is filled, the slots hold what the entries spell. -/
theorem slots_eq (all : ∀ position < entries.length, position ∈ done) :
    ∃ constructs, entries.mapM (Entry.construct (ofEntries entries)) = .ok constructs ∧
      draft.slots = constructs.map .filled := by
  cases read : entries.mapM (Entry.construct (ofEntries entries)) with
  | error cause =>
      obtain ⟨before, entry, after, split, -, failed⟩ := mapM_eq_error_iff.mp read
      have present : entries[before.length]? = some entry := by simp [split]
      obtain ⟨construct, succeeded, -⟩ :=
        filled.behind before.length (all before.length (by simp [split]))
      rw [constructAt_of_entry present, failed] at succeeded
      cases succeeded
  | ok constructs =>
      refine ⟨constructs, rfl, ?_⟩
      have matched := mapM_eq_ok_iff.mp read
      apply List.ext_getElem (by simpa [filled.size] using matched.length_eq)
      intro position inside _
      have inside : position < entries.length := filled.size ▸ inside
      obtain ⟨construct, succeeded, here⟩ := filled.behind position (all position inside)
      have spelled := matched.get inside (matched.length_eq ▸ inside)
      rw [constructAt_of_entry (List.getElem?_eq_getElem inside)] at succeeded
      simp only [List.get_eq_getElem, succeeded, Except.ok.injEq] at spelled
      rw [(List.getElem?_eq_some_iff.mp here).choose_spec, spelled, List.getElem_map]

/-- Once every slot is filled, linking succeeds, and links the constructs that the entries
spell. -/
theorem link_eq (all : ∀ position < entries.length, position ∈ done) :
    ∃ constructs, entries.mapM (Entry.construct (ofEntries entries)) = .ok constructs ∧
      draft.link =
        .ok (draft.filledWith (Project.link (ofEntries entries).tables constructs)) := by
  obtain ⟨constructs, read, slots⟩ := filled.slots_eq all
  refine ⟨constructs, read, ?_⟩
  have whole : draft = draft.filledWith constructs := by rw [filledWith, ← slots]
  have listed : ∀ table, ∀ id ∈ draft.table table,
      ∃ kind, (Entry.kinds entries)[id]? = some kind ∧ kind.table = table := by
    intro table id member
    rw [Draft.table, filled.tables] at member
    exact Entry.mem_idsIn_iff.mp (table_ofEntries entries table ▸ member)
  have linked := link_filledWith (linkable_of_mapM read) listed
  rwa [← whole, filled.tables] at linked

end Filled

end Draft

namespace Sample

/-- A structure that mentions itself. -/
def node : Node :=
  .object [("fields", .array [
    .object [("name", .string "value"), ("type", .number (.integer 2))],
    .object [("name", .string "next"), ("type", .number (.integer 3))]])]

/-- The declaration of a generic list over that structure. -/
def decl : Node :=
  .object [("name", .string "List"), ("typeParams", .array [.number (.integer 2)]),
    ("data", .number (.integer 3))]

/-- The list of integers. -/
def inst : Node :=
  .object [("decl", .number (.integer 4)), ("instanceTypes", .array [.number (.integer 1)]),
    ("resolved", .number (.integer 3))]

/-- The package of the generic list. -/
def package : Node :=
  .object [("name", .string "lists"), ("objectDecls", .array [decl]),
    ("objectInsts", .array [inst])]

/-- A document of a generic list and its instance for integers. -/
def document : Node :=
  .object [("basics", .array [.string "int"]),
    ("named", .array [.object [("name", .string "T"), ("type", .number (.integer 1))]]),
    ("structDescs", .array [node]), ("packages", .array [package])]

/-- What the first pass over the document comes to. -/
def allocation : Allocation where
  reservations := [⟨.basic, some "int"⟩, ⟨.named, some "T"⟩, ⟨.structDesc, none⟩,
    ⟨.package, some "lists"⟩, ⟨.objectDecl, some "List"⟩, ⟨.objectInst, none⟩]
  tables := ⟨[0, 1, 2, 4, 5], [3], [], [], []⟩
  pending := [
    ⟨0, .basic, .string "int", [.field "basics", .index 0], .topLevel⟩,
    ⟨1, .named, .object [("name", .string "T"), ("type", .number (.integer 1))],
      [.field "named", .index 0], .topLevel⟩,
    ⟨2, .structDesc, node, [.field "structDescs", .index 0], .topLevel⟩,
    ⟨3, .package, package, [.field "packages", .index 0],
      .package { Members.empty with objectDecls := [⟨4⟩], objectInsts := [⟨5⟩] }⟩,
    ⟨4, .objectDecl, decl,
      [.field "packages", .index 0, .field "objectDecls", .index 0], .member ⟨3⟩⟩,
    ⟨5, .objectInst, inst,
      [.field "packages", .index 0, .field "objectInsts", .index 0], .member ⟨3⟩⟩]

/-- The project that the document spells. -/
def project : Project where
  language := ""
  constructs := [
    .basic ⟨"int"⟩,
    .named ⟨"T", ⟨0⟩⟩,
    .structDesc ⟨[⟨"value", ⟨1⟩, false⟩, ⟨"next", ⟨2⟩, false⟩]⟩,
    .package ⟨"lists", "", [],
      { Members.empty with objectDecls := [⟨4⟩], objectInsts := [⟨5⟩] }⟩,
    .objectDecl ⟨⟨"List", "", ⟨3⟩, [⟨1⟩]⟩, ⟨2⟩, [], [⟨5⟩]⟩,
    .objectInst ⟨⟨4⟩, [⟨0⟩], ⟨2⟩, []⟩]
  tables := ⟨[0, 1, 2, 4, 5], [3], [], [], []⟩

theorem load_document : Project.load document = .ok project := rfl

end Sample

namespace Project

/-- The project that constructs make up once all entries of a document are read. -/
def ofConstructs (document : Node) (entries : List Entry) (constructs : List Construct) : Project :=
  let tables := (Draft.ofEntries entries).tables
  { language := document.optionalString "language", constructs := link tables constructs, tables }

variable {document : Node} {entries : List Entry} {allocation : Allocation}
  {reorder : List Nat → List Nat}

/-- A document whose first pass is done loads as its slots are filled. -/
theorem loadInOrder_eq (object : document.shape = .object)
    (reserved : Entry.ofDocument document = .ok entries) :
    loadInOrder reorder document = do
      let filled ← (reorder (List.range entries.length)).foldlM (Draft.fillEntry entries)
        (Draft.ofEntries entries)
      let linked ← filled.link
      let constructs ← linked.complete
      return {
        language := document.optionalString "language"
        constructs
        tables := linked.tables } := by
  cases document with
  | object fields =>
      rw [loadInOrder_by_entries, reserved]
      rfl
  | _ => cases object

/-- A document loads in an order of positions exactly when the order takes each of its entries
once and each of them can be read while no slot is filled. -/
theorem loadInOrder_eq_ok_iff (object : document.shape = .object)
    (reserved : Entry.ofDocument document = .ok entries)
    (length : (reorder (List.range entries.length)).length = entries.length)
    (inside : ∀ position ∈ reorder (List.range entries.length), position < entries.length)
    {project : Project} :
    loadInOrder reorder document = .ok project ↔
      (reorder (List.range entries.length)).Perm (List.range entries.length) ∧
        ∃ constructs, entries.mapM (Entry.construct (Draft.ofEntries entries)) = .ok constructs ∧
          ofConstructs document entries constructs = project := by
  rw [loadInOrder_eq object reserved]
  simp only [bind_eq_ok_iff, pure_eq_ok_iff]
  constructor
  · intro loaded
    rcases loaded with ⟨final, run, linked, link, constructs, completed, rfl⟩
    obtain ⟨distinct, filled⟩ := (Draft.Filled.empty entries).of_run inside run
    have permuted : (reorder (List.range entries.length)).Perm (List.range entries.length) :=
      (distinct.subperm fun position member =>
        List.mem_range.mpr (inside position member)).perm_of_length_le (by simp [length])
    obtain ⟨spelled, readAll, linkAll⟩ := filled.link_eq fun position below => by
      simpa using permuted.mem_iff.mpr (List.mem_range.mpr below)
    cases link.symm.trans linkAll
    cases completed.symm.trans (Draft.complete_filledWith _ _)
    refine ⟨permuted, spelled, readAll, ?_⟩
    simp only [ofConstructs, Draft.filledWith, filled.tables]
  · intro readable
    rcases readable with ⟨permuted, constructs, readAll, rfl⟩
    obtain ⟨values, read⟩ := exists_mapM_eq_ok fun position member =>
      Draft.exists_constructAt readAll (inside position member)
    obtain ⟨final, run, filled⟩ := (Draft.Filled.empty entries).run_ok inside
      (permuted.nodup_iff.mpr List.nodup_range) (by simp) read
    obtain ⟨spelled, readAgain, linked⟩ := filled.link_eq fun position below => by
      simpa using permuted.mem_iff.mpr (List.mem_range.mpr below)
    cases readAll.symm.trans readAgain
    refine ⟨final, run, _, linked, _, Draft.complete_filledWith _ _, ?_⟩
    simp only [ofConstructs, Draft.filledWith, filled.tables]

/-- Over distinct positions a load fails in its second pass exactly as the first position fails
whose entry cannot be read while no slot is filled. -/
theorem loadInOrder_eq_error_iff (object : document.shape = .object)
    (reserved : Entry.ofDocument document = .ok entries)
    (permuted : (reorder (List.range entries.length)).Perm (List.range entries.length))
    {error : LoadError} :
    loadInOrder reorder document = .error error ↔
      (reorder (List.range entries.length)).mapM (Draft.constructAt entries) = .error error := by
  have inside : ∀ position ∈ reorder (List.range entries.length), position < entries.length :=
    fun position member => List.mem_range.mp (permuted.mem_iff.mp member)
  have distinct := permuted.nodup_iff.mpr List.nodup_range
  cases read : (reorder (List.range entries.length)).mapM (Draft.constructAt entries) with
  | error cause =>
      rw [loadInOrder_eq object reserved,
        (Draft.Filled.empty entries).run_error inside distinct (by simp) read, error_bind,
        Except.error.injEq, Except.error.injEq]
  | ok values =>
      obtain ⟨final, run, filled⟩ :=
        (Draft.Filled.empty entries).run_ok inside distinct (by simp) read
      obtain ⟨constructs, -, linked⟩ := filled.link_eq fun position below => by
        simpa using permuted.mem_iff.mpr (List.mem_range.mpr below)
      rw [loadInOrder_eq object reserved, run, ok_bind, linked, ok_bind,
        Draft.complete_filledWith, ok_bind]
      simp [pure, Except.pure]

/-- **The order of the second pass does not matter.** A document whose first pass succeeds loads in
an order of as many positions as entries wait exactly when the order takes each entry once and the
document loads in document order, and then it loads as the same project. Where the order takes each
entry once and the load fails, it fails with the error of the first entry of the order that cannot
be read while no slot is filled, seen from the root of the document. An order that repeats a
position never loads. -/
theorem loadInOrder_independent_of_order (object : document.shape = .object)
    (allocated : Allocation.ofDocument document = .ok allocation)
    (length : (reorder (List.range allocation.pending.length)).length = allocation.pending.length)
    (inside : ∀ position ∈ reorder (List.range allocation.pending.length),
      position < allocation.pending.length) :
    let order := reorder (List.range allocation.pending.length)
    (∀ project, loadInOrder reorder document = .ok project ↔
      order.Perm (List.range allocation.pending.length) ∧ load document = .ok project) ∧
    (order.Perm (List.range allocation.pending.length) →
      ∀ error, loadInOrder reorder document = .error error ↔
        ∃ before position after entry cause, order = before ++ position :: after ∧
          (∀ earlier ∈ before, ∃ entry construct, allocation.pending[earlier]? = some entry ∧
            Construct.ofNode allocation.compose entry.kind entry.placement entry.node =
              .ok construct) ∧
          allocation.pending[position]? = some entry ∧
          Construct.ofNode allocation.compose entry.kind entry.placement entry.node =
            .error cause ∧
          error = cause.within entry.path) ∧
    (¬ order.Nodup → ∃ error, loadInOrder reorder document = .error error) := by
  obtain ⟨entries, reserved, rfl⟩ := Allocation.ofDocument_eq_ok_iff.mp allocated
  simp only [Allocation.length_pending, Draft.compose_ofEntries] at length inside ⊢
  have inOrder := @loadInOrder_eq_ok_iff _ _ _ object reserved length inside
  refine ⟨?_, ?_, ?_⟩
  · intro project
    have inDocumentOrder : load document = .ok project ↔ _ :=
      loadInOrder_eq_ok_iff object reserved (by simp) (by simp)
    rw [inOrder, inDocumentOrder]
    simp
  · intro permuted error
    rw [loadInOrder_eq_error_iff object reserved permuted, mapM_eq_error_iff]
    constructor
    · intro blamed
      rcases blamed with ⟨before, position, after, split, earlier, failed⟩
      obtain ⟨entry, cause, present, unread, blamed⟩ :=
        Draft.constructAt_eq_error (inside position (by simp [split])) failed
      exact ⟨before, position, after, entry.pendingAt position, cause, split,
        fun other member => Draft.constructAt_eq_ok (earlier other member),
        Allocation.getElem?_pending_eq_some_iff.mpr ⟨entry, present, rfl⟩, unread, blamed⟩
    · intro blamed
      rcases blamed with
        ⟨before, position, after, entry, cause, split, earlier, present, unread, rfl⟩
      refine ⟨before, position, after, split, ?_, ?_⟩
      · intro other member
        obtain ⟨entry, construct, present, read⟩ := earlier other member
        exact ⟨construct, by simp [Draft.constructAt_of_pending present, read]⟩
      · simp [Draft.constructAt_of_pending present, LoadResult.within, unread]
  · intro repeats
    apply not_ok_iff_error.mp
    intro project loaded
    exact repeats ((inOrder.mp loaded).1.nodup_iff.mpr List.nodup_range)

/-- A document loads backwards as it loads forwards, though its entries refer to each other. -/
theorem loadInOrder_reverse_sample :
    Sample.document.shape = .object ∧
      Allocation.ofDocument Sample.document = .ok Sample.allocation ∧
      (List.range Sample.allocation.pending.length).reverse.length =
        Sample.allocation.pending.length ∧
      (∀ position ∈ (List.range Sample.allocation.pending.length).reverse,
        position < Sample.allocation.pending.length) ∧
      loadInOrder List.reverse Sample.document = .ok Sample.project := by
  have allocated : Allocation.ofDocument Sample.document = .ok Sample.allocation := rfl
  have length : (List.range Sample.allocation.pending.length).reverse.length =
      Sample.allocation.pending.length := rfl
  have inside : ∀ position ∈ (List.range Sample.allocation.pending.length).reverse,
      position < Sample.allocation.pending.length := by decide
  refine ⟨rfl, allocated, length, inside, ?_⟩
  exact ((loadInOrder_independent_of_order rfl allocated length inside).1 Sample.project).mpr
    ⟨List.reverse_perm _, Sample.load_document⟩

end Project

end CodeGraph

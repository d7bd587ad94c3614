import CodeGraph.Proofs.Loading.Arena

/-! # What indices and keys lead to

Over slots that are reserved an index leads to the id at its position in the role's table
(`CodeGraph.Draft.resolveIndex_compose`). A key leads to the id that its ordinal picks among those
of its name in the role's table (`CodeGraph.Draft.resolveKey_compose`). A lookup fails for one of a
few reasons. Over the entries of a document the same is said of the entries themselves
(`CodeGraph.Draft.resolveIndex_cases`, `CodeGraph.Draft.resolveKey_cases`), and the document is to
blame for each of the reasons.
-/

namespace CodeGraph

/-- The positions of the items with a property, counted from `start`. -/
def positionsOf {α : Type} (holds : α → Prop) [DecidablePred holds] (start : Nat)
    (items : List α) : List Nat :=
  (items.zipIdx start).filterMap fun (item, position) =>
    if holds item then some position else none

section Positions

variable {α : Type} (holds : α → Prop) [DecidablePred holds] (start : Nat) (items : List α)

/-- Positions are counted from the start on. -/
theorem start_le_of_mem_positionsOf {position : Nat}
    (member : position ∈ positionsOf holds start items) : start ≤ position := by
  simp only [positionsOf, List.mem_filterMap] at member
  obtain ⟨⟨item, found⟩, member, chosen⟩ := member
  split at chosen
  · cases chosen
    exact (List.mem_zipIdx_iff_le_and_getElem?_sub.mp member).1
  · cases chosen

/-- What holds of changed items holds at the same positions. -/
theorem positionsOf_map {β : Type} (f : β → α) (items : List β) :
    positionsOf holds start (items.map f) =
      positionsOf (fun item => holds (f item)) start items := by
  rw [positionsOf, List.zipIdx_map, List.filterMap_map]
  rfl

/-- Positions in two lists are those in the first, then those in the second. -/
theorem positionsOf_append (later : List α) :
    positionsOf holds start (items ++ later) =
      positionsOf holds start items ++ positionsOf holds (start + items.length) later := by
  rw [positionsOf, List.zipIdx_append, List.filterMap_append]
  rfl

/-- At the positions of the items with a property stand the items with the property. -/
theorem map_getElem?_positionsOf :
    (positionsOf holds start items).map (fun position => items[position - start]?) =
      (items.filter (holds ·)).map some := by
  have found : ∀ pair ∈ items.zipIdx start,
      (if holds pair.1 then some pair.2 else none).map (fun position => items[position - start]?) =
        if holds pair.1 then some (some pair.1) else none := by
    intro pair member
    have here := (List.mem_zipIdx_iff_le_and_getElem?_sub.mp member).2
    split <;> simp [here]
  calc (positionsOf holds start items).map (fun position => items[position - start]?)
      = (items.zipIdx start).filterMap fun pair => (if holds pair.1 then some pair.2 else none).map
          (fun position => items[position - start]?) := by
        rw [positionsOf, List.map_filterMap]
    _ = (items.zipIdx start).filterMap
          ((fun item => if holds item then some (some item) else none) ∘ Prod.fst) :=
        List.filterMap_congr found
    _ = ((items.zipIdx start).map Prod.fst).filterMap fun item =>
          if holds item then some (some item) else none :=
        List.filterMap_map.symm
    _ = (items.filter (holds ·)).map some := by
        rw [List.zipIdx_map_fst, ← List.filterMap_eq_filter, List.map_filterMap]
        apply List.filterMap_congr
        intro item _
        split <;> simp_all [Option.guard]

end Positions

namespace Entry

/-- The entries that a table lists. -/
def listedIn (entries : List Entry) (table : Table) : List Entry :=
  entries.filter fun entry => entry.kind.table = table

/-- The entries that a table lists under a name. -/
def namedIn (entries : List Entry) (table : Table) (name : String) : List Entry :=
  (listedIn entries table).filter fun entry => entry.name = some name

/-- The table of methods lists declarations only. -/
theorem kind_of_mem_namedIn {entries : List Entry} {name : String} {entry : Entry}
    (member : entry ∈ namedIn entries .methods name) : entry.kind = .methodDecl := by
  have listed := (List.mem_filter.mp (List.mem_filter.mp member).1).2
  cases same : entry.kind <;> simp_all [Kind.table]

/-- The ids that a table lists are those of its entries. -/
theorem map_getElem?_idsIn (entries : List Entry) (table : Table) :
    (idsIn entries table).map (entries[·]?) = (listedIn entries table).map some :=
  map_getElem?_positionsOf (fun entry : Entry => entry.kind.table = table) 0 entries

/-- A table has as many ids as there are entries of its kinds. -/
theorem length_idsIn (entries : List Entry) (table : Table) :
    (idsIn entries table).length = (listedIn entries table).length := by
  simpa using congrArg List.length (map_getElem?_idsIn entries table)

end Entry

namespace KeyIndex

variable (index : KeyIndex) (name other : String) (position : Nat)

/-- A name that gets a position has it behind those it had. -/
theorem positions?_push_self :
    (index.push name position).positions? name =
      some ((index.positions? name).getD [] ++ [position]) := by
  induction index with
  | nil => simp [push, positions?]
  | cons entry rest ih =>
      obtain ⟨present, positions⟩ := entry
      by_cases same : present = name
      · simp [push, positions?, same]
      · have skipped : (name == present) = false := by simpa using Ne.symm same
        simpa [push, positions?, same, List.lookup_cons, skipped] using ih

/-- A position that one name gets does not matter to another. -/
theorem positions?_push_of_ne (different : other ≠ name) :
    (index.push name position).positions? other = index.positions? other := by
  have skip : (other == name) = false := by simpa using different
  induction index with
  | nil => simp [push, positions?, List.lookup_cons, skip]
  | cons entry rest ih =>
      obtain ⟨present, positions⟩ := entry
      by_cases same : present = name
      · simp [push, positions?, same, List.lookup_cons, skip]
      · simp only [push, positions?, same, ↓reduceIte, List.lookup_cons] at ih ⊢
        rw [ih]

variable (reservations : List Reservation)

/-- The positions of a table, counted from `start`, whose slots are reserved under a name. -/
def namedPositions (start : Nat) (ids : List Nat) (name : String) : List Nat :=
  positionsOf (fun id => reservations[id]?.bind Reservation.name = some name) start ids

/-- The first id of a table counts if its slot is reserved under the name. -/
theorem namedPositions_cons (start id : Nat) (ids : List Nat) :
    namedPositions reservations start (id :: ids) name =
      (if reservations[id]?.bind Reservation.name = some name then [start] else []) ++
        namedPositions reservations (start + 1) ids name := by
  unfold namedPositions positionsOf
  rw [List.zipIdx_cons, List.filterMap_cons]
  split <;> simp_all

/-- The positions of a name are extended by those at which a table goes on with it. -/
theorem positions?_foldl_add (ids : List Nat) (start : Nat) :
    ((ids.zipIdx start).foldl (fun index (id, position) => index.add reservations id position)
        index).positions? name =
      if namedPositions reservations (start + 1) ids name = [] then index.positions? name
      else some ((index.positions? name).getD [] ++
        namedPositions reservations (start + 1) ids name) := by
  induction ids generalizing index start with
  | nil => rfl
  | cons id rest ih =>
      rw [List.zipIdx_cons, List.foldl_cons, ih, namedPositions_cons]
      cases reserved : reservations[id]?.bind Reservation.name with
      | none => simp [add, reserved]
      | some found =>
          by_cases same : found = name
          · subst same
            simp [add, reserved, positions?_push_self]
          · have kept : (index.push found (start + 1)).positions? name = index.positions? name :=
              positions?_push_of_ne index found name _ (Ne.symm same)
            simp [add, reserved, kept, same]

/-- A name has the positions at which the table lists it, and it is unknown if there are none. -/
theorem positions?_ofTable (ids : List Nat) :
    (ofTable reservations ids).positions? name =
      if namedPositions reservations 1 ids name = [] then none
      else some (namedPositions reservations 1 ids name) :=
  positions?_foldl_add [] name reservations ids 0

end KeyIndex

namespace Draft

/-- Only the lower end of the range has to be checked, since a list has no entries past its end. -/
theorem atIndex?_eq {α : Type} (items : List α) (index : Int) :
    atIndex? items index = if 1 ≤ index then items[(index - 1).toNat]? else none := by
  by_cases positive : 1 ≤ index
  · obtain ⟨position, rfl⟩ : ∃ position : Nat, index = position + 1 :=
      ⟨(index - 1).toNat, by omega⟩
    have counted : ((position : Int) + 1).toNat? = some (position + 1) := rfl
    rw [if_pos positive, show ((position : Int) + 1 - 1).toNat = position by omega]
    by_cases inside : position + 1 ≤ items.length
    · simp [atIndex?, counted, Option.filter, inside]
    · have beyond : items[position]? = none := List.getElem?_eq_none_iff.mpr (by omega)
      simp [atIndex?, counted, Option.filter, inside, beyond]
  · rw [if_neg positive]
    cases index with
    | negSucc below => rfl
    | ofNat position =>
        obtain rfl : position = 0 := by simp at positive; omega
        rfl

/-- The entry at an index is changed as its list is. -/
theorem atIndex?_map {α β : Type} (f : α → β) (items : List α) (index : Int) :
    atIndex? (items.map f) index = (atIndex? items index).map f := by
  rw [atIndex?_eq, atIndex?_eq]
  split <;> simp

/-- Entries are counted from one. -/
theorem atIndex?_natCast {α : Type} {items : List α} {position : Nat} (positive : 1 ≤ position) :
    atIndex? items position = items[position - 1]? := by
  rw [atIndex?_eq, if_pos (by omega), show ((position : Int) - 1).toNat = position - 1 by omega]

/-- What stands at an index is in the list. -/
theorem mem_of_atIndex? {α : Type} {items : List α} {index : Int} {item : α}
    (found : atIndex? items index = some item) : item ∈ items := by
  rw [atIndex?_eq] at found
  split at found
  · exact List.mem_of_getElem? found
  · cases found

/-- Nothing stands at an index below one or beyond the length. -/
theorem atIndex?_eq_none_iff {α : Type} {items : List α} {index : Int} :
    atIndex? items index = none ↔ index < 1 ∨ (items.length : Int) < index := by
  rw [atIndex?_eq]
  split
  · rw [List.getElem?_eq_none_iff]
    omega
  · simp only [true_iff]
    omega

/-- What stands at an index stands one position before it. -/
theorem atIndex?_eq_some_iff {α : Type} {items : List α} {index : Int} {item : α} :
    atIndex? items index = some item ↔
      ∃ position : Nat, index = position + 1 ∧ items[position]? = some item := by
  constructor
  · intro found
    rw [atIndex?_eq] at found
    split at found
    · exact ⟨(index - 1).toNat, by omega, found⟩
    · cases found
  · rintro ⟨position, rfl, here⟩
    rw [atIndex?_eq, if_pos (by omega), show ((position : Int) + 1 - 1).toNat = position by omega]
    exact here

section Compose

variable (reservations : List Reservation) (tables : Tables (List Nat)) {role : Role}

/-- The ids of a list that were reserved under a name. -/
def namedIds (ids : List Nat) (name : String) : List Nat :=
  ids.filter fun id => reservations[id]?.bind Reservation.name = some name

/-- An index that is out of range or leads to the wrong kind of slot fails, and no other does. -/
theorem resolveIndex_compose (inside : ∀ id ∈ tables.get role.table, id < reservations.length)
    (index : Int) :
    (atIndex? (tables.get role.table) index = none ∧
      ((compose reservations tables).resolveIndex index : LoadResult (Ref role)) =
        .error (.of (.indexOutOfRange index role.table (tables.get role.table).length))) ∨
    ∃ id reservation, atIndex? (tables.get role.table) index = some id ∧
      reservations[id]? = some reservation ∧
      ((compose reservations tables).resolveIndex index : LoadResult (Ref role)) =
        if role.accepts reservation.kind then .ok ⟨id⟩
        else .error (.of (.wrongKind index role.table role reservation.kind)) := by
  have table : (compose reservations tables).table role.table = tables.get role.table := rfl
  cases found : atIndex? (tables.get role.table) index with
  | none =>
      refine .inl ⟨rfl, ?_⟩
      simp only [resolveIndex, table, found]
      rfl
  | some id =>
      have reserved := List.getElem?_eq_getElem (inside id (mem_of_atIndex? found))
      refine .inr ⟨id, _, rfl, reserved, ?_⟩
      simp only [resolveIndex, table, found, kind_of_reservation tables reserved,
        LoadResult.liftBounds_ok, ok_bind]
      rfl

/-- A composed draft knows a name by the positions at which it was reserved, if there are any. -/
theorem positions?_compose (table : Table) (name : String) :
    ((compose reservations tables).keys.get table).positions? name =
      if KeyIndex.namedPositions reservations 1 (tables.get table) name = [] then none
      else some (KeyIndex.namedPositions reservations 1 (tables.get table) name) := by
  rw [compose, Tables.get_ofFn, KeyIndex.positions?_ofTable]

/-- At the positions of a name a table lists the ids of that name. -/
theorem map_atIndex?_namedPositions (ids : List Nat) (name : String) :
    (KeyIndex.namedPositions reservations 1 ids name).map
        (fun position : Nat => atIndex? ids position) =
      (namedIds reservations ids name).map some := by
  rw [KeyIndex.namedPositions, namedIds, ← map_getElem?_positionsOf _ 1]
  apply List.map_congr_left
  intro position member
  exact atIndex?_natCast (start_le_of_mem_positionsOf _ 1 _ member)

/-- A name has as many positions as there are ids of that name. -/
theorem length_namedPositions (ids : List Nat) (name : String) :
    (KeyIndex.namedPositions reservations 1 ids name).length =
      (namedIds reservations ids name).length := by
  simpa using congrArg List.length (map_atIndex?_namedPositions reservations ids name)

/-- An ordinal picks the id that stands at the position found for it. -/
theorem atIndex?_namedPositions (ids : List Nat) (name : String) (ordinal : Nat) :
    (atIndex? (KeyIndex.namedPositions reservations 1 ids name) ordinal).map
        (fun position : Nat => atIndex? ids position) =
      (atIndex? (namedIds reservations ids name) ordinal).map some := by
  rw [← atIndex?_map, map_atIndex?_namedPositions, atIndex?_map]

omit reservations tables in
/-- A text that is no key is malformed. -/
theorem resolveKey_of_malformed {draft : Draft} {text : String}
    (malformed : Key.parse? text = none) :
    (draft.resolveKey text : LoadResult (Ref role)) = .error (.of (.malformedKey text)) := by
  simp [resolveKey, Key.parse, malformed]

omit reservations tables in
/-- A key is unknown if its table has no entry of that name. -/
theorem resolveKey_of_unknown {draft : Draft} {text : String} {key : Key}
    (parsed : Key.parse? text = some key)
    (unknown : (draft.keys.get role.table).positions? key.name = none) :
    (draft.resolveKey text : LoadResult (Ref role)) =
      .error (.of (.unknownKey text role.table)) := by
  simp only [resolveKey, Key.parse, parsed, ok_bind, unknown]
  rfl

omit reservations tables in
/-- A key leads to the position that its ordinal picks among those of its name, and from there on as
an index does. -/
theorem resolveKey_of_known {draft : Draft} {text : String} {key : Key} {positions : List Nat}
    (parsed : Key.parse? text = some key)
    (known : (draft.keys.get role.table).positions? key.name = some positions) :
    (draft.resolveKey text : LoadResult (Ref role)) =
      (atIndex? positions key.ordinal).elim
        (.error (.of (.indexOutOfRange (min key.ordinal Decimal.maxSigned) role.table
          positions.length)))
        fun position => draft.resolveIndex position := by
  simp only [resolveKey, Key.parse, parsed, ok_bind, known]
  cases atIndex? positions key.ordinal <;> rfl

/-- A key fails whose name no id of the table has, or whose ordinal is out of range. Any other key
leads to an id of its name, at the position where the table lists it. -/
theorem resolveKey_compose (inside : ∀ id ∈ tables.get role.table, id < reservations.length)
    {text : String} {key : Key} (parsed : Key.parse? text = some key) :
    (namedIds reservations (tables.get role.table) key.name = [] ∧
      ((compose reservations tables).resolveKey text : LoadResult (Ref role)) =
        .error (.of (.unknownKey text role.table))) ∨
    (namedIds reservations (tables.get role.table) key.name ≠ [] ∧
      atIndex? (namedIds reservations (tables.get role.table) key.name) key.ordinal = none ∧
      ((compose reservations tables).resolveKey text : LoadResult (Ref role)) =
        .error (.of (.indexOutOfRange (min key.ordinal Decimal.maxSigned) role.table
          (namedIds reservations (tables.get role.table) key.name).length))) ∨
    ∃ (id position : Nat) (reservation : Reservation),
      atIndex? (namedIds reservations (tables.get role.table) key.name) key.ordinal = some id ∧
      atIndex? (tables.get role.table) position = some id ∧ reservations[id]? = some reservation ∧
      ((compose reservations tables).resolveKey text : LoadResult (Ref role)) =
        if role.accepts reservation.kind then .ok ⟨id⟩
        else .error (.of (.wrongKind position role.table role reservation.kind)) := by
  have positions := positions?_compose reservations tables role.table key.name
  have length := length_namedPositions reservations (tables.get role.table) key.name
  have picks := atIndex?_namedPositions reservations (tables.get role.table) key.name key.ordinal
  by_cases unknown : namedIds reservations (tables.get role.table) key.name = []
  · rw [unknown, List.length_nil, List.length_eq_zero_iff] at length
    rw [if_pos length] at positions
    exact .inl ⟨unknown, resolveKey_of_unknown parsed positions⟩
  · have known :
        KeyIndex.namedPositions reservations 1 (tables.get role.table) key.name ≠ [] := by
      rwa [← List.length_pos_iff, length, List.length_pos_iff]
    rw [if_neg known] at positions
    rw [resolveKey_of_known parsed positions]
    cases found : atIndex?
        (KeyIndex.namedPositions reservations 1 (tables.get role.table) key.name) key.ordinal with
    | none =>
        rw [found, Option.map_none, eq_comm, Option.map_eq_none_iff] at picks
        exact .inr (.inl ⟨unknown, picks, by rw [Option.elim_none, length]⟩)
    | some position =>
        rw [found, Option.map_some, eq_comm, Option.map_eq_some_iff] at picks
        obtain ⟨id, picked, listed⟩ := picks
        rcases resolveIndex_compose reservations tables inside position with
          ⟨outside, -⟩ | ⟨same, reservation, listedToo, reserved, resolved⟩
        · cases listed.trans outside
        · cases listed.trans listedToo
          exact .inr (.inr ⟨id, position, reservation, picked, listed.symm, reserved, resolved⟩)

end Compose

/-! ## Entries of a document -/

section Entries

variable (entries : List Entry) {role : Role}

/-- The entry at a position of a table is the one with the id at that position. -/
theorem atIndex?_idsIn (table : Table) (index : Int) :
    (atIndex? (Entry.idsIn entries table) index).map (entries[·]?) =
      (atIndex? (Entry.listedIn entries table) index).map some := by
  rw [← atIndex?_map, Entry.map_getElem?_idsIn, atIndex?_map]

/-- A table lists ids of entries alone. -/
theorem lt_length_of_mem_idsIn {entries : List Entry} {table : Table} :
    ∀ id ∈ Entry.idsIn entries table, id < (Entry.reservations entries).length := by
  intro id member
  obtain ⟨kind, present, -⟩ := Entry.mem_idsIn_iff.mp member
  simpa [Entry.kinds, Entry.reservations] using (List.getElem?_eq_some_iff.mp present).choose

/-- Slots are reserved under the names of their entries. -/
theorem name_reservations (id : Nat) :
    (Entry.reservations entries)[id]?.bind Reservation.name = entries[id]?.bind Entry.name := by
  rw [Entry.getElem?_reservations]
  cases entries[id]? <;> rfl

/-- An index that is out of range or leads to the wrong kind of entry fails, and no other does. -/
theorem resolveIndex_cases (index : Int) :
    (atIndex? (Entry.listedIn entries role.table) index = none ∧
      ((ofEntries entries).resolveIndex index : LoadResult (Ref role)) =
        .error (.of (.indexOutOfRange index role.table
          (Entry.listedIn entries role.table).length))) ∨
    ∃ entry id, atIndex? (Entry.listedIn entries role.table) index = some entry ∧
      atIndex? (Entry.idsIn entries role.table) index = some id ∧ entries[id]? = some entry ∧
      ((ofEntries entries).resolveIndex index : LoadResult (Ref role)) =
        if role.accepts entry.kind then .ok ⟨id⟩
        else .error (.of (.wrongKind index role.table role entry.kind)) := by
  have same := atIndex?_idsIn entries role.table index
  have resolved := @resolveIndex_compose (Entry.reservations entries)
    (.ofFn (Entry.idsIn entries)) role
  simp only [Tables.get_ofFn] at resolved
  rcases resolved lt_length_of_mem_idsIn index with
    ⟨outside, failed⟩ | ⟨id, reservation, found, reserved, resolved⟩
  · rw [outside] at same
    refine .inl ⟨by simpa using same.symm, ?_⟩
    rw [← Entry.length_idsIn]
    exact failed
  · rw [found, Option.map_some, eq_comm, Option.map_eq_some_iff] at same
    obtain ⟨entry, listed, here⟩ := same
    rw [Entry.getElem?_reservations, ← here] at reserved
    cases reserved
    exact .inr ⟨entry, id, listed, found, here.symm, resolved⟩

/-- A name has the positions of its entries among those that the table lists. -/
theorem positions?_ofEntries (table : Table) (name : String) :
    let positions :=
      positionsOf (fun entry : Entry => entry.name = some name) 1 (Entry.listedIn entries table)
    ((ofEntries entries).keys.get table).positions? name =
      if positions = [] then none else some positions := by
  have found := congrArg (List.map fun entry : Option Entry => entry.bind Entry.name)
    (Entry.map_getElem?_idsIn entries table)
  have names : (Entry.idsIn entries table).map (fun id => entries[id]?.bind Entry.name) =
      (Entry.listedIn entries table).map Entry.name := by
    simpa [Function.comp_def] using found
  have same : KeyIndex.namedPositions (Entry.reservations entries) 1
      (Entry.idsIn entries table) name =
        positionsOf (fun entry : Entry => entry.name = some name) 1
          (Entry.listedIn entries table) := by
    simp only [KeyIndex.namedPositions, name_reservations]
    rw [← positionsOf_map (· = some name) 1 (fun id => entries[id]?.bind Entry.name), names,
      positionsOf_map]
  rw [← same, ofEntries, positions?_compose, Tables.get_ofFn]

/-- The ids of a name are those of the entries of that name. -/
theorem map_getElem?_namedIds (table : Table) (name : String) :
    (namedIds (Entry.reservations entries) (Entry.idsIn entries table) name).map (entries[·]?) =
      (Entry.namedIn entries table name).map some := by
  have found := congrArg (List.filter fun entry : Option Entry => entry.bind Entry.name = some name)
    (Entry.map_getElem?_idsIn entries table)
  rw [List.filter_map, List.filter_map] at found
  simpa only [namedIds, name_reservations, Entry.namedIn, Function.comp_def, Option.bind_some]
    using found

/-- A key fails that is malformed, whose name no entry of the table has, or whose ordinal is out of
range. Any other key leads to an entry of its name. -/
theorem resolveKey_cases (text : String) :
    (Key.parse? text = none ∧
      ((ofEntries entries).resolveKey text : LoadResult (Ref role)) =
        .error (.of (.malformedKey text))) ∨
    ∃ key, Key.parse? text = some key ∧
      ((Entry.namedIn entries role.table key.name = [] ∧
          ((ofEntries entries).resolveKey text : LoadResult (Ref role)) =
            .error (.of (.unknownKey text role.table))) ∨
        (atIndex? (Entry.namedIn entries role.table key.name) key.ordinal = none ∧
          ((ofEntries entries).resolveKey text : LoadResult (Ref role)) =
            .error (.of (.indexOutOfRange (min key.ordinal Decimal.maxSigned) role.table
              (Entry.namedIn entries role.table key.name).length))) ∨
        ∃ (entry : Entry) (id position : Nat),
          atIndex? (Entry.namedIn entries role.table key.name) key.ordinal = some entry ∧
          entries[id]? = some entry ∧
          ((ofEntries entries).resolveKey text : LoadResult (Ref role)) =
            if role.accepts entry.kind then .ok ⟨id⟩
            else .error (.of (.wrongKind position role.table role entry.kind))) := by
  cases parsed : Key.parse? text with
  | none => exact .inl ⟨rfl, resolveKey_of_malformed parsed⟩
  | some key =>
      refine .inr ⟨key, rfl, ?_⟩
      have named := map_getElem?_namedIds entries role.table key.name
      have picks := congrArg (atIndex? · key.ordinal) named
      simp only [atIndex?_map] at picks
      have length := congrArg List.length named
      rw [List.length_map, List.length_map] at length
      have resolved := @resolveKey_compose (Entry.reservations entries)
        (.ofFn (Entry.idsIn entries)) role
      simp only [Tables.get_ofFn] at resolved
      rcases resolved lt_length_of_mem_idsIn parsed with
        ⟨none, failed⟩ | ⟨-, outside, failed⟩ |
          ⟨id, position, reservation, picked, -, reserved, resolved⟩
      · rw [none, List.length_nil, eq_comm, List.length_eq_zero_iff] at length
        exact .inl ⟨length, failed⟩
      · rw [outside, Option.map_none, eq_comm, Option.map_eq_none_iff] at picks
        exact .inr (.inl ⟨picks, length ▸ failed⟩)
      · rw [picked, Option.map_some, eq_comm, Option.map_eq_some_iff] at picks
        obtain ⟨entry, picked, here⟩ := picks
        rw [Entry.getElem?_reservations, ← here] at reserved
        cases reserved
        exact .inr (.inr ⟨entry, id, position, picked, here.symm, resolved⟩)

end Entries

end Draft

/-! ## Indices of a project -/

namespace Project

/-- A loaded project checks the range of an index in another way than a draft does, and comes to the
same. -/
theorem lookup_eq_bind (project : Project) (role : Role) (index : Int) :
    project.lookup role index =
      (Draft.atIndex? (project.table role.table) index).bind fun id =>
        (project.construct? id).bind fun construct =>
          if role.accepts construct.kind then some ⟨id⟩ else none := by
  rw [Draft.atIndex?_eq]
  cases index with
  | negSucc below => rfl
  | ofNat position =>
      cases position with
      | zero => rfl
      | succ position =>
          have offset : (Int.ofNat (position + 1) - 1).toNat = position := by simp
          have positive : 1 ≤ Int.ofNat (position + 1) := by
            rw [Int.ofNat_eq_natCast]
            omega
          rw [if_pos positive, offset]
          rfl

/-- An index leads to the accepted construct at its position of the table, and to nothing else. -/
theorem lookup_eq_some_iff {project : Project} {role : Role} {index : Int} {ref : Ref role} :
    project.lookup role index = some ref ↔
      ∃ (position : Nat) (construct : Construct), index = position + 1 ∧
        (project.table role.table)[position]? = some ref.id ∧
        project.construct? ref.id = some construct ∧ role.accepts construct.kind = true := by
  simp only [lookup_eq_bind, Option.bind_eq_some_iff, Draft.atIndex?_eq_some_iff]
  constructor
  · intro leads
    obtain ⟨id, ⟨position, counted, listed⟩, construct, here, accepted⟩ := leads
    split at accepted
    · cases accepted
      exact ⟨position, construct, counted, listed, here, ‹_›⟩
    · cases accepted
  · intro leads
    obtain ⟨position, construct, counted, listed, here, accepted⟩ := leads
    exact ⟨ref.id, ⟨position, counted, listed⟩, construct, here, if_pos accepted⟩

end Project

end CodeGraph

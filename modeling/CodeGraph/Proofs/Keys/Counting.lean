import CodeGraph.Proofs.Keys.Spelling
import CodeGraph.Proofs.Loading.Lookup
import CodeGraph.Proofs.Loading.Ownership
import CodeGraph.Proofs.Loading.Slots

/-! # Keys count occurrences

A key leads to the construct that its ordinal picks among those of its name, in the order of the
table (`CodeGraph.Draft.KeyCounts`). Names are taken when slots are reserved and not looked at
again. In a loaded project they are the names that the constructs have in the end
(`CodeGraph.Project.compose_of_load`), so a method is found under its name by the number of
methods of that name up to it, and by no other (`CodeGraph.Project.keys_count_occurrences`).
-/

namespace CodeGraph

/-- In a list without repetitions the kept items before one that is kept tell where it is found. -/
theorem getElem?_filter_eq_some_iff {α : Type} [DecidableEq α] {items : List α} {kept : α → Bool}
    (distinct : items.Nodup) {item : α} (member : item ∈ items) (keeps : kept item = true)
    (position : Nat) :
    (items.filter kept)[position]? = some item ↔
      position = (items.takeWhile (· ≠ item)).countP kept := by
  obtain ⟨before, after, rfl, fresh⟩ := List.eq_append_cons_of_mem member
  have others : ∀ other ∈ before, decide (other ≠ item) = true := by
    intro other among
    refine decide_eq_true ?_
    rintro rfl
    exact fresh among
  have upTo : (before ++ item :: after).takeWhile (· ≠ item) = before := by
    rw [List.takeWhile_append_of_pos others, List.takeWhile_cons_of_neg (by simp), List.append_nil]
  have here : ((before ++ item :: after).filter kept)[before.countP kept]? = some item := by
    rw [List.filter_append, List.filter_cons_of_pos keeps, List.countP_eq_length_filter]
    simp
  rw [upTo]
  constructor
  · intro found
    have inside := (List.getElem?_eq_some_iff.mp found).choose
    exact (List.getElem?_inj inside (distinct.filter kept)).mp (found.trans here.symm)
  · rintro rfl
    exact here

namespace Draft

/-- A key picks an id for a role: among the ids that were reserved under its name it is the one that
its ordinal says, and the role accepts what is reserved there. -/
def Picks (reservations : List Reservation) (ids : List Nat) (role : Role) (key : Key)
    (id : Nat) : Prop :=
  atIndex? (namedIds reservations ids key.name) key.ordinal = some id ∧
    ∃ reservation, reservations[id]? = some reservation ∧ role.accepts reservation.kind = true

/-- What a key comes to that picks no id: there is none of its name, or none at its ordinal, or one
of the wrong kind, which is listed at the position that the complaint says. -/
structure Misses (reservations : List Reservation) (ids : List Nat) (role : Role) (text : String)
    (key : Key) (outcome : LoadResult (Ref role)) : Prop where
  unknown : namedIds reservations ids key.name = [] →
    outcome = .error (.of (.unknownKey text role.table))
  outOfRange : namedIds reservations ids key.name ≠ [] →
    (key.ordinal = 0 ∨ (namedIds reservations ids key.name).length < key.ordinal) →
    outcome = .error (.of (.indexOutOfRange (min key.ordinal Decimal.maxSigned) role.table
      (namedIds reservations ids key.name).length))
  wrongKind : ∀ id reservation,
    atIndex? (namedIds reservations ids key.name) key.ordinal = some id →
    reservations[id]? = some reservation → role.accepts reservation.kind = false →
    ∃ position : Nat, atIndex? ids position = some id ∧
      outcome = .error (.of (.wrongKind position role.table role reservation.kind))

/-- What a text comes to as a key for a role whose table lists `ids`. If it is read as a key it
leads to the id that the key picks, and fails for what the key misses; otherwise it is malformed. -/
structure KeyCounts (reservations : List Reservation) (ids : List Nat) (role : Role)
    (text : String) (outcome : LoadResult (Ref role)) : Prop where
  found : ∀ ref, outcome = .ok ref ↔
    ∃ key, Key.parse text = .ok key ∧ Picks reservations ids role key ref.id
  malformed : (∀ key, Key.parse text ≠ .ok key) → outcome = .error (.of (.malformedKey text))
  missed : ∀ key, Key.parse text = .ok key → Misses reservations ids role text key outcome

section Compose

variable (reservations : List Reservation) (tables : Tables (List Nat)) {role : Role}

/-- A key that is read leads to the id it picks. -/
theorem resolveKey_eq_ok_iff_picks
    (inside : ∀ id ∈ tables.get role.table, id < reservations.length) {text : String} {key : Key}
    (parsed : Key.parse? text = some key) (ref : Ref role) :
    (compose reservations tables).resolveKey text = .ok ref ↔
      Picks reservations (tables.get role.table) role key ref.id := by
  rcases resolveKey_compose reservations tables inside parsed with
    ⟨unknown, failed⟩ | ⟨-, beyond, failed⟩ |
      ⟨id, position, reservation, picked, -, reserved, resolved⟩
  · rw [failed]
    refine ⟨nofun, ?_⟩
    rintro ⟨picked, -⟩
    exact absurd (unknown ▸ mem_of_atIndex? picked) List.not_mem_nil
  · rw [failed]
    refine ⟨nofun, ?_⟩
    rintro ⟨picked, -⟩
    cases beyond.symm.trans picked
  · rw [resolved]
    constructor
    · split
      · rintro ⟨⟩
        exact ⟨picked, reservation, reserved, ‹_›⟩
      · nofun
    · rintro ⟨pickedToo, other, reservedToo, accepted⟩
      cases picked.symm.trans pickedToo
      cases reserved.symm.trans reservedToo
      exact if_pos accepted

/-- A key that picks nothing misses for the reason that holds. -/
theorem resolveKey_misses (inside : ∀ id ∈ tables.get role.table, id < reservations.length)
    {text : String} {key : Key} (parsed : Key.parse? text = some key) :
    Misses reservations (tables.get role.table) role text key
      ((compose reservations tables).resolveKey text) := by
  rcases resolveKey_compose reservations tables inside parsed with
    ⟨unknown, failed⟩ | ⟨known, beyond, failed⟩ |
      ⟨id, position, reservation, picked, listed, reserved, resolved⟩
  · rw [failed]
    refine ⟨fun _ => rfl, absurd unknown, fun id _ picked => ?_⟩
    exact absurd (unknown ▸ mem_of_atIndex? picked) List.not_mem_nil
  · rw [failed]
    refine ⟨fun unknown => absurd unknown known, fun _ _ => rfl, fun id _ picked => ?_⟩
    cases beyond.symm.trans picked
  · rw [resolved]
    refine ⟨fun unknown => ?_, fun _ outside => ?_, ?_⟩
    · exact absurd (unknown ▸ mem_of_atIndex? picked) List.not_mem_nil
    · have beyond : atIndex? (namedIds reservations (tables.get role.table) key.name)
          key.ordinal = none := by
        rw [atIndex?_eq_none_iff]
        omega
      cases beyond.symm.trans picked
    · intro other found pickedToo reservedToo refused
      cases picked.symm.trans pickedToo
      cases reserved.symm.trans reservedToo
      exact ⟨position, listed, if_neg (by simp [refused])⟩

/-- Keys count, whatever slots have been filled. -/
theorem resolveKey_counts (fills : List (Nat × Construct))
    (inside : ∀ id ∈ tables.get role.table, id < reservations.length) (text : String) :
    KeyCounts reservations (tables.get role.table) role text
      (((compose reservations tables).afterFills fills).resolveKey text) := by
  have shape := ((compose reservations tables).afterFills_advances fills).shape
  rw [shape.resolveKey]
  cases parsed : Key.parse? text with
  | none =>
      have unread : ∀ key, Key.parse text ≠ .ok key := fun key read => by
        cases parsed.symm.trans (Key.parse_eq_ok_iff.mp read)
      rw [resolveKey_of_malformed parsed]
      exact ⟨fun ref => ⟨nofun, fun ⟨key, read, _⟩ => absurd read (unread key)⟩, fun _ => rfl,
        fun key read => absurd read (unread key)⟩
  | some key =>
      have read := Key.parse_eq_ok_iff.mpr parsed
      refine ⟨fun ref => ?_, fun unread => absurd read (unread key), fun other again => ?_⟩
      · rw [resolveKey_eq_ok_iff_picks reservations tables inside parsed, read]
        simp
      · cases read.symm.trans again
        exact resolveKey_misses reservations tables inside parsed

end Compose

/-- What a key picks is reserved under the name of the key. -/
theorem name_of_picks {reservations : List Reservation} {ids : List Nat} {role : Role} {key : Key}
    {id : Nat} (picks : Picks reservations ids role key id) :
    reservations[id]?.bind Reservation.name = some key.name := by
  have named := mem_of_atIndex? picks.1
  simpa [namedIds] using (List.mem_filter.mp named).2

end Draft

/-! ## Names -/

namespace Construct

variable {draft : Draft} {kind : Kind} {node : Node} {construct : Construct}

/-- What a construct would be reserved as. -/
def reservation (construct : Construct) : Reservation := ⟨construct.kind, construct.name?⟩

/-- The constructs of keyed kinds have names, and no others. -/
theorem name?_isSome (construct : Construct) : construct.name?.isSome = construct.kind.isKeyed := by
  cases construct <;> rfl

/-- Instances do not change what a construct is reserved as. -/
theorem reservation_withInstances (ids : List Nat) (construct : Construct) :
    (construct.withInstances ids).reservation = construct.reservation := by
  cases construct <;> rfl

/-- What is not keyed has no name to be found by. -/
theorem identityName_of_not_keyed (unkeyed : kind.isKeyed = false) :
    identityName kind node = .ok none := by
  simp only [identityName, unkeyed]
  rfl

/-- What is keyed is named by its field for the name. -/
theorem identityName_of_readString (keyed : kind.isKeyed = true) (other : kind ≠ .basic)
    {name : String} (named : (liftM (node.readString "name") : LoadResult String) = .ok name) :
    identityName kind node = .ok (some name) := by
  unfold identityName
  rw [if_neg (by simp [keyed])]
  split
  · exact absurd rfl other
  · rw [named, ok_bind]
    rfl

/-- What is keyed has a name. -/
theorem isSome_of_identityName (keyed : kind.isKeyed = true) {name : Option String}
    (read : identityName kind node = .ok name) : name.isSome = true := by
  unfold identityName at read
  rw [if_neg (by simp [keyed])] at read
  split at read
  · cases read
    rfl
  · simp only [bind_eq_ok_iff, pure_eq_ok_iff] at read
    obtain ⟨text, -, rfl⟩ := read
    rfl

/-- The head of a declaration has the name of its node. -/
theorem name_of_header {owner : PackageRef} {header : DeclHeader}
    (read : DeclHeader.ofNode draft owner node = .ok header) :
    (liftM (node.readString "name") : LoadResult String) = .ok header.name := by
  simp only [DeclHeader.ofNode, bind_eq_ok_iff, pure_eq_ok_iff] at read
  obtain ⟨name, named, typeParams, -, rfl⟩ := read
  exact named

/-- A type at the top level keeps the name that it was reserved under. -/
theorem name?_of_ofTypeNode (keyed : kind.isKeyed = true)
    (read : ofTypeNode draft kind node = .ok construct) :
    identityName kind node = .ok construct.name? := by
  cases kind <;> simp only [ofTypeNode, bind_eq_ok_iff, pure_eq_ok_iff, throw_ne_ok] at read
  case basic =>
    obtain ⟨name, named, rfl⟩ := read
    obtain ⟨text, rfl⟩ := Option.isSome_iff_exists.mp (isSome_of_identityName keyed named)
    exact named
  case named =>
    obtain ⟨name, named, type, -, rfl⟩ := read
    exact identityName_of_readString keyed (by decide) named
  all_goals cases keyed

/-- A member of a package keeps the name that it was reserved under. -/
theorem name?_of_ofMemberNode {owner : PackageRef} (keyed : kind.isKeyed = true)
    (read : ofMemberNode draft kind owner node = .ok construct) :
    identityName kind node = .ok construct.name? := by
  cases kind <;> simp only [ofMemberNode, bind_eq_ok_iff, pure_eq_ok_iff, throw_ne_ok] at read
  case interfaceDecl =>
    obtain ⟨header, headed, interface, -, rfl⟩ := read
    exact identityName_of_readString keyed (by decide) (name_of_header headed)
  case objectDecl =>
    obtain ⟨header, headed, data, -, methods, -, rfl⟩ := read
    exact identityName_of_readString keyed (by decide) (name_of_header headed)
  case methodDecl =>
    obtain ⟨header, headed, signature, -, receiver, -, rfl⟩ := read
    exact identityName_of_readString keyed (by decide) (name_of_header headed)
  case value =>
    obtain ⟨name, named, type, -, rfl⟩ := read
    exact identityName_of_readString keyed (by decide) named
  all_goals cases keyed

/-- A package keeps the name that it was reserved under. -/
theorem name?_of_ofPackageNode {members : Members} (keyed : kind.isKeyed = true)
    (read : ofPackageNode draft kind members node = .ok construct) :
    identityName kind node = .ok construct.name? := by
  cases kind <;> simp only [ofPackageNode, bind_eq_ok_iff, pure_eq_ok_iff, throw_ne_ok] at read
  obtain ⟨name, named, imports, -, rfl⟩ := read
  exact identityName_of_readString keyed (by decide) named

/-- The name under which an entry is reserved is the name of the construct that it spells. -/
theorem name?_of_ofNode {placement : Placement}
    (read : ofNode draft kind placement node = .ok construct) :
    identityName kind node = .ok construct.name? := by
  cases keyed : kind.isKeyed with
  | false =>
      have nameless : construct.name? = none := by
        rw [← Option.not_isSome_iff_eq_none, construct.name?_isSome, kind_of_ofNode read, keyed]
        decide
      rw [identityName_of_not_keyed keyed, nameless]
  | true =>
      cases placement with
      | topLevel => exact name?_of_ofTypeNode keyed read
      | member owner => exact name?_of_ofMemberNode keyed read
      | package members => exact name?_of_ofPackageNode keyed read

end Construct

namespace Project

/-- How many constructs of a name a table lists before an id. -/
def countBefore (project : Project) (table : Table) (name : String) (id : Nat) : Nat :=
  ((project.table table).takeWhile (· ≠ id)).countP fun other =>
    (project.construct? other).bind Construct.name? = some name

variable {document : Node} {project : Project}

/-- What was reserved for a loaded project is what its constructs would be reserved as. -/
theorem compose_of_load (loaded : load document = .ok project) :
    ∃ allocation, Allocation.ofDocument document = .ok allocation ∧
      allocation.compose =
        .compose (project.constructs.map Construct.reservation) project.tables := by
  obtain ⟨entries, constructs, -, reserved, read, rfl⟩ := load_eq_ok_iff.mp loaded
  have names := (Entry.reservedFor_of_ofDocument reserved).2.2.2.names
  have spelled : constructs.map Construct.reservation = Entry.reservations entries := by
    apply map_eq_of_mapM read
    intro entry member construct spelled
    have spelled := LoadResult.within_eq_ok_iff.mp spelled
    have name : construct.name? = entry.name :=
      Except.ok.inj ((Construct.name?_of_ofNode spelled).symm.trans (names entry member))
    rw [Construct.reservation, Construct.kind_of_ofNode spelled, name, Entry.reservation]
  have linked : (ofConstructs document entries constructs).constructs.map Construct.reservation =
      constructs.map Construct.reservation := by
    have bare := congrArg (List.map Construct.reservation)
      (@map_withInstances_ofConstructs document entries constructs read)
    simpa only [List.map_map, Function.comp_def, Construct.reservation_withInstances] using bare
  refine ⟨_, Allocation.ofDocument_eq_ok_iff.mpr ⟨entries, reserved, rfl⟩, ?_⟩
  rw [linked, spelled]
  rfl

/-- In a loaded project the ids reserved under a name are those of the constructs that have it. -/
theorem namedIds_reservations (ids : List Nat) (name : String) :
    Draft.namedIds (project.constructs.map Construct.reservation) ids name =
      ids.filter fun id => (project.construct? id).bind Construct.name? = some name := by
  unfold Draft.namedIds
  congr 1
  funext id
  rw [List.getElem?_map, construct?]
  cases project.constructs[id]? <;> rfl

/-- A construct has the number of those of its name before it as its position among them. -/
theorem countBefore_eq_iff {table : Table} {name : String} {id : Nat}
    (distinct : (project.table table).Nodup) (listed : id ∈ project.table table)
    (named : (project.construct? id).bind Construct.name? = some name) {position : Nat} :
    ((project.table table).filter fun other =>
        (project.construct? other).bind Construct.name? = some name)[position]? = some id ↔
      position = project.countBefore table name id :=
  getElem?_filter_eq_some_iff distinct listed (decide_eq_true named) position

/-- A method is found under its name by the number of methods of that name up to it. -/
theorem picks_method_iff (distinct : (project.table .methods).Nodup) {id : Nat} {decl : MethodDecl}
    (here : project.construct? id = some (.methodDecl decl))
    (listed : id ∈ project.table .methods) (key : Key) :
    Draft.Picks (project.constructs.map Construct.reservation) (project.table .methods)
        (.only .methodDecl) key id ↔
      key = ⟨decl.header.name, project.countBefore .methods decl.header.name id + 1⟩ := by
  have reserved : (project.constructs.map Construct.reservation)[id]? =
      some ⟨.methodDecl, some decl.header.name⟩ := by
    rw [List.getElem?_map]
    exact congrArg (Option.map Construct.reservation) here
  have named : (project.construct? id).bind Construct.name? = some decl.header.name := by
    rw [here]
    rfl
  constructor
  · intro picks
    obtain ⟨name, ordinal⟩ := key
    have same := Draft.name_of_picks picks
    rw [reserved] at same
    cases same
    rw [Draft.Picks, namedIds_reservations, Draft.atIndex?_eq_some_iff] at picks
    obtain ⟨⟨position, spelled, found⟩, -⟩ := picks
    have counts : ordinal = position + 1 := Int.ofNat_inj.mp spelled
    rw [counts, (countBefore_eq_iff distinct listed named).mp found]
  · rintro rfl
    refine ⟨?_, _, reserved, rfl⟩
    rw [namedIds_reservations, Draft.atIndex?_eq_some_iff]
    exact ⟨_, rfl, (countBefore_eq_iff distinct listed named).mpr rfl⟩

/-- A method of a loaded project is found under its name by one number, however it is written. -/
theorem resolveKey_method_iff (loaded : load document = .ok project) {id : Nat} {decl : MethodDecl}
    (here : project.construct? id = some (.methodDecl decl)) (named : decl.header.name ≠ "")
    (digits : String) :
    (Draft.compose (project.constructs.map Construct.reservation) project.tables).resolveKey
        (decl.header.name ++ "#" ++ digits) = .ok (⟨id⟩ : MethodDeclRef) ↔
      Decimal.upTo? Decimal.maxUnsigned digits.toList =
        some (project.countBefore .methods decl.header.name id + 1) := by
  obtain ⟨ascending, listed⟩ := tables_of_load loaded .methods
  have listedHere : id ∈ project.table .methods :=
    (listed id).mpr ⟨_, kinds_eq_some_iff.mpr ⟨_, here, rfl⟩, rfl⟩
  have inside : ∀ other ∈ project.tables.get (Role.only .methodDecl).table,
      other < (project.constructs.map Construct.reservation).length := by
    intro other member
    obtain ⟨kind, present, -⟩ := (listed other).mp member
    simpa [kinds] using (List.getElem?_eq_some_iff.mp present).choose
  have counts := Draft.resolveKey_counts (project.constructs.map Construct.reservation)
    project.tables [] inside (decl.header.name ++ "#" ++ digits)
  refine (counts.found _).trans ?_
  have picks := picks_method_iff ascending.nodup here listedHere
  constructor
  · rintro ⟨key, read, picked⟩
    cases (picks key).mp picked
    exact (Key.parse_joined_iff named).mp read
  · intro numeral
    exact ⟨_, (Key.parse_joined_iff named).mpr numeral, (picks _).mpr rfl⟩

/-- **Keys count occurrences.** Over slots that were reserved in any way and filled as far as one
likes, a key that is read leads to the id that its ordinal picks among those of its name in the
role's table, if the role accepts what is reserved there. Every other key fails, for being
malformed or for what it misses. In a loaded project the names that count are those that its
constructs have. So a method that has a name is found under it by the number of methods of that
name up to it, however the number is written within 64 bits, and by no other number. -/
theorem keys_count_occurrences :
    (∀ (reservations : List Reservation) (tables : Tables (List Nat))
      (fills : List (Nat × Construct)) (role : Role) (text : String),
      (∀ id ∈ tables.get role.table, id < reservations.length) →
      Draft.KeyCounts reservations (tables.get role.table) role text
        (((Draft.compose reservations tables).afterFills fills).resolveKey text)) ∧
    (∀ construct : Construct, construct.name?.isSome = construct.kind.isKeyed) ∧
    ∀ document project, load document = .ok project →
      ∃ allocation, Allocation.ofDocument document = .ok allocation ∧
        allocation.compose =
          .compose (project.constructs.map Construct.reservation) project.tables ∧
        ∀ id decl, project.construct? id = some (.methodDecl decl) → decl.header.name ≠ "" →
          let position := project.countBefore .methods decl.header.name id + 1
          (∀ digits, allocation.compose.resolveKey (decl.header.name ++ "#" ++ digits) =
              .ok (⟨id⟩ : MethodDeclRef) ↔
            Decimal.upTo? Decimal.maxUnsigned digits.toList = some position) ∧
          (position ≤ Decimal.maxUnsigned →
            allocation.compose.resolveKey
              (decl.header.name ++ "#" ++ toString position) = .ok (⟨id⟩ : MethodDeclRef)) := by
  refine ⟨fun reservations tables fills role text inside =>
    Draft.resolveKey_counts reservations tables fills inside text, Construct.name?_isSome, ?_⟩
  intro document project loaded
  obtain ⟨allocation, allocated, composed⟩ := compose_of_load loaded
  refine ⟨allocation, allocated, composed, ?_⟩
  intro id decl here named
  have found := resolveKey_method_iff loaded here named
  rw [← composed] at found
  exact ⟨found, fun fits => (found _).mpr (Decimal.upTo?_toString fits)⟩

end Project

namespace Sample

/-- A package with a name and a method whose own name ends in a digit. -/
def hashing (name : String) : Node :=
  .object [("name", .string name), ("methodDecls", .array [.object [("name", .string "md5"),
    ("signature", .number (.integer 1))]])]

/-- Two packages with methods of one name. -/
def hashes : Node :=
  .object [("signatures", .array [.object []]), ("packages", .array [hashing "old", hashing "new"])]

/-- The project that the document spells. -/
def hashesProject : Project where
  language := ""
  constructs := [
    .signature ⟨[], [], [], false⟩,
    .package ⟨"old", "", [], { Members.empty with methodDecls := [⟨2⟩] }⟩,
    .methodDecl ⟨⟨"md5", "", ⟨1⟩, []⟩, ⟨0⟩, none, []⟩,
    .package ⟨"new", "", [], { Members.empty with methodDecls := [⟨4⟩] }⟩,
    .methodDecl ⟨⟨"md5", "", ⟨3⟩, []⟩, ⟨0⟩, none, []⟩]
  tables := ⟨[0], [1, 3], [2, 4], [], []⟩

theorem load_hashes : Project.load hashes = .ok hashesProject := rfl

end Sample

namespace Project

/-- The second of two methods of one name is found under the number two, and only where a sign
parts it from the name. -/
theorem keys_count_occurrences_sample :
    load Sample.hashes = .ok Sample.hashesProject ∧
      ∃ allocation, Allocation.ofDocument Sample.hashes = .ok allocation ∧
        allocation.compose.resolveKey ("md5" ++ "#" ++ "02") =
          .ok (⟨4⟩ : MethodDeclRef) ∧
        allocation.compose.resolveKey ("md5" ++ "#" ++ "1") ≠
          .ok (⟨4⟩ : MethodDeclRef) ∧
        (allocation.compose.resolveKey "md52" : LoadResult MethodDeclRef) =
          .error (.of (.unknownKey "md52" .methods)) := by
  obtain ⟨counts, -, named⟩ := keys_count_occurrences
  obtain ⟨entries, reserved, composed, method⟩ := named _ _ Sample.load_hashes
  obtain ⟨found, -⟩ := method 4 _ rfl (by decide)
  refine ⟨Sample.load_hashes, entries, reserved, (found "02").mpr (by decide), ?_, ?_⟩
  · intro same
    exact absurd ((found "1").mp same) (by decide)
  · have read : Key.parse "md52" = .ok ⟨"md", 52⟩ := Key.parse_eq_ok_iff.mpr (by decide)
    have outcome := counts (Sample.hashesProject.constructs.map Construct.reservation)
      Sample.hashesProject.tables [] (.only .methodDecl) "md52" (by decide)
    rw [composed]
    exact (outcome.missed _ read).unknown (by decide)

end Project

end CodeGraph

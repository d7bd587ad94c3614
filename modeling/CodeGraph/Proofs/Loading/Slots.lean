import CodeGraph.Proofs.Loading.TwoPasses

/-! # Slots are filled once

A draft is composed over reserved slots, and from then on it changes only where a slot is filled.
Whatever is tried, in whatever order, a slot takes the first construct of its kind and keeps it, and
nothing else of the draft changes; so references resolve throughout as they did at first
(`CodeGraph.Draft.fill_protocol`).
-/

namespace CodeGraph.Draft

variable {draft : Draft}

/-- What an attempt to fill a slot comes to: the slot takes a construct of its own kind if it is
still reserved, and refuses any other. -/
theorem fill_cases (draft : Draft) (id : Nat) (construct : Construct) :
    (∃ reservation, draft.slots[id]? = some (.reserved reservation) ∧
      reservation.kind = construct.kind ∧
      (fill id construct).runOn draft =
        (.ok (), { draft with slots := draft.slots.set id (.filled construct) })) ∨
    (¬ (∃ reservation, draft.slots[id]? = some (.reserved reservation) ∧
        reservation.kind = construct.kind) ∧
      ∃ error, (fill id construct).runOn draft = (.error error, draft)) := by
  cases here : draft.slots[id]? with
  | none => exact .inr ⟨by simp, _, fill_outside here⟩
  | some slot =>
      cases slot with
      | filled present => exact .inr ⟨by simp, _, fill_filled here⟩
      | reserved reservation =>
          by_cases same : reservation.kind = construct.kind
          · exact .inl ⟨reservation, rfl, same, fill_reserved here same⟩
          · exact .inr ⟨by simpa using same, _, fill_misplaced here same⟩

/-- The draft that an attempt to fill a slot leaves, whether it succeeds or fails. -/
def afterFill (draft : Draft) (id : Nat) (construct : Construct) : Draft :=
  ((fill id construct).runOn draft).2

/-- The draft that attempts to fill slots leave, one after the other. -/
def afterFills (draft : Draft) (fills : List (Nat × Construct)) : Draft :=
  fills.foldl (fun draft (id, construct) => draft.afterFill id construct) draft

/-- An attempt changes nothing but a reserved slot, which takes a construct of its kind. -/
theorem afterFill_cases (draft : Draft) (id : Nat) (construct : Construct) :
    draft.afterFill id construct = draft ∨
      ∃ reservation, draft.slots[id]? = some (.reserved reservation) ∧
        reservation.kind = construct.kind ∧
        draft.afterFill id construct =
          { draft with slots := draft.slots.set id (.filled construct) } := by
  rcases fill_cases draft id construct with
    ⟨reservation, here, same, filled⟩ | ⟨-, error, refused⟩
  · exact .inr ⟨reservation, here, same, by rw [afterFill, filled]⟩
  · exact .inl (by rw [afterFill, refused])

/-- What attempts to fill slots keep of a draft: its shape, and every slot that was filled. -/
structure Advances (earlier later : Draft) : Prop where
  shape : later.SameShape earlier
  keeps : ∀ (id : Nat) (construct : Construct), earlier.slots[id]? = some (.filled construct) →
    later.slots[id]? = some (.filled construct)

theorem Advances.refl (draft : Draft) : Advances draft draft :=
  ⟨⟨rfl, rfl, rfl⟩, fun _ _ here => here⟩

/-- What two stretches of attempts keep, both of them together keep. -/
theorem Advances.trans {first second third : Draft} (before : Advances first second)
    (after : Advances second third) : Advances first third where
  shape := ⟨after.shape.tables.trans before.shape.tables,
    after.shape.keys.trans before.shape.keys, after.shape.kinds.trans before.shape.kinds⟩
  keeps id construct here := after.keeps id construct (before.keeps id construct here)

/-- One attempt keeps the shape of a draft and every slot that was filled. -/
theorem afterFill_advances (draft : Draft) (id : Nat) (construct : Construct) :
    Advances draft (draft.afterFill id construct) := by
  rcases afterFill_cases draft id construct with
    unchanged | ⟨reservation, here, same, filled⟩
  · rw [unchanged]
    exact .refl draft
  · rw [filled]
    refine ⟨⟨rfl, rfl, ?_⟩, ?_⟩
    · have already : (draft.slots.map Slot.kind)[id]? = some construct.kind := by
        rw [List.getElem?_map, here, Option.map_some, ← same]
        rfl
      obtain ⟨_, same⟩ := List.getElem?_eq_some_iff.mp already
      rw [List.map_set, Slot.kind, ← same]
      exact List.set_getElem_self _
    · intro other present there
      have different : id ≠ other := by
        rintro rfl
        cases here.symm.trans there
      rw [List.getElem?_set_ne different]
      exact there

/-- Attempts in a row keep the shape of a draft and every slot that was filled. -/
theorem afterFills_advances (draft : Draft) (fills : List (Nat × Construct)) :
    Advances draft (draft.afterFills fills) := by
  induction fills generalizing draft with
  | nil => exact .refl draft
  | cons first rest ih => exact (draft.afterFill_advances first.1 first.2).trans (ih _)

/-- Attempts in two stretches are made one stretch after the other. -/
theorem afterFills_append (draft : Draft) (before after : List (Nat × Construct)) :
    draft.afterFills (before ++ after) = (draft.afterFills before).afterFills after :=
  List.foldl_append

/-! ## Reading slots -/

/-- A filled slot can be read. -/
theorem construct_filled {id : Nat} {construct : Construct}
    (here : draft.slots[id]? = some (.filled construct)) :
    draft.construct id = .ok construct := by
  simp only [Draft.construct, entryAt_eq_ok_iff.mpr here]
  rfl

/-- A slot that is only reserved cannot be read yet, and the complaint names its kind. -/
theorem construct_reserved {id : Nat} {reservation : Reservation}
    (here : draft.slots[id]? = some (.reserved reservation)) :
    draft.construct id = .error (.of (.readTooEarly id reservation.kind)) := by
  simp only [Draft.construct, entryAt_eq_ok_iff.mpr here]
  rfl

/-- Behind a reference that fits stands a slot of its kind. Its data can be had once the slot is
filled, and not before. -/
theorem data_of_fits {kind : Kind} {ref : Ref (.only kind)} (fits : ref.any.Fits draft.kinds) :
    (∃ name, draft.slots[ref.id]? = some (.reserved ⟨kind, name⟩) ∧
      draft.data ref = .error (.of (.readTooEarly ref.id kind))) ∨
    ∃ data, draft.slots[ref.id]? = some (.filled (.ofData kind data)) ∧
      draft.data ref = .ok data := by
  obtain ⟨actual, present, accepts⟩ := fits
  have same : actual = kind := by simpa [Ref.any, Role.accepts] using accepts
  rw [same, kinds, List.getElem?_map, Option.map_eq_some_iff] at present
  obtain ⟨slot, here, sort⟩ := present
  change draft.slots[ref.id]? = some slot at here
  cases slot with
  | reserved reservation =>
      cases sort
      refine .inl ⟨reservation.name, here, ?_⟩
      rw [Draft.data, construct_reserved here]
      rfl
  | filled construct =>
      obtain ⟨data, rfl⟩ := Construct.exists_data_of_kind sort
      refine .inr ⟨data, here, ?_⟩
      rw [Draft.data, construct_filled here, ok_bind, Construct.data?_ofData]
      rfl

/-- A list of slots is complete when all of them are filled, and otherwise fails at the first that
is not. -/
theorem completeFrom_cases (start : Nat) (slots : List Slot) :
    (∃ constructs, slots = constructs.map .filled ∧ completeFrom start slots = .ok constructs) ∨
    ∃ (before : List Construct) (reservation : Reservation) (after : List Slot),
      slots = before.map .filled ++ .reserved reservation :: after ∧
      completeFrom start slots =
        .error (.of (.readTooEarly (start + before.length) reservation.kind)) := by
  induction slots generalizing start with
  | nil => exact .inl ⟨[], rfl, rfl⟩
  | cons slot rest ih =>
      cases slot with
      | reserved reservation => exact .inr ⟨[], reservation, rest, rfl, rfl⟩
      | filled construct =>
          rcases ih (start + 1) with
            ⟨constructs, rfl, complete⟩ | ⟨before, reservation, after, rfl, failed⟩
          · exact .inl ⟨construct :: constructs, rfl, by simp [completeFrom, complete]⟩
          · refine .inr ⟨construct :: before, reservation, after, rfl, ?_⟩
            rw [completeFrom, failed, error_bind, List.length_cons, Nat.add_right_comm]
            rfl

/-- A draft is complete exactly if each slot is filled, and then with the constructs in the slots.
-/
theorem complete_eq_ok_iff {constructs : List Construct} :
    draft.complete = .ok constructs ↔ draft.slots = constructs.map .filled := by
  constructor
  · intro complete
    rcases completeFrom_cases 0 draft.slots with
      ⟨found, filled, completed⟩ | ⟨_, _, _, -, failed⟩
    · cases complete.symm.trans completed
      exact filled
    · cases complete.symm.trans failed
  · intro filled
    rw [complete, filled, completeFrom_filled]

/-- A draft that is not complete fails with the lowest slot that is not filled. -/
theorem complete_eq_error_iff {error : LoadError} :
    draft.complete = .error error ↔
      ∃ (id : Nat) (reservation : Reservation), draft.slots[id]? = some (.reserved reservation) ∧
        (∀ lower < id, ∃ construct, draft.slots[lower]? = some (.filled construct)) ∧
        error = .of (.readTooEarly id reservation.kind) := by
  rcases completeFrom_cases 0 draft.slots with
    ⟨constructs, filled, complete⟩ | ⟨before, reservation, after, split, failed⟩
  · have never : ∀ (id : Nat) (reservation : Reservation),
        draft.slots[id]? ≠ some (.reserved reservation) := by
      simp [filled]
    constructor
    · intro failed
      cases failed.symm.trans complete
    · intro blamed
      obtain ⟨id, reservation, here, -, -⟩ := blamed
      exact absurd here (never id reservation)
  · have lowest : draft.slots[before.length]? = some (.reserved reservation) := by simp [split]
    have lower : ∀ id < before.length,
        ∃ construct, draft.slots[id]? = some (.filled construct) := by
      intro id below
      exact ⟨before[id], by simp [split, List.getElem?_append_left, below]⟩
    rw [Nat.zero_add] at failed
    constructor
    · intro blamed
      cases blamed.symm.trans failed
      exact ⟨before.length, reservation, lowest, lower, rfl⟩
    · rintro ⟨id, other, here, filled, rfl⟩
      -- Of two such slots the lower one would have to be filled for the sake of the other.
      rcases Nat.lt_trichotomy id before.length with below | rfl | above
      · obtain ⟨construct, there⟩ := lower id below
        cases here.symm.trans there
      · cases here.symm.trans lowest
        exact failed
      · obtain ⟨construct, there⟩ := filled before.length above
        cases there.symm.trans lowest

/-- **Slots are filled once, and references do not notice.** Take a draft that was composed over
reserved slots and tables, and try any constructs for any slots. Throughout, the tables and the keys
stay, and a slot has the kind it was reserved for. A slot takes a construct exactly if it is still
reserved and the construct is of its kind; a refused construct changes nothing, and a slot that is
filled keeps its construct. Every index and every key resolves as it did at first, and what a
reference found by them leads to can be had as soon as its slot is filled, and is too early before.
The draft is complete exactly when every slot is filled, and otherwise the lowest one that is not is
to blame. -/
theorem fill_protocol (reservations : List Reservation) (tables : Tables (List Nat))
    (fills : List (Nat × Construct)) :
    let composed := compose reservations tables
    let draft := composed.afterFills fills
    (draft.tables = composed.tables ∧ draft.keys = composed.keys ∧
      ∀ id reservation, reservations[id]? = some reservation →
        draft.kind id = .ok reservation.kind) ∧
    (∀ id construct,
      let attempt := (fill id construct).runOn draft
      (attempt.1 = .ok () ↔
        ∃ reservation, draft.slots[id]? = some (.reserved reservation) ∧
          reservation.kind = construct.kind) ∧
      (attempt.1 = .ok () →
        attempt.2 = { draft with slots := draft.slots.set id (.filled construct) }) ∧
      ∀ error, attempt.1 = .error error → attempt.2 = draft) ∧
    (∀ before after id construct, fills = before ++ after →
      (composed.afterFills before).slots[id]? = some (.filled construct) →
      draft.construct id = .ok construct) ∧
    (∀ role index,
      (draft.resolveIndex index : LoadResult (Ref role)) = composed.resolveIndex index) ∧
    (∀ role text, (draft.resolveKey text : LoadResult (Ref role)) = composed.resolveKey text) ∧
    (∀ kind (ref : Ref (.only kind)),
      ((∃ index, composed.resolveIndex index = .ok ref) ∨
        ∃ text, composed.resolveKey text = .ok ref) →
      (∃ name, draft.slots[ref.id]? = some (.reserved ⟨kind, name⟩) ∧
        draft.data ref = .error (.of (.readTooEarly ref.id kind))) ∨
      ∃ data, draft.slots[ref.id]? = some (.filled (.ofData kind data)) ∧
        draft.data ref = .ok data) ∧
    (∀ constructs, draft.complete = .ok constructs ↔ draft.slots = constructs.map .filled) ∧
    (∀ error, draft.complete = .error error ↔
      ∃ id reservation, draft.slots[id]? = some (.reserved reservation) ∧
        (∀ lower < id, ∃ construct, draft.slots[lower]? = some (.filled construct)) ∧
        error = .of (.readTooEarly id reservation.kind)) := by
  intro composed draft
  have shape : draft.SameShape composed := (composed.afterFills_advances fills).shape
  refine ⟨⟨shape.tables, shape.keys, ?_⟩, ?_, ?_, ?_, ?_, ?_, fun _ => complete_eq_ok_iff,
    fun _ => complete_eq_error_iff⟩
  · intro id reservation reserved
    rw [shape.kind]
    exact kind_of_reservation tables reserved
  · intro id construct
    rcases fill_cases draft id construct with
      ⟨reservation, here, same, filled⟩ | ⟨unfit, error, refused⟩
    · rw [filled]
      exact ⟨iff_of_true rfl ⟨reservation, here, same⟩, fun _ => rfl, nofun⟩
    · rw [refused]
      exact ⟨iff_of_false nofun unfit, nofun, fun _ _ => rfl⟩
  · intro before after id construct split here
    apply construct_filled
    have later : draft = (composed.afterFills before).afterFills after := by
      rw [← afterFills_append, ← split]
    rw [later]
    exact (afterFills_advances _ after).keeps id construct here
  · intro role index
    rw [shape.resolveIndex]
  · intro role text
    rw [shape.resolveKey]
  · intro kind ref found
    apply data_of_fits
    have kinds : draft.kinds = composed.kinds := shape.kinds
    rw [kinds]
    rcases found with ⟨index, resolved⟩ | ⟨text, resolved⟩
    · exact resolveIndex_fits resolved
    · exact resolveKey_fits resolved

/-- The slot of a structure refuses a name, takes a structure and refuses another one. The draft
then waits for the name. -/
example :
    let draft := compose [⟨.structDesc, none⟩, ⟨.basic, some "int"⟩] ⟨[0, 1], [], [], [], []⟩
    let filled := draft.afterFills [(0, .basic ⟨"int"⟩), (0, .structDesc ⟨[]⟩),
      (0, .structDesc ⟨[⟨"next", ⟨0⟩, false⟩]⟩)]
    filled.slots = [.filled (.structDesc ⟨[]⟩), .reserved ⟨.basic, some "int"⟩] ∧
      filled.complete = .error (.of (.readTooEarly 1 .basic)) := by
  decide

end CodeGraph.Draft

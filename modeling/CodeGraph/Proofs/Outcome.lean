import CodeGraph.LoadError
import Mathlib.Data.List.Forall2

/-! # Outcomes of steps in a row

A computation that may fail succeeds when all of its steps succeed, and a list is worked through
until its first failure. The lemmas here open an outcome step by step.
-/

namespace CodeGraph

section Steps

variable {ε ε' α β : Type}

@[simp]
theorem ok_bind {value : α} {next : α → Except ε β} : (.ok value >>= next) = next value := rfl

@[simp]
theorem error_bind {error : ε} {next : α → Except ε β} :
    (.error error >>= next) = .error error := rfl

@[simp]
theorem map_ok {f : α → β} {value : α} : f <$> (.ok value : Except ε α) = .ok (f value) := rfl

@[simp]
theorem bind_eq_ok_iff {result : Except ε α} {next : α → Except ε β} {value : β} :
    (result >>= next) = .ok value ↔ ∃ found, result = .ok found ∧ next found = .ok value := by
  cases result <;> simp [bind, Except.bind]

@[simp]
theorem map_eq_ok_iff {result : Except ε α} {f : α → β} {value : β} :
    (f <$> result) = .ok value ↔ ∃ found, result = .ok found ∧ f found = value := by
  cases result <;> simp [Functor.map, Except.map]

@[simp]
theorem pure_eq_ok_iff {given value : α} :
    (pure given : Except ε α) = .ok value ↔ given = value := by
  simp [pure, Except.pure]

@[simp]
theorem throw_ne_ok {error : ε} {value : α} : (throw error : Except ε α) ≠ .ok value := by
  simp [throw, throwThe, MonadExceptOf.throw]

@[simp]
theorem mapError_eq_ok_iff {result : Except ε α} {f : ε → ε'} {value : α} :
    result.mapError f = .ok value ↔ result = .ok value := by
  cases result <;> simp [Except.mapError]

@[simp]
theorem mapError_eq_error_iff {result : Except ε α} {f : ε → ε'} {error : ε'} :
    result.mapError f = .error error ↔ ∃ inner, result = .error inner ∧ f inner = error := by
  cases result <;> simp [Except.mapError]

/-- Whether a step fails in a certain way can be told from its outcome. -/
instance decidableFails [DecidableEq ε] (result : Except ε α) (error : ε) :
    Decidable (result = .error error) :=
  match result with
  | .ok _ => .isFalse nofun
  | .error found => decidable_of_iff (found = error) (Except.error.injEq found error).symm.to_iff

/-- A result is an error exactly if it is no value. -/
theorem not_ok_iff_error {result : Except ε α} :
    (∀ value, result ≠ .ok value) ↔ ∃ error, result = .error error := by
  cases result <;> simp

end Steps

section Lists

variable {ε α β : Type} {f : α → Except ε β}

/-- Steps that agree on every item of a list come to the same over the list. -/
theorem mapM_congr {g : α → Except ε β} {items : List α}
    (same : ∀ item ∈ items, f item = g item) : items.mapM f = items.mapM g := by
  induction items with
  | nil => rfl
  | cons item rest ih =>
      obtain ⟨first, later⟩ := List.forall_mem_cons.mp same
      rw [List.mapM_cons, List.mapM_cons, first, ih later]

/-- What is made of each value of a list is made of the values together. -/
theorem mapM_map_ok {γ : Type} (g : β → γ) (items : List α) :
    (items.mapM fun item => g <$> f item) = List.map g <$> items.mapM f := by
  induction items with
  | nil => rfl
  | cons item rest ih =>
      rw [List.mapM_cons, List.mapM_cons, ih]
      cases f item with
      | error error => rfl
      | ok value => cases rest.mapM f <;> rfl

/-- A list is worked through without a failure when each of its items is. -/
theorem mapM_eq_ok_iff {items : List α} {values : List β} :
    items.mapM f = .ok values ↔
      List.Forall₂ (fun item value => f item = .ok value) items values := by
  induction items generalizing values with
  | nil => cases values <;> simp [pure, Except.pure]
  | cons item rest ih =>
      constructor
      · intro worked
        simp only [List.mapM_cons, bind_eq_ok_iff, pure_eq_ok_iff] at worked
        obtain ⟨first, atFirst, later, atLater, rfl⟩ := worked
        exact .cons atFirst (ih.mp atLater)
      · intro matched
        rcases matched with _ | ⟨atFirst, atLater⟩
        simp [List.mapM_cons, atFirst, ih.mpr atLater]

/-- Each value of a list that was worked through comes from one of its items. -/
theorem exists_item_of_mapM {items : List α} {values : List β} (worked : items.mapM f = .ok values)
    {value : β} (member : value ∈ values) : ∃ item ∈ items, f item = .ok value := by
  have matched := mapM_eq_ok_iff.mp worked
  obtain ⟨position, inside, rfl⟩ := List.getElem_of_mem member
  have inItems : position < items.length := matched.length_eq ▸ inside
  exact ⟨items[position], List.getElem_mem inItems, matched.get inItems inside⟩

/-- Each item of a list that was worked through gives one of the values. -/
theorem exists_mem_of_mapM {items : List α} {values : List β} (worked : items.mapM f = .ok values)
    {item : α} (member : item ∈ items) : ∃ value ∈ values, f item = .ok value := by
  have matched := mapM_eq_ok_iff.mp worked
  obtain ⟨position, inside, rfl⟩ := List.getElem_of_mem member
  have inValues : position < values.length := matched.length_eq ▸ inside
  exact ⟨values[position], List.getElem_mem inValues, matched.get inside inValues⟩

/-- Steps that come to values in a row come to one on each item. -/
theorem exists_value_of_mapM {items : List α} {values : List β} (worked : items.mapM f = .ok values)
    {item : α} (member : item ∈ items) : ∃ value, f item = .ok value := by
  obtain ⟨value, -, found⟩ := exists_mem_of_mapM worked member
  exact ⟨value, found⟩

/-- What holds of all values of a list that was worked through, in terms of its items. -/
theorem forall_mem_iff_of_mapM {holds : β → Prop} {items : List α} {values : List β}
    (worked : items.mapM f = .ok values) :
    (∀ value ∈ values, holds value) ↔
      ∀ item ∈ items, ∀ value, f item = .ok value → holds value := by
  induction mapM_eq_ok_iff.mp worked with
  | nil => simp
  | cons atFirst matched ih =>
      simp only [List.forall_mem_cons, ih (mapM_eq_ok_iff.mpr matched), atFirst, Except.ok.injEq,
        forall_eq']

/-- What the values of a list that was worked through have in common with its items. -/
theorem map_eq_of_mapM {γ : Type} {g : β → γ} {h : α → γ} {items : List α} {values : List β}
    (worked : items.mapM f = .ok values)
    (same : ∀ item ∈ items, ∀ value, f item = .ok value → g value = h item) :
    values.map g = items.map h := by
  induction mapM_eq_ok_iff.mp worked with
  | nil => rfl
  | cons atFirst matched ih =>
      obtain ⟨first, rest⟩ := List.forall_mem_cons.mp same
      rw [List.map_cons, List.map_cons, first _ atFirst, ih (mapM_eq_ok_iff.mpr matched) rest]

/-- The failure of a list is that of the first item that fails. -/
theorem mapM_eq_error_iff {items : List α} {error : ε} :
    items.mapM f = .error error ↔
      ∃ before item after, items = before ++ item :: after ∧
        (∀ earlier ∈ before, ∃ value, f earlier = .ok value) ∧ f item = .error error := by
  induction items with
  | nil => simp [pure, Except.pure]
  | cons first rest ih =>
      cases atFirst : f first with
      | error cause =>
          constructor
          · intro failed
            refine ⟨[], first, rest, rfl, by simp, ?_⟩
            simpa [List.mapM_cons, atFirst] using failed
          · intro blamed
            rcases blamed with ⟨before, item, after, split, earlier, failed⟩
            cases before with
            | nil =>
                cases split
                simp [List.mapM_cons, failed]
            | cons head tail =>
                cases split
                obtain ⟨value, succeeded⟩ := earlier first List.mem_cons_self
                rw [atFirst] at succeeded
                cases succeeded
      | ok value =>
          have skip : (first :: rest).mapM f = .error error ↔ rest.mapM f = .error error := by
            rw [List.mapM_cons, atFirst]
            cases rest.mapM f <;> simp [pure, Except.pure]
          rw [skip, ih]
          constructor
          · intro blamed
            rcases blamed with ⟨before, item, after, rfl, earlier, failed⟩
            exact ⟨first :: before, item, after, rfl, by simpa [atFirst] using earlier, failed⟩
          · intro blamed
            rcases blamed with ⟨before, item, after, split, earlier, failed⟩
            cases before with
            | nil =>
                cases split
                rw [atFirst] at failed
                cases failed
            | cons head tail =>
                cases split
                exact ⟨tail, item, after, rfl, fun item member => earlier item (by simp [member]),
                  failed⟩

/-- A list is worked through if no item fails. -/
theorem exists_mapM_eq_ok {items : List α} (each : ∀ item ∈ items, ∃ value, f item = .ok value) :
    ∃ values, items.mapM f = .ok values := by
  cases worked : items.mapM f with
  | ok values => exact ⟨values, rfl⟩
  | error error =>
      obtain ⟨before, item, after, rfl, -, failed⟩ := mapM_eq_error_iff.mp worked
      obtain ⟨value, succeeded⟩ := each item (by simp)
      rw [failed] at succeeded
      cases succeeded

/-- A list whose items fail alike, if they fail, fails as they do. -/
theorem mapM_eq_error_of_all {items : List α} {error : ε}
    (each : ∀ item ∈ items, (∃ value, f item = .ok value) ∨ f item = .error error)
    {item : α} (member : item ∈ items) (failed : f item = .error error) :
    items.mapM f = .error error := by
  cases worked : items.mapM f with
  | ok values =>
      obtain ⟨value, found⟩ := exists_value_of_mapM worked member
      rw [failed] at found
      cases found
  | error cause =>
      obtain ⟨before, other, after, rfl, -, blamed⟩ := mapM_eq_error_iff.mp worked
      rcases each other (by simp) with ⟨value, found⟩ | same
      · rw [blamed] at found
        cases found
      · cases blamed.symm.trans same
        rfl

/-- Steps without values succeed together when each of them does. -/
theorem forM_eq_ok_iff {step : α → Except ε Unit} {items : List α} :
    items.forM step = .ok () ↔ ∀ item ∈ items, step item = .ok () := by
  induction items with
  | nil => simp [pure, Except.pure]
  | cons item rest ih =>
      simp only [List.forM_eq_forM, List.forM_cons, bind_eq_ok_iff, List.forall_mem_cons] at ih ⊢
      rw [← ih]
      exact ⟨fun ⟨(), both⟩ => both, fun both => ⟨(), both⟩⟩

/-- Where steps in a row fail, one of them has failed with the error of all. -/
theorem exists_item_of_forM_error {step : α → Except ε Unit} {items : List α} {error : ε}
    (failed : items.forM step = .error error) : ∃ item ∈ items, step item = .error error := by
  induction items with
  | nil => cases failed
  | cons item rest ih =>
      cases atItem : step item with
      | error cause =>
          simp only [List.forM_eq_forM, List.forM_cons, atItem, error_bind] at failed
          exact ⟨item, List.mem_cons_self, atItem.trans failed⟩
      | ok value =>
          simp only [List.forM_eq_forM, List.forM_cons, atItem, ok_bind] at failed
          obtain ⟨later, member, laterFailed⟩ := ih failed
          exact ⟨later, List.mem_cons_of_mem _ member, laterFailed⟩

end Lists

namespace LoadResult

variable {α β : Type}

@[simp]
theorem within_eq_ok_iff {outer : Path} {result : LoadResult α} {value : α} :
    result.within outer = .ok value ↔ result = .ok value :=
  mapError_eq_ok_iff

@[simp]
theorem atField_eq_ok_iff {field : String} {result : LoadResult α} {value : α} :
    result.atField field = .ok value ↔ result = .ok value :=
  mapError_eq_ok_iff

@[simp]
theorem liftBounds_ok {value : α} :
    (liftM (.ok value : Except OutOfBounds α) : LoadResult α) = .ok value := rfl

@[simp]
theorem liftBounds_eq_ok_iff {result : Except OutOfBounds α} {value : α} :
    (liftM result : LoadResult α) = .ok value ↔ result = .ok value :=
  mapError_eq_ok_iff

/-- Steps in a row happen within a path if each of them does. -/
theorem within_bind {outer : Path} {result : LoadResult α} {next : α → LoadResult β} :
    within outer (result >>= next) =
      result.within outer >>= fun value => (next value).within outer := by
  cases result <;> rfl

/-- What happens within two paths, one inside the other, happens within both joined. -/
theorem within_within (outer inner : Path) (result : LoadResult α) :
    (result.within inner).within outer = result.within (outer ++ inner) := by
  cases result with
  | ok value => rfl
  | error error => simp [within, Except.mapError, LoadError.within]

/-- Where no item fails, numbering the items makes no difference. -/
theorem forItems_eq_ok_iff {read : α → LoadResult β} {position : Nat} {items : List α}
    {values : List β} :
    forItems read position items = .ok values ↔ items.mapM read = .ok values := by
  induction items generalizing position values with
  | nil => rw [List.mapM_nil, pure_eq_ok_iff, forItems, Except.ok.injEq]
  | cons item rest ih =>
      simp only [forItems, List.mapM_cons, bind_eq_ok_iff, pure_eq_ok_iff, atIndex,
        within_eq_ok_iff, ih, Except.ok.injEq]

/-- Every value read from a list of items was read from one of them. -/
theorem forItems_forall {read : α → LoadResult β} {holds : β → Prop}
    (reads : ∀ item value, read item = .ok value → holds value) {position : Nat} {items : List α}
    {values : List β} (worked : forItems read position items = .ok values) :
    ∀ value ∈ values, holds value := by
  intro value member
  obtain ⟨item, -, read⟩ := exists_item_of_mapM (forItems_eq_ok_iff.mp worked) member
  exact reads item value read

/-- Every failure of a result is one of the given errors. -/
def FailsWith (errors : LoadError → Prop) (result : LoadResult α) : Prop :=
  ∀ error, result = .error error → errors error

section Failures

variable {errors : LoadError → Prop} {result : LoadResult α}

theorem FailsWith.pure (value : α) : FailsWith errors (pure value) := by
  intro error failed
  cases failed

/-- Two steps fail in certain ways only if each of them does. -/
theorem FailsWith.bind {next : α → LoadResult β} (first : FailsWith errors result)
    (later : ∀ value, result = .ok value → FailsWith errors (next value)) :
    FailsWith errors (result >>= next) := by
  cases result with
  | ok value => exact later value rfl
  | error cause => exact fun error failed => first error (by simpa using failed)

theorem FailsWith.map (f : α → β) (fails : FailsWith errors result) :
    FailsWith errors (f <$> result) := by
  cases result with
  | ok value => exact FailsWith.pure (f value)
  | error cause =>
      intro error failed
      cases failed
      exact fails cause rfl

/-- Steps in a row fail in certain ways only if the step of each item does. -/
theorem FailsWith.mapM {items : List α} {read : α → LoadResult β}
    (each : ∀ item ∈ items, FailsWith errors (read item)) :
    FailsWith errors (items.mapM read) := by
  intro error failed
  obtain ⟨before, item, after, rfl, -, unread⟩ := mapM_eq_error_iff.mp failed
  exact each item (by simp) error unread

end Failures

end LoadResult

end CodeGraph

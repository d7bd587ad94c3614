import CodeGraph.Proofs.Loading.Entries
import CodeGraph.Proofs.References

/-! # Entries, slots and tables

The slots of a draft stand in the order of the entries they are reserved for, and each table lists,
in the order of the arena, the ids of the entries whose kind belongs there
(`CodeGraph.Entry.mem_idsIn_iff`, `CodeGraph.Entry.idsIn_ascending`).
-/

namespace CodeGraph

/-- Where a list goes on, its items keep their positions. -/
theorem getElem?_of_grown {α : Type} {items later : List α} (grown : items <+: later)
    {position : Nat} {item : α} (here : items[position]? = some item) :
    later[position]? = some item := by
  obtain ⟨more, rfl⟩ := grown
  rw [List.getElem?_append_left (List.getElem?_eq_some_iff.mp here).choose, here]

namespace Entry

/-- A table lists the ids of the entries whose kinds belong to it. -/
theorem mem_idsIn_iff {entries : List Entry} {table : Table} {id : Nat} :
    id ∈ idsIn entries table ↔ ∃ kind, (kinds entries)[id]? = some kind ∧ kind.table = table := by
  simp only [idsIn, kinds, List.mem_filterMap, List.getElem?_map, Option.map_eq_some_iff]
  constructor
  · intro listed
    obtain ⟨⟨entry, position⟩, member, chosen⟩ := listed
    split at chosen
    · rename_i same
      cases chosen
      exact ⟨entry.kind, ⟨entry, List.mem_zipIdx_iff_getElem?.mp member, rfl⟩, same⟩
    · cases chosen
  · intro present
    obtain ⟨_, ⟨entry, here, rfl⟩, same⟩ := present
    exact ⟨(entry, id), List.mem_zipIdx_iff_getElem?.mpr here, by simp [same]⟩

/-- A table lists its ids in ascending order. -/
theorem idsIn_ascending (entries : List Entry) (table : Table) :
    (idsIn entries table).Pairwise (· < ·) := by
  have positions : entries.zipIdx.Pairwise fun first second => first.2 < second.2 := by
    rw [← List.pairwise_map (f := Prod.snd), List.zipIdx_map_snd]
    exact List.pairwise_lt_range'
  refine List.Pairwise.filterMap _ ?_ positions
  intro first second before id chosen other chosenOther
  grind

end Entry

namespace Draft

/-- A slot that is reserved has the kind that it is reserved for. -/
theorem kind_of_reservation {reservations : List Reservation} (tables : Tables (List Nat))
    {id : Nat} {reservation : Reservation} (reserved : reservations[id]? = some reservation) :
    (compose reservations tables).kind id = .ok reservation.kind := by
  rw [kind_eq_ok_iff, kinds, compose, List.getElem?_map, List.getElem?_map, reserved]
  rfl

/-- The slots of a draft have the kinds of the entries they are reserved for. -/
theorem kinds_ofEntries (entries : List Entry) :
    (ofEntries entries).kinds = Entry.kinds entries := by
  simp [kinds, ofEntries, compose, Entry.reservations, Entry.reservation, Entry.kinds,
    Function.comp_def, Slot.kind]

@[simp]
theorem table_ofEntries (entries : List Entry) (table : Table) :
    (ofEntries entries).table table = Entry.idsIn entries table := by
  simp [Draft.table, ofEntries, compose]

end Draft

end CodeGraph

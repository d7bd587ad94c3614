import CodeGraph.Proofs.Loading.Failures

/-! # Where errors point to

The path of an error leads through the document to the node that the error is about
(`CodeGraph.Project.load_error_points_into`). A missing field is the exception: there the path leads
to the object that lacks it, and goes one step on.
-/

namespace CodeGraph

namespace Node

/-- A path below a node is followed from the node. -/
theorem follow_within {root node : Node} {outer : Path} (leads : root.follow outer = some node)
    (inner : Path) : root.follow (outer ++ inner) = node.follow inner := by
  rw [follow_append, leads]
  rfl

/-- What is complained about has a place, as long as keys are not repeated. -/
theorem Faulty.exists_place {refuses : Node → LoadError.Cause → Prop} {root : Node}
    {error : LoadError} (faulty : Faulty refuses root error) (keys : root.KeysDistinct) :
    ∃ path node inner, root.follow path = some node ∧ Fault refuses node inner ∧
      error = inner.within path := by
  induction faulty with
  | here fault => exact ⟨[], _, _, rfl, fault, rfl⟩
  | @entry node value name error member below ih =>
      cases node with
      | object entries =>
          -- The complaint is about an entry of the object. Its key leads to that very entry because
          -- no other entry has the key.
          obtain ⟨distinct, values⟩ := keysDistinct_object_iff.mp keys
          obtain ⟨path, place, inner, leads, fault, rfl⟩ := ih (values _ member)
          refine ⟨.field name :: path, place, inner, ?_, fault, rfl⟩
          rw [follow, get?, lookup_of_mem distinct member]
          exact leads
      | _ => cases member
  | @item items position item error here below ih =>
      have values := keysDistinct_array_iff.mp keys
      obtain ⟨path, place, inner, leads, fault, rfl⟩ := ih (values _ (List.mem_of_getElem? here))
      refine ⟨.index position :: path, place, inner, ?_, fault, rfl⟩
      rw [follow, items?, Option.bind_some, here]
      exact leads

/-- A field that is not there is absent or null. -/
theorem absent_of_field? {node : Node} {name : String} (absent : node.field? name = none) :
    node.get? name = none ∨ node.get? name = some .null := by
  unfold field? at absent
  cases found : node.get? name with
  | none => exact .inl rfl
  | some value =>
      rw [found] at absent
      cases value <;> simp_all [Option.filter, shape]

/-- A field that is there is reached by its name. -/
theorem follow_field {node value : Node} {name : String} (present : node.field? name = some value) :
    node.follow [.field name] = some value := by
  simp [follow, get?_of_field? present]

end Node

/-- The path of an error leads to the node of the document that the error is about. -/
def LoadError.PointsInto (document : Node) (error : LoadError) : Prop :=
  match error.cause with
  | .missingField field =>
    ∃ outer owner, error.path = outer ++ [.field field] ∧ document.follow outer = some owner ∧
      owner.shape = .object ∧ (owner.get? field = none ∨ owner.get? field = some .null)
  | .malformed (.wrongType field _ found) =>
    ∃ outer value, error.path = outer ++ [.field field] ∧
      document.follow error.path = some value ∧ value.shape = found
  | .malformed (.notAnObject found) | .malformed (.notAnArray found)
  | .malformed (.unexpectedShape _ found) =>
    ∃ node, document.follow error.path = some node ∧ node.shape = found
  | .wrongKind index _ _ _ =>
    ∃ node, document.follow error.path = some node ∧ Entry.Refused document node error.cause ∧
      node.int? = some index
  | .indexOutOfRange index table _ =>
    ∃ node, document.follow error.path = some node ∧ Entry.Refused document node error.cause ∧
      (node.int? = some index ∨ ∃ text key, node = .string text ∧ table = .methods ∧
        Key.parse? text = some key ∧ index = min (key.ordinal : Int) Decimal.maxSigned)
  | .unknownKey key _ | .malformedKey key =>
    document.follow error.path = some (.string key) ∧
      Entry.Refused document (.string key) error.cause
  | _ => False

/-- An error that is a fault of a node points at the node in its document. -/
theorem LoadError.pointsInto_of_fault {document node : Node} {path : Path} {error : LoadError}
    (leads : document.follow path = some node)
    (fault : node.Fault (Entry.Refused document) error) :
    (error.within path).PointsInto document := by
  cases fault with
  | missing object absent => exact ⟨path, node, rfl, leads, object, Node.absent_of_field? absent⟩
  | mistyped expected present =>
      refine ⟨path, _, rfl, ?_, rfl⟩
      exact (Node.follow_within leads _).trans (Node.follow_field present)
  | noObject => exact ⟨node, (Node.follow_within leads []).trans rfl, rfl⟩
  | noArray => exact ⟨node, (Node.follow_within leads []).trans rfl, rfl⟩
  | misshapen expected => exact ⟨node, (Node.follow_within leads []).trans rfl, rfl⟩
  | refused refused =>
      have here : document.follow (path ++ []) = some node := Node.follow_within leads []
      have ⟨entries, _, unresolved⟩ := refused
      rcases unresolved.reference with
        ⟨index, table, integer, ⟨count, rfl⟩ | ⟨role, actual, rfl⟩⟩ |
        ⟨text, rfl, rfl | rfl | ⟨key, count, parsed, rfl⟩⟩
      · exact ⟨node, here, refused, .inl integer⟩
      · exact ⟨node, here, refused, integer⟩
      · exact ⟨here, refused⟩
      · exact ⟨here, refused⟩
      · exact ⟨_, here, refused, .inr ⟨text, key, rfl, rfl, parsed, rfl⟩⟩

namespace Project

/-- **Errors point at what they are about.** The objects of a document are maps, as they are in
every document that a text spells. Where the document does not load, the path of the error leads to
the node that has the wrong shape, or that spells the index or the key that is refused, or to the
object that lacks the missing field. -/
theorem load_error_points_into (document : Node) :
    (∀ text, Node.ofJson text = .ok document → document.KeysDistinct) ∧
    (document.KeysDistinct →
      ∀ error, load document = .error error → error.PointsInto document) := by
  refine ⟨fun text parsed => Node.keysDistinct_of_ofJson parsed, ?_⟩
  intro keys error failed
  obtain ⟨path, node, inner, leads, fault, rfl⟩ :=
    (load_blames document error failed).exists_place keys
  exact LoadError.pointsInto_of_fault leads fault

/-- The index of the declaration that is not there stands where the error points to. -/
theorem load_error_points_into_sample :
    Sample.dangling.KeysDistinct ∧ load Sample.dangling = .error Sample.danglingError ∧
      Sample.danglingError.PointsInto Sample.dangling ∧
      Sample.dangling.follow Sample.danglingError.path = some (.number (.integer 6)) ∧
      Node.ofJson "7" = .ok (.number (.integer 7)) ∧
      (Node.number (.integer 7)).KeysDistinct := by
  have keys : Sample.dangling.KeysDistinct := by
    simp [Sample.dangling, Sample.danglingPackage, Sample.node, Sample.decl]
  have points :=
    (load_error_points_into Sample.dangling).2 keys Sample.danglingError Sample.load_dangling
  have parsed : Node.ofJson "7" = .ok (.number (.integer 7)) := rfl
  exact ⟨keys, Sample.load_dangling, points, rfl, parsed, (load_error_points_into _).1 "7" parsed⟩

end Project

end CodeGraph

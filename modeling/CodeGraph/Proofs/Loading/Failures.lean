import CodeGraph.Proofs.Loading.Blame
import CodeGraph.Proofs.Loading.Lookup
import CodeGraph.Proofs.Loading.TwoPasses

/-! # How a load fails

Both passes complain about nodes of the document only (`CodeGraph.Project.load_blames`), and what
they complain about as a reference is an index or a key that leads nowhere among the entries of the
document (`CodeGraph.Draft.Refuses.reference`). So every failure is the document's fault, and
linking adds none (`CodeGraph.Project.load_error_blames_document`).
-/

namespace CodeGraph

open LoadResult

namespace Entry

section Reserving

variable {refuses : Node → LoadError.Cause → Prop} {document owner node : Node} {outer path : Path}
  {placement : Placement} {field : String} {kind : Kind}

/-- An entry that cannot be reserved is blamed where it stands. -/
theorem ofNode_blames (leads : document.follow path = some node) :
    Blames refuses document (ofNode kind placement path node) :=
  (identityName_blames.within leads).bind fun _ _ => .pure _

/-- A list that cannot be reserved is blamed on its owner or at an entry. -/
theorem readList_blames (leads : document.follow outer = some owner) :
    Blames refuses document (readList owner outer placement field kind) := by
  refine (readArrayOrEmpty_blames.within leads).bind fun items found => .mapM ?_
  intro (node, position) listed
  have here := List.mem_zipIdx_iff_getElem?.mp listed
  rw [within_eq_ok_iff, liftRead_eq_ok_iff] at found
  rcases Node.readArrayOrEmpty_eq_ok_iff.mp found with ⟨-, rfl⟩ | present
  · cases here
  · exact ofNode_blames (follow_item leads present here)

/-- A package that cannot be reserved is blamed where it stands. -/
theorem readPackage_blames {id : Nat} (leads : document.follow path = some node) :
    Blames refuses document (readPackage id path node) :=
  (ofNode_blames leads).bind fun _ _ =>
  (Blames.mapM fun _ _ => readList_blames leads).bind fun _ _ => .pure _

/-- Packages that cannot be reserved are blamed where they stand. -/
theorem readPackages_blames {id position : Nat} {nodes : List Node}
    (stand : PackagesFrom document position nodes) :
    Blames refuses document (readPackages id position nodes) := by
  induction nodes generalizing id position with
  | nil => exact .pure []
  | cons node rest ih =>
      have first : Blames refuses document
          (readPackage id [.field "packages", .index position] node) :=
        readPackage_blames (stand 0 node rfl)
      exact first.bind fun _ _ => (ih stand.tail).bind fun _ _ => .pure _

/-- The first pass complains about nodes of the document. -/
theorem ofDocument_blames : Blames refuses document (ofDocument document) := by
  have root : document.follow [] = some document := rfl
  refine (Blames.mapM fun _ _ => readList_blames root).bind fun _ _ => ?_
  refine readArrayOrEmpty_blames.bind fun packages found => ?_
  have stand := packagesFrom_of_read (liftRead_eq_ok_iff.mp found)
  exact (readPackages_blames stand).bind fun _ _ => .pure _

end Reserving

/-- What may be wrong with a node as a reference to the entries of a document. -/
def Refused (document node : Node) (cause : LoadError.Cause) : Prop :=
  ∃ entries, ofDocument document = .ok entries ∧ (Draft.ofEntries entries).Refuses node cause

end Entry

namespace Draft.Refuses

/-- A reference that is refused is an index out of range or of the wrong kind, or a key that is
malformed, unknown or out of range. A key never leads to the wrong kind, since the table of methods
lists nothing else. -/
theorem reference {entries : List Entry} {node : Node} {cause : LoadError.Cause}
    (refused : (ofEntries entries).Refuses node cause) :
    (∃ index table, node.int? = some index ∧
      ((∃ count, cause = .indexOutOfRange index table count) ∨
        ∃ role actual, cause = .wrongKind index table role actual)) ∨
    ∃ text, node = .string text ∧
      (cause = .malformedKey text ∨ cause = .unknownKey text .methods ∨
        ∃ key count, Key.parse? text = some key ∧
          cause = .indexOutOfRange (min key.ordinal Decimal.maxSigned) .methods count) := by
  cases refused with
  | @index role _ index _ integer unresolved =>
      refine .inl ⟨index, role.table, integer, ?_⟩
      rcases @resolveIndex_cases entries role index with ⟨-, failed⟩ | ⟨entry, id, -, -, -, failed⟩
      · cases failed.symm.trans unresolved
        exact .inl ⟨_, rfl⟩
      · rw [failed] at unresolved
        split at unresolved
        · cases unresolved
        · cases unresolved
          exact .inr ⟨_, _, rfl⟩
  | @key text _ unresolved =>
      refine .inr ⟨text, rfl, ?_⟩
      rcases @resolveKey_cases entries (.only .methodDecl) text with
        ⟨-, failed⟩ | ⟨key, parsed, ⟨-, failed⟩ | ⟨-, failed⟩ | found⟩
      · cases failed.symm.trans unresolved
        exact .inl rfl
      · cases failed.symm.trans unresolved
        exact .inr (.inl rfl)
      · cases failed.symm.trans unresolved
        exact .inr (.inr ⟨key, _, parsed, rfl⟩)
      · obtain ⟨entry, id, position, picked, -, resolved⟩ := found
        have declared := Entry.kind_of_mem_namedIn (mem_of_atIndex? picked)
        rw [resolved, declared] at unresolved
        cases unresolved

/-- What no draft of entries resolves is a fault of the document. -/
theorem blamesDocument {entries : List Entry} {node : Node} {cause : LoadError.Cause}
    (refused : (ofEntries entries).Refuses node cause) : cause.blamesDocument = true := by
  rcases refused.reference with ⟨_, _, -, ⟨_, rfl⟩ | ⟨_, _, rfl⟩⟩ |
    ⟨_, -, rfl | rfl | ⟨_, _, -, rfl⟩⟩ <;> rfl

end Draft.Refuses

/-- Faults of nodes are faults of the document, if all that is refused is. -/
theorem Node.Faulty.blamesDocument {refuses : Node → LoadError.Cause → Prop} {node : Node}
    {error : LoadError} (faulty : node.Faulty refuses error)
    (references : ∀ node cause, refuses node cause → cause.blamesDocument = true) :
    error.cause.blamesDocument = true := by
  induction faulty with
  | here fault =>
      cases fault with
      | refused refused => exact references _ _ refused
      | _ => rfl
  | entry _ _ ih => exact ih
  | item _ _ ih => exact ih

namespace Sample

/-- A package whose instance belongs to a declaration that is not there. -/
def danglingPackage : Node :=
  .object [("name", .string "lists"), ("objectDecls", .array [decl]),
    ("objectInsts", .array [.object [("decl", .number (.integer 6))]])]

/-- A document of an instance without a declaration. -/
def dangling : Node :=
  .object [("basics", .array [.string "int"]),
    ("named", .array [.object [("name", .string "T"), ("type", .number (.integer 1))]]),
    ("structDescs", .array [node]), ("packages", .array [danglingPackage])]

/-- The complaint about that document. -/
def danglingError : LoadError :=
  ⟨[.field "packages", .index 0, .field "objectInsts", .index 0, .field "decl"],
    .indexOutOfRange 6 .types 5⟩

theorem load_dangling : Project.load dangling = .error danglingError := rfl

end Sample

namespace Project

/-- **A failing load complains about a node of the document.** -/
theorem load_blames (document : Node) :
    Blames (Entry.Refused document) document (load document) := by
  intro error failed
  cases object : document.expectObject with
  | error cause =>
      simp only [load, loadInOrder_by_entries, object] at failed
      cases document with
      | object entries => cases object
      | _ =>
          cases object
          cases failed
          exact .here (.noObject _)
  | ok fields =>
      have object : document.shape = .object := by
        cases document with
        | object entries => rfl
        | _ => cases object
      cases reserved : Entry.ofDocument document with
      | error cause =>
          cases document with
          | object entries =>
              simp only [load, loadInOrder_by_entries, reserved] at failed
              cases failed
              exact Entry.ofDocument_blames error reserved
          | _ => cases object
      | ok entries =>
          -- Linking does not fail, so the second pass did, on an entry read over empty slots.
          rw [load, loadInOrder_eq_error_iff object reserved (.refl _), mapM_eq_error_iff] at failed
          obtain ⟨before, position, after, split, -, failed⟩ := failed
          have inside : position < entries.length := by
            apply List.mem_range.mp
            rw [← id_eq (List.range entries.length), split]
            simp
          obtain ⟨entry, cause, present, unread, rfl⟩ := Draft.constructAt_eq_error inside failed
          have stands := Entry.standsIn_of_ofDocument reserved entry (List.mem_of_getElem? present)
          have blamed := Construct.ofNode_blames stands.suits cause unread
          exact (blamed.of_follow stands.leads).imp fun _ _ refused => ⟨entries, reserved, refused⟩

/-- **Only documents are to blame.** Whatever the document, a load never fails because a construct
is read before it is filled, is filled twice or does not belong where it stands. Once all entries
are filled, linking does not fail at all. -/
theorem load_error_blames_document (document : Node) :
    (∀ error, load document = .error error →
      error.cause.blamesDocument = true ∧ ∀ id kind, error.cause ≠ .readTooEarly id kind ∧
        error.cause ≠ .filledTwice id kind ∧ error.cause ≠ .misplaced kind) ∧
    ∀ allocation filled, Allocation.ofDocument document = .ok allocation →
      (List.range allocation.pending.length).foldlM (Draft.fillPending allocation.pending)
        allocation.compose = .ok filled →
      ∃ linked, filled.link = .ok linked := by
  constructor
  · intro error failed
    have blamed : error.cause.blamesDocument = true := by
      apply (load_blames document error failed).blamesDocument
      intro node cause refused
      obtain ⟨entries, -, refused⟩ := refused
      exact refused.blamesDocument
    refine ⟨blamed, fun id kind => ⟨?_, ?_, ?_⟩⟩ <;>
      · intro same
        rw [same] at blamed
        cases blamed
  · intro allocation filled allocated run
    obtain ⟨entries, -, rfl⟩ := Allocation.ofDocument_eq_ok_iff.mp allocated
    simp only [Allocation.length_pending, Draft.fillPending_ofEntries,
      Draft.compose_ofEntries] at run
    have inside : ∀ position ∈ List.range entries.length, position < entries.length := by simp
    obtain ⟨-, complete⟩ := (Draft.Filled.empty entries).of_run inside run
    obtain ⟨_, _, linked⟩ := complete.link_eq (by simp)
    exact ⟨_, linked⟩

/-- An instance without a declaration fails to load by its document, and where the declaration is
there, linking does not fail. -/
theorem load_error_blames_document_sample :
    load Sample.dangling = .error Sample.danglingError ∧
      Sample.danglingError.cause.blamesDocument = true ∧
      Allocation.ofDocument Sample.document = .ok Sample.allocation ∧
      ∃ filled linked, (List.range Sample.allocation.pending.length).foldlM
        (Draft.fillPending Sample.allocation.pending) Sample.allocation.compose = .ok filled ∧
        filled.link = .ok linked := by
  have blamed :=
    ((load_error_blames_document Sample.dangling).1 Sample.danglingError Sample.load_dangling).1
  have run : (List.range Sample.allocation.pending.length).foldlM
      (Draft.fillPending Sample.allocation.pending) Sample.allocation.compose = .ok _ := rfl
  obtain ⟨linked, link⟩ :=
    (load_error_blames_document Sample.document).2 Sample.allocation _ rfl run
  exact ⟨Sample.load_dangling, blamed, rfl, _, linked, run, link⟩

end Project

end CodeGraph

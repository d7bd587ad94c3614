import CodeGraph.Proofs.Loading.Readings
import CodeGraph.Proofs.Loading.Replaced

/-! # Entries of a wrong shape

An entry is an object, or perhaps a text among the basics. Anything else in its place is refused as
soon as a field is read that has to be there: by its name in the first pass, or by its first field
in the second. A kind whose fields are all optional has no such field, so what stands there is read
as an object without fields (`CodeGraph.Project.load_misfit`). That a load failed before it came to
an entry is said without an order of entries: it fails in the same way whatever stands there
(`CodeGraph.LoadResult.StopsAt`).
-/

namespace CodeGraph

open LoadResult

/-! ## What is read of something else than an object -/

/-- A node cannot spell an entry of a kind by its shape. -/
structure Kind.Misfits (kind : Kind) (node : Node) : Prop where
  noObject : node.shape ≠ .object
  noText : kind = .basic → node.shape ≠ .string

/-- A kind with optional fields only. -/
def Kind.isOptional : Kind → Bool
  | interfaceDesc | signature | structDesc | union => true
  | _ => false

/-- The complaint about a node that is no object. -/
def LoadError.noObject (path : Path) (node : Node) : LoadError :=
  ⟨path, .malformed (.notAnObject node.shape)⟩

/-- The complaint about a node names the path at which it stands. -/
theorem within_noObject {α : Type} (path : Path) (node : Node) :
    LoadResult.within path (.error (.noObject [] node) : LoadResult α) =
      .error (.noObject path node) := by
  simp [LoadResult.within, Except.mapError, LoadError.within, LoadError.noObject]

section Misfits

variable {node : Node} (noObject : node.shape ≠ .object)
include noObject

/-- What is no object has no fields. -/
theorem field?_of_misfit (field : String) : node.field? field = none := by
  cases node with
  | object entries => exact absurd rfl noObject
  | _ => rfl

/-- A field of what is no object is blamed on the shape. -/
theorem field_of_misfit (field : String) :
    node.field field = .error (.notAnObject node.shape) := by
  rw [Node.field_eq, if_neg noObject]

/-- A misfit of a kind that is keyed has no name, and is blamed for it. -/
theorem identityName_of_misfit {kind : Kind} (keyed : kind.isKeyed = true)
    (noText : kind = .basic → node.shape ≠ .string) :
    identityName kind node = .error (.noObject [] node) := by
  have text : kind = .basic → node.string? = none := by
    intro basic
    cases node with
    | string text => exact absurd rfl (noText basic)
    | _ => rfl
  have unnamed : (liftM (node.readString "name") : LoadResult String) =
      .error (.noObject [] node) := by
    rw [Node.readString, field_of_misfit noObject]
    rfl
  simp only [identityName, keyed, unnamed]
  cases kind <;> simp_all

/-- A required field of a misfit is blamed on the misfit. -/
theorem FieldReading.run_of_misfit {draft : Draft} {field : String} {reading : FieldReading}
    (required : reading.isRequired = true) :
    reading.run draft node field = .error (.noObject [] node) := by
  have unread := field_of_misfit noObject field
  cases reading with
  | text | index | indices | key =>
      simp only [run, Node.readString, Node.readInt, Node.readArray, Draft.readIndex,
        Draft.readIndexList, Draft.readKey, unread]
      rfl
  | _ => cases required

/-- A field that has to be there comes first, if an entry is not refused by its name before. -/
theorem Construct.ofNode_of_misfit {draft : Draft} {kind : Kind} {placement : Placement}
    (suits : placement.Suits kind) (unkeyed : kind.isKeyed = false)
    (strict : kind.isOptional = false) :
    ofNode draft kind placement node = .error (.noObject [] node) := by
  have first : ∃ field reading rest, kind.readings = (field, reading) :: rest ∧
      reading.isRequired = true := by
    cases kind with
    | solid | interfaceInst | objectInst | methodInst => exact ⟨_, _, _, rfl, rfl⟩
    | interfaceDesc | signature | structDesc | union => cases strict
    | _ => cases unkeyed
  have other : kind ≠ .basic := by
    rintro rfl
    cases unkeyed
  obtain ⟨field, reading, rest, readings, required⟩ := first
  rw [← outcome_eq_error_iff, outcome_ofNode suits other, Kind.runAll, readings,
    List.forM_eq_forM, List.forM_cons]
  simp only [FieldReading.run_of_misfit noObject required, error_bind]

/-- Where all fields are optional, a misfit is read as the empty object. -/
theorem Construct.ofTypeNode_of_misfit {draft : Draft} {kind : Kind}
    (lenient : kind.isOptional = true) :
    ofTypeNode draft kind node = ofTypeNode draft kind (.object []) := by
  have none (field : String) := field?_of_misfit noObject field
  have noneToo (field : String) : (Node.object []).field? field = .none := rfl
  cases kind with
  | interfaceDesc | signature | structDesc | union =>
      simp only [ofTypeNode, InterfaceDesc.ofNode, Signature.ofNode, StructDesc.ofNode,
        Argument.readList, Node.readObjectOrEmpty, Node.readArrayOrEmpty, Node.optionalBool,
        Draft.readIndexListOrEmpty, none, noneToo]
  | _ => cases lenient

end Misfits

/-! ## Failures before a node is looked at -/

namespace LoadResult

variable {α β γ : Type} {misfits : Node → Prop} {complaint : Node → LoadError}
  {run : Node → LoadResult α}

/-- What depends on a node fails in the same way whatever the node is, or fails over each node that
does not fit. -/
def StopsAt (misfits : Node → Prop) (complaint : Node → LoadError) (run : Node → LoadResult α) :
    Prop :=
  (∃ earlier, ∀ node, run node = .error earlier) ∨
    ∀ node, misfits node → run node = .error (complaint node)

/-- What stops a step stops what comes behind it. -/
theorem StopsAt.bind (stops : StopsAt misfits complaint run) (next : Node → α → LoadResult β) :
    StopsAt misfits complaint fun node => run node >>= next node := by
  rcases stops with ⟨earlier, fails⟩ | fails
  · exact .inl ⟨earlier, fun node => by simp only [fails node, error_bind]⟩
  · exact .inr fun node misfit => by simp only [fails node misfit, error_bind]

/-- What comes before is not concerned with the node. -/
theorem StopsAt.after {first : LoadResult α} {next : Node → α → LoadResult β}
    (stops : ∀ value, first = .ok value → StopsAt misfits complaint fun node => next node value) :
    StopsAt misfits complaint fun node => first >>= next node := by
  cases first with
  | ok value => exact stops value rfl
  | error error => exact .inl ⟨error, fun _ => rfl⟩

/-- Steps in a row stop at an item, if nothing before it depends on the misfit. -/
theorem StopsAt.mapM {items : List γ} {read : Node → γ → LoadResult β}
    (each : ∀ item ∈ items, (∀ node node', read node item = read node' item) ∨
      StopsAt misfits complaint fun node => read node item) {item : γ} (member : item ∈ items)
    (stops : StopsAt misfits complaint fun node => read node item) :
    StopsAt misfits complaint fun node => items.mapM (read node) := by
  induction items with
  | nil => cases member
  | cons head rest ih =>
      obtain ⟨first, later⟩ := List.forall_mem_cons.mp each
      simp only [List.mapM_cons]
      rcases first with constant | stopsFirst
      · have same (node : Node) : read node head = read .null head := constant node .null
        simp only [same]
        rcases List.mem_cons.mp member with rfl | inside
        · simp only [same] at stops
          exact stops.bind _
        · exact .after fun _ _ => (ih later inside).bind _
      · exact stopsFirst.bind _

end LoadResult

/-! ## Misfits in the first pass -/

namespace Entry

variable {kind : Kind} (keyed : kind.isKeyed = true)

/-- A misfit of a kind that is keyed cannot be reserved. -/
theorem ofNode_of_misfit {placement : Placement} {path : Path} {node : Node}
    (keyed : kind.isKeyed = true) (misfits : kind.Misfits node) :
    ofNode kind placement path node = .error (.noObject path node) := by
  rw [ofNode, identityName_of_misfit misfits.noObject keyed misfits.noText, within_noObject,
    error_bind]

include keyed

/-- A misfit stops the list in which it stands. -/
theorem readList_stops {owner old : Node} {field : String} {position : Nat}
    (leads : owner.follow [.field field, .index position] = some old) (outer : Path)
    (placement : Placement) :
    StopsAt kind.Misfits (.noObject (outer ++ [.field field, .index position])) fun node =>
      readList (owner.put [.field field, .index position] node) outer placement field kind := by
  obtain ⟨items, item, present, here, -⟩ := Node.exists_items_of_follow leads
  have listed : (item, position) ∈ items.zipIdx := List.mem_zipIdx_iff_getElem?.mpr here
  have list := Node.readArrayOrEmpty_eq_ok_iff.mpr (.inr present)
  simp only [readList, Node.readArrayOrEmpty_put, list, map_ok, Node.put_nil]
  change StopsAt _ _ fun node => List.mapM _ (items.modify position fun _ => node).zipIdx
  simp only [zipIdx_modify, List.mapM_map]
  refine .mapM ?_ listed ?_
  · rintro ⟨other, index⟩ -
    by_cases same : index = position
    · subst same
      exact .inr (.inr fun node misfits => by
        simpa using ofNode_of_misfit keyed misfits)
    · exact .inl fun node node' => by simp [same]
  · exact .inr fun node misfits => by simpa using ofNode_of_misfit keyed misfits

/-- A misfit stops the lists of an owner. -/
theorem readLists_stops {lists : List (String × Kind)}
    (own : lists = Allocation.typeLists ∨ lists = Allocation.memberLists) {owner old : Node}
    {field : String}
    {position : Nat} (listed : (field, kind) ∈ lists)
    (leads : owner.follow [.field field, .index position] = some old) (outer : Path)
    (placement : Placement) :
    StopsAt kind.Misfits (.noObject (outer ++ [.field field, .index position])) fun node =>
      lists.mapM fun (field', kind') =>
        readList (owner.put [.field field, .index position] node) outer placement field' kind' := by
  refine .mapM ?_ listed (readList_stops keyed leads outer placement)
  rintro ⟨field', kind'⟩ listed'
  by_cases same : field' = field
  · subst same
    cases kind_unique own listed listed'
    exact .inr (readList_stops keyed leads outer placement)
  · refine .inl fun node node' => readList_congr ?_ _ _ _
    rw [Node.field?_put_of_ne _ _ _ _ same, Node.field?_put_of_ne _ _ _ _ same]

/-- A misfit among the members stops its package. -/
theorem readMember_stops {package old : Node} {field : String} {position : Nat}
    (listed : (field, kind) ∈ Allocation.memberLists)
    (leads : package.follow [.field field, .index position] = some old) (id : Nat) (path : Path) :
    StopsAt kind.Misfits (.noObject (path ++ [.field field, .index position])) fun node =>
      readPackage id path (package.put [.field field, .index position] node) := by
  have other : field ≠ "name" := by
    rintro rfl
    simp [Allocation.memberLists] at listed
  have named : Kind.package.SparesName [.field field, .index position] := fun _ =>
    ⟨_, _, rfl, fun same => other (Step.field.inj same)⟩
  simp only [readPackage, ofNode_put named]
  cases ofNode .package .topLevel path package with
  | error error => exact .inl ⟨error, fun _ => rfl⟩
  | ok entry => exact (readLists_stops keyed (.inr rfl) listed leads path _).bind _

omit keyed in
/-- What stops one package stops all packages. -/
theorem readPackages_stops {misfits : Node → Prop} {complaint : Node → LoadError}
    {nodes : List Node} {package : Node} {inner : Path} (id : Nat) {position offset : Nat}
    (here : nodes[offset]? = some package)
    (stops : ∀ first, StopsAt misfits complaint fun node =>
      readPackage first [.field "packages", .index (position + offset)] (package.put inner node)) :
    StopsAt misfits complaint fun node =>
      readPackages id position (nodes.modify offset fun package => package.put inner node) := by
  induction nodes generalizing id position offset with
  | nil => cases here
  | cons first rest ih =>
      cases offset with
      | zero =>
          cases here
          simp only [List.modify_zero_cons, readPackages]
          exact (stops id).bind _
      | succ offset =>
          simp only [List.modify_succ_cons, readPackages]
          refine .after fun entries _ => (ih _ here fun first => ?_).bind _
          rw [Nat.add_assoc, Nat.add_comm 1]
          exact stops first

omit keyed in
/-- A package is reached once the types are read, which are not concerned with it. -/
theorem ofDocument_stops_in_package {misfits : Node → Prop} {complaint : Node → LoadError}
    {document old : Node} {position : Nat} {inner : Path}
    (leads : document.follow (.field "packages" :: .index position :: inner) = some old)
    (stops : ∀ (package : Node) (first : Nat), package.follow inner = some old →
      StopsAt misfits complaint fun node =>
        readPackage first [.field "packages", .index position] (package.put inner node)) :
    StopsAt misfits complaint fun node =>
      ofDocument (document.put (.field "packages" :: .index position :: inner) node) := by
  obtain ⟨items, package, present, here, below⟩ := Node.exists_items_of_follow leads
  have list := Node.readArrayOrEmpty_eq_ok_iff.mpr (.inr present)
  have types (rest : Path) (node : Node) : (Allocation.typeLists.mapM fun (field, kind) =>
      readList (document.put (.field "packages" :: rest) node) [] .topLevel field kind) =
        Allocation.typeLists.mapM fun (field, kind) => readList document [] .topLevel field kind :=
    readLists_congr (fun (field, kind) member =>
      Node.field?_put_of_ne document _ rest node (ne_packages_of_typeLists member)) _ _
  simp only [ofDocument, types, Node.readArrayOrEmpty_put, list, map_ok]
  refine .after fun lists _ => ?_
  have owned := readPackages_stops lists.flatten.length here fun first =>
    (Nat.zero_add position).symm ▸ stops package first below
  exact owned.bind _

/-- The first pass fails before it comes to an entry that is reserved by its name, or over it. -/
theorem ofDocument_stops {path : Path} (stands : kind.StandsAt path) {document old : Node}
    (leads : document.follow path = some old) :
    StopsAt kind.Misfits (.noObject path) fun node => ofDocument (document.put path node) := by
  cases stands with
  | type listed position =>
      simp only [ofDocument]
      exact (readLists_stops keyed (.inl rfl) listed leads [] .topLevel).bind _
  | package position =>
      refine ofDocument_stops_in_package leads fun package first _ => ?_
      simp only [Node.put_nil, readPackage]
      refine StopsAt.bind (.inr fun node misfits => ?_) _
      exact ofNode_of_misfit keyed misfits
  | member listed package position =>
      exact ofDocument_stops_in_package leads fun package first below =>
        readMember_stops keyed listed below first _

end Entry

namespace Project

variable {document node : Node} {kind : Kind} {path : Path} (stands : kind.StandsAt path)
  (leads : document.follow path = some node)

/-- Packages are keyed. -/
theorem ne_package_of_unkeyed (unkeyed : kind.isKeyed = false) : kind ≠ .package := by
  rintro rfl
  cases unkeyed

section Unkeyed

variable (unkeyed : kind.isKeyed = false)
include stands unkeyed

/-- An entry that is not reserved by its name is not looked at before the second pass. -/
theorem load_put_unkeyed (document new : Node) :
    load (document.put path new) = do
      let _ ← document.expectObject
      let entries ← Entry.ofDocument document
      let constructs ← entries.mapM fun entry =>
        (entry.put path new).construct (Draft.ofEntries entries)
      return ofConstructs document entries constructs := by
  have named : kind.SparesName [] := fun keyed => by simp [unkeyed] at keyed
  have spares := stands.spares named fun package =>
    absurd package (ne_package_of_unkeyed unkeyed)
  rw [List.append_nil] at spares
  exact load_put spares document new

/-- A change of an entry that is not keyed changes this entry alone. -/
theorem construct_put_unkeyed {entries : List Entry}
    (reserved : Entry.ofDocument document = .ok entries) {entry : Entry}
    (member : entry ∈ entries) :
    (∀ new draft, (entry.put path new).construct draft = entry.construct draft) ∨
      entry.kind = kind ∧ entry.path = path := by
  have either := Entry.construct_put reserved stands (fun package _ rest (_ : [] = _ :: rest) =>
    absurd package (ne_package_of_unkeyed unkeyed)) entry member
  rwa [List.append_nil] at either

end Unkeyed

include stands leads

/-- A document with a changed entry is still an object. -/
theorem shape_put_entry (new : Node) : (document.put path new).shape = .object := by
  obtain ⟨field, rest, rfl⟩ : ∃ field rest, path = .field field :: rest := by
    cases stands <;> exact ⟨_, _, rfl⟩
  obtain ⟨value, found, -⟩ := Option.bind_eq_some_iff.mp leads
  rw [Node.shape_put_cons]
  cases document with
  | object entries => rfl
  | _ => cases found

/-- A load fails before it comes to an entry with a field that has to be there, or over it. -/
theorem load_stops (strict : kind.isOptional = false) :
    StopsAt kind.Misfits (.noObject path) fun new => load (document.put path new) := by
  cases keyed : kind.isKeyed with
  | true =>
      simp only [load_eq, expectObject_eq (shape_put_entry stands leads _), ok_bind]
      exact (Entry.ofDocument_stops keyed stands leads).bind _
  | false =>
      simp only [load_put_unkeyed stands keyed]
      refine .after fun _ _ => .after fun entries reserved => StopsAt.bind ?_ _
      have refused (entry : Entry) (member : entry ∈ entries) (same : entry.kind = kind)
          (here : entry.path = path) : StopsAt kind.Misfits (.noObject path) fun new =>
            (entry.put path new).construct (Draft.ofEntries entries) := by
        subst same here
        have suits := (Entry.standsIn_of_ofDocument reserved entry member).suits
        refine .inr fun new misfits => ?_
        simp only [Entry.put_self, Entry.construct,
          Construct.ofNode_of_misfit misfits.noObject suits keyed strict, within_noObject]
      obtain ⟨entry, member, same, here, -⟩ := Entry.exists_entry_of_follow reserved stands leads
      refine .mapM (fun other inside => ?_) member (refused entry member same here)
      rcases construct_put_unkeyed stands keyed reserved inside with unchanged | ⟨same, here⟩
      · exact .inl fun _ _ => by rw [unchanged, unchanged]
      · exact .inr (refused other inside same here)

/-- What stands in the place of an entry with optional fields only is read as one without
fields. -/
theorem load_eq_of_misfit (lenient : kind.isOptional = true) (misfits : kind.Misfits node) :
    load document = load (document.put path (.object [])) := by
  have unkeyed : kind.isKeyed = false := by
    cases kind <;> first | rfl | cases lenient
  calc load document
      = load (document.put path node) := by rw [Node.put_of_follow leads]
    _ = load (document.put path (.object [])) := ?_
  rw [load_put_unkeyed stands unkeyed, load_put_unkeyed stands unkeyed]
  cases (liftM document.expectObject : LoadResult _) with
  | error error => rfl
  | ok fields =>
      cases reserved : Entry.ofDocument document with
      | error error => rfl
      | ok entries =>
          simp only [ok_bind]
          congr 1
          refine mapM_congr fun entry member => ?_
          rcases construct_put_unkeyed stands unkeyed reserved member with unchanged | ⟨same, here⟩
          · rw [unchanged, unchanged]
          · subst same here
            have suits := (Entry.standsIn_of_ofDocument reserved entry member).suits
            have placed : entry.placement = .topLevel := by
              generalize entry.placement = placement at suits
              generalize entry.kind = kind at suits lenient
              cases placement with
              | topLevel => rfl
              | member owner =>
                  cases kind <;> simp_all [Placement.Suits, Allocation.memberLists, Kind.isOptional]
              | package members => simp_all [Placement.Suits, Kind.isOptional]
            simp only [Entry.put_self, Entry.construct, placed, Construct.ofNode,
              Construct.ofTypeNode_of_misfit misfits.noObject lenient]

/-- **What stands in the place of an entry has to be an object, unless all fields of the entry are
optional.** Where a document has something else in the place of an entry, and no text in the place
of a basic, it does not load: it is refused over that entry, or it fails before it comes to it, in
the same way as with anything else there. An interface description, a signature, a structure or a
union has optional fields only, and anything but an object in its place is read as one without
fields. -/
theorem load_misfit (misfits : kind.Misfits node) :
    if kind.isOptional then load document = load (document.put path (.object []))
    else ∃ error, load document = .error error ∧
      (error = ⟨path, .malformed (.notAnObject node.shape)⟩ ∨
        ∀ other, load (document.put path other) = .error error) := by
  cases lenient : kind.isOptional with
  | true => exact load_eq_of_misfit stands leads lenient misfits
  | false =>
      have here := Node.put_of_follow leads
      rcases load_stops stands leads lenient with ⟨earlier, fails⟩ | fails
      · exact ⟨earlier, here ▸ fails node, .inr fails⟩
      · exact ⟨_, here ▸ fails node misfits, .inl rfl⟩

omit stands leads in
/-- A number in the place of a solid is refused. -/
theorem load_misfit_sample :
    Kind.solid.StandsAt [.field "solids", .index 0] ∧
      Kind.solid.Misfits (.number (.integer 5)) ∧
      ∃ error, load (.object [("solids", .array [.number (.integer 5)])]) = .error error ∧
        (error = ⟨[.field "solids", .index 0], .malformed (.notAnObject .number)⟩ ∨
          ∀ other, load ((Node.object [("solids", .array [.number (.integer 5)])]).put
            [.field "solids", .index 0] other) = .error error) := by
  have stands : Kind.solid.StandsAt [.field "solids", .index 0] := .type (by decide) 0
  have misfits : Kind.solid.Misfits (.number (.integer 5)) := ⟨by decide, by decide⟩
  exact ⟨stands, misfits, load_misfit stands rfl misfits⟩

omit stands leads in
/-- A number in the place of a union is a union without terms. -/
theorem load_number_as_union :
    Kind.union.StandsAt [.field "unions", .index 0] ∧
      Kind.union.Misfits (.number (.integer 5)) ∧
      ∃ project, load (.object [("unions", .array [.number (.integer 5)])]) = .ok project ∧
        project.constructs = [.union ⟨[], []⟩] :=
  ⟨.type (by decide) 0, ⟨by decide, by decide⟩, _, rfl, rfl⟩

end Project

end CodeGraph

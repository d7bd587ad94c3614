import CodeGraph.Proofs.Document.Paths
import CodeGraph.Proofs.Document.Reading
import CodeGraph.Proofs.Keys.Spelling
import CodeGraph.Proofs.Validity.Rules
import Mathlib.Data.List.Nodup
import Mathlib.Data.List.Perm.Basic
import Mathlib.Logic.Relation

/-! # Spellings of a document

What a node may hold depends on its place in the document (`CodeGraph.Place`), which says what
fields an object has there and how they are read (`CodeGraph.Place.parts`). A document can be
spelled in more than one way: keys come in any order, keys without a meaning may be added, a field
may be absent or blank, and basics and keys of methods have two forms. One such rewrite
(`CodeGraph.Node.Respells`) leaves every field of every place as it is, leaves it out, or rewrites
its value (`CodeGraph.Node.Alike.part`).
-/

namespace CodeGraph

/-! ## The format -/

/-- How a field is read. -/
inductive Use
  /-- The field has to be there. -/
  | required
  /-- The field may be absent. -/
  | optional
  /-- A list, empty where the field is absent. -/
  | list
  /-- A map, empty where the field is absent. -/
  | map
  /-- A text, empty unless the field holds one. -/
  | text
  /-- A truth value, false unless the field holds one. -/
  | flag

namespace Use

/-- The values that say no more than the absence of the field. -/
def Blank : Use → Node → Prop
  | required, value => value = .null
  | optional, value => value = .null
  | list, value => value = .null ∨ value = .array []
  | map, value => value = .null ∨ value = .object []
  | text, value => value.string? = none
  | flag, value => value.bool? = none

end Use

/-- What is expected of a node, by where it stands. -/
inductive Place
  | document
  | entry (kind : Kind)
  /-- A parameter or a result. -/
  | argument
  /-- A field of a structure. -/
  | field
  /-- A named abstract method. -/
  | abstract
  /-- The older map of abstract methods, each of whose keys is the name of one. -/
  | methods
  /-- The key of a method. -/
  | key
  | list (item : Place)
  /-- A scalar, or any place that the format says nothing about. -/
  | plain

/-- A field that an object has. -/
structure Part where
  name : String
  use : Use
  place : Place

namespace Part

/-- A text, an index or another scalar that has to be there. -/
def scalar (name : String) : Part := ⟨name, .required, .plain⟩

/-- A scalar that may be absent. -/
def scalar? (name : String) : Part := ⟨name, .optional, .plain⟩

def text (name : String) : Part := ⟨name, .text, .plain⟩

def flag (name : String) : Part := ⟨name, .flag, .plain⟩

/-- The key of a method, which has to be there. -/
def key (name : String) : Part := ⟨name, .required, .key⟩

/-- A list that may be absent. -/
def list (name : String) (item : Place) : Part := ⟨name, .list, .list item⟩

/-- A list of indices that has to be there. -/
def indices (name : String) : Part := ⟨name, .required, .list .plain⟩

def methods : Part := ⟨"methods", .map, .methods⟩

/-- Optional lists of entries. -/
def entryLists (lists : List (String × Kind)) : List Part :=
  lists.map fun (field, kind) => list field (.entry kind)

/-- What every declaration has. -/
def header : List Part := [scalar "name", text "loc", list "typeParams" .plain]

end Part

namespace Place

/-- The fields that an object has in a place. -/
@[simp]
def parts : Place → List Part
  | document =>
    .text "language" :: .list "packages" (entry .package) :: Part.entryLists Allocation.typeLists
  | entry .basic => [.scalar "name"]
  | entry .interfaceDesc =>
    [.methods, .list "abstracts" abstract, .list "exact" plain, .list "approx" plain,
      .list "inherits" plain]
  | entry .named => [.scalar "name", .scalar "type"]
  | entry .signature =>
    [.list "typeParams" plain, .list "params" argument, .list "results" argument, .flag "variadic"]
  | entry .solid => [.scalar "target", .indices "typeArgs"]
  | entry .structDesc => [.list "fields" field]
  | entry .union => [.list "exact" plain, .list "approx" plain]
  | entry .interfaceDecl => Part.header ++ [.scalar "interface"]
  | entry .interfaceInst => [.scalar "decl", .indices "instanceTypes", .scalar "resolved"]
  | entry .objectDecl => Part.header ++ [.scalar "data", .list "methods" key]
  | entry .objectInst =>
    [.scalar "decl", .indices "instanceTypes", .scalar "resolved", .list "methods" plain]
  | entry .methodDecl => Part.header ++ [.scalar "signature", .scalar? "receiver"]
  | entry .methodInst =>
    [.key "decl", .indices "instanceTypes", .scalar "resolved", .scalar? "receiver"]
  | entry .value => [.scalar "name", .text "loc", .scalar? "type", .flag "isConst"]
  | entry .package =>
    .scalar "name" :: .text "path" :: .list "imports" plain ::
      Part.entryLists Allocation.memberLists
  | argument => [.text "name", .scalar "type"]
  | field => [.scalar "name", .scalar "type", .flag "embedded"]
  | abstract => [.scalar "name", .scalar "signature"]
  | methods | key | list _ | plain => []

/-- Whether a key has a meaning in a place. In the map of methods every key has one. -/
def Knows (place : Place) (key : String) : Prop :=
  place = methods ∨ key ∈ place.parts.map Part.name

/-- The place of the value of a key. -/
def ofField (place : Place) (key : String) : Place :=
  ((place.parts.find? fun part => part.name = key).map Part.place).getD plain

/-- The place of the items of an array. -/
def item : Place → Place
  | list place => place
  | _ => plain

/-- The parts of a place have different names. -/
theorem nodup_parts (place : Place) : (place.parts.map Part.name).Nodup := by
  cases place with
  | entry kind => cases kind <;> decide
  | list item => exact List.nodup_nil
  | _ => decide

/-- A part of a place is told by its name. -/
theorem part_eq_of_name {place : Place} {part other : Part} (member : part ∈ place.parts)
    (memberToo : other ∈ place.parts) (same : part.name = other.name) : part = other :=
  List.inj_on_of_nodup_map place.nodup_parts member memberToo same

/-- A field has the place that the format gives it. -/
theorem ofField_name {place : Place} {part : Part} (member : part ∈ place.parts) :
    place.ofField part.name = part.place := by
  cases found : place.parts.find? fun other => other.name = part.name with
  | none =>
      have absent := List.find?_eq_none.mp found part member
      simp at absent
  | some other =>
      have same : other.name = part.name := by simpa using List.find?_some found
      cases part_eq_of_name (List.mem_of_find?_eq_some found) member same
      rw [ofField, found]
      rfl

end Place

namespace Node

/-! ## Rewrites -/

/-- One rewrite of a node in a place, or of a node below it. Objects are maps, so a document can be
written with their entries in any order. -/
inductive Respells : Place → Node → Node → Prop
  | reorder {place : Place} {entries entries' : List (String × Node)}
    (keys : (entries.map Prod.fst).Nodup) (order : entries.Perm entries') :
    Respells place (object entries) (object entries')
  /-- A key without a meaning is added. -/
  | stray {place : Place} {before after : List (String × Node)} {key : String} (value : Node)
    (unknown : ¬ place.Knows key) :
    Respells place (object (before ++ after)) (object (before ++ (key, value) :: after))
  /-- A field that is absent is given a value that says no more. -/
  | blank {place : Place} {before after : List (String × Node)} {part : Part} {value : Node}
    (expected : part ∈ place.parts) (absent : part.name ∉ (before ++ after).map Prod.fst)
    (blank : part.use.Blank value) :
    Respells place (object (before ++ after)) (object (before ++ (part.name, value) :: after))
  /-- The short form of a basic is written out. -/
  | basic (name : String) :
    Respells (.entry .basic) (string name) (object [("name", string name)])
  /-- Name and ordinal of a key are parted by a sign. -/
  | key {name digits : List Char} (unparted : '#' ∉ name) (short : digits.all Char.isDigit)
    (longest : ∀ last ∈ name.getLast?, ¬ last.isDigit) :
    Respells .key (string (.ofList (name ++ digits))) (string (.ofList (name ++ '#' :: digits)))
  | inField {place : Place} {before after : List (String × Node)} {key : String}
    {value value' : Node} (inner : Respells (place.ofField key) value value') :
    Respells place (object (before ++ (key, value) :: after))
      (object (before ++ (key, value') :: after))
  | inItem {place : Place} {before after : List Node} {item item' : Node}
    (inner : Respells place.item item item') :
    Respells place (array (before ++ item :: after)) (array (before ++ item' :: after))

/-- Nodes that differ by one rewrite, in either direction, if they differ at all. -/
inductive Alike (place : Place) : Node → Node → Prop
  | refl (node : Node) : Alike place node node
  | step {node node' : Node} (rewrite : Respells place node node') : Alike place node node'
  | back {node node' : Node} (rewrite : Respells place node' node) : Alike place node node'

/-- Nodes that are alike are so both ways. -/
theorem Alike.symm {place : Place} {node node' : Node} (alike : Alike place node node') :
    Alike place node' node := by
  cases alike with
  | refl => exact .refl node
  | step rewrite => exact .back rewrite
  | back rewrite => exact .step rewrite

/-- Two nodes have the same to say in a field: nothing that says more than its absence, or values
that are alike. -/
inductive PartAlike (part : Part) (node node' : Node) : Prop
  | blank (left : ∀ value ∈ node.field? part.name, part.use.Blank value)
    (right : ∀ value ∈ node'.field? part.name, part.use.Blank value)
  | there {value value' : Node} (present : node.field? part.name = some value)
    (present' : node'.field? part.name = some value') (alike : Alike part.place value value')

theorem PartAlike.symm {part : Part} {node node' : Node} (same : PartAlike part node node') :
    PartAlike part node' node := by
  cases same with
  | blank left right => exact .blank right left
  | there present present' alike => exact .there present' present alike.symm

/-- A part that two nodes share is alike in both. -/
theorem PartAlike.of_eq {part : Part} {node node' : Node}
    (same : node.field? part.name = node'.field? part.name) : PartAlike part node node' := by
  cases present : node.field? part.name with
  | none => exact .blank (by simp [present]) (by simp [← same, present])
  | some value => exact .there present (same ▸ present) (.refl value)

/-! ## What a rewrite does to fields -/

section Lookup

variable {entries entries' before after : List (String × Node)} {asked key : String}

/-- The order of entries with distinct keys does not matter to a look-up. -/
theorem lookup_eq_of_perm (keys : (entries.map Prod.fst).Nodup) (order : entries.Perm entries') :
    entries.lookup asked = entries'.lookup asked := by
  have keys' : (entries'.map Prod.fst).Nodup := (order.map Prod.fst).nodup_iff.mp keys
  apply Option.ext
  intro value
  constructor
  · intro found
    obtain ⟨before, after, rfl, -⟩ := List.lookup_eq_some_iff.mp found
    exact lookup_of_mem keys' (order.mem_iff.mp (by simp))
  · intro found
    obtain ⟨before, after, rfl, -⟩ := List.lookup_eq_some_iff.mp found
    exact lookup_of_mem keys (order.mem_iff.mpr (by simp))

/-- An entry does not matter to a look-up of another key. -/
theorem lookup_append_cons_of_ne (other : asked ≠ key) (value : Node) :
    (before ++ (key, value) :: after).lookup asked = (before ++ after).lookup asked := by
  rw [List.lookup_append, List.lookup_append, lookup_cons, if_neg other]

/-- A key that no entry has is not found. -/
theorem lookup_eq_none_of_not_mem (absent : asked ∉ entries.map Prod.fst) :
    entries.lookup asked = none := by
  rw [List.lookup_eq_none_iff]
  intro entry member
  have different : asked ≠ entry.1 := by
    rintro rfl
    exact absent (List.mem_map_of_mem member)
  simpa using different

end Lookup

/-- A field depends on what is found under its name. -/
theorem field?_eq_of_lookup {entries entries' : List (String × Node)} {name : String}
    (same : entries.lookup name = entries'.lookup name) :
    (object entries).field? name = (object entries').field? name := by
  simp only [field?, get?, same]

/-- A field that is there is not null. -/
theorem field?_ne_null {node value : Node} {name : String}
    (present : node.field? name = some value) : value ≠ .null := by
  have shaped := (Option.filter_eq_some_iff.mp present).2
  rintro rfl
  simp [shape] at shaped

/-- What is found under a name is a field, if it is not null. -/
theorem field?_object_of_lookup {entries : List (String × Node)} {name : String} {value : Node}
    (found : entries.lookup name = some value) (there : value ≠ .null) :
    (object entries).field? name = some value := by
  rw [field?, get?, found, Option.filter_some, if_pos]
  cases value <;> simp_all [shape]

/-- What is rewritten is there, and stays. -/
theorem Respells.ne_null {place : Place} {node node' : Node}
    (rewrite : Respells place node node') : node ≠ .null ∧ node' ≠ .null := by
  cases rewrite <;> simp

/-- A rewrite leaves a field as it is, leaves it out or rewrites its value, unless it changes the
form of a basic. -/
theorem Respells.part {place : Place} {node node' : Node} (rewrite : Respells place node node')
    {part : Part} (member : part ∈ place.parts) :
    PartAlike part node node' ∨ place = .entry .basic ∧
      ∃ name, node = string name ∧ node' = object [("name", string name)] := by
  cases rewrite with
  | reorder keys order =>
      exact .inl (.of_eq (field?_eq_of_lookup (lookup_eq_of_perm keys order)))
  | @stray _ before after key value unknown =>
      have other : part.name ≠ key := by
        rintro rfl
        exact unknown (.inr (List.mem_map_of_mem member))
      exact .inl (.of_eq (field?_eq_of_lookup (lookup_append_cons_of_ne other value).symm))
  | @blank _ before after added value expected absent blank =>
      left
      by_cases same : part.name = added.name
      · cases Place.part_eq_of_name member expected same
        refine .blank ?_ ?_
        · intro found present
          have present := get?_of_field? present
          rw [get?, lookup_eq_none_of_not_mem absent] at present
          cases present
        · intro found present
          have present := get?_of_field? present
          rw [List.map_append, List.mem_append, not_or] at absent
          rw [get?, List.lookup_append, lookup_eq_none_of_not_mem absent.1, Option.none_or,
            lookup_cons, if_pos rfl] at present
          cases present
          exact blank
      · exact .of_eq (field?_eq_of_lookup (lookup_append_cons_of_ne same value).symm)
  | basic name => exact .inr ⟨rfl, name, rfl, rfl⟩
  | key => cases member
  | @inField _ before after key value value' inner =>
      left
      by_cases same : part.name = key
      · subst same
        cases earlier : before.lookup part.name with
        | some found =>
            apply PartAlike.of_eq (field?_eq_of_lookup _)
            rw [List.lookup_append, List.lookup_append, earlier]
            rfl
        | none =>
            have found (value : Node) :
                (before ++ (part.name, value) :: after).lookup part.name = some value := by
              rw [List.lookup_append, earlier, Option.none_or, lookup_cons, if_pos rfl]
            obtain ⟨there, thereToo⟩ := inner.ne_null
            rw [Place.ofField_name member] at inner
            exact .there (field?_object_of_lookup (found value) there)
              (field?_object_of_lookup (found value') thereToo) (.step inner)
      · apply PartAlike.of_eq (field?_eq_of_lookup _)
        rw [lookup_append_cons_of_ne same, lookup_append_cons_of_ne same]
  | inItem => exact .inl (.of_eq rfl)

/-- A rewrite of a basic changes its form, or it is an object with the same name. -/
theorem Respells.basic_cases {node node' : Node} (rewrite : Respells (.entry .basic) node node') :
    node.string? = none ∧ node'.string? = none ∧ PartAlike (.scalar "name") node node' ∨
      ∃ name, node = string name ∧ node' = object [("name", string name)] := by
  have named : Part.scalar "name" ∈ (Place.entry .basic).parts := by simp
  have same := rewrite.part named
  cases rewrite with
  | basic name => exact .inr ⟨name, rfl, rfl⟩
  | _ =>
      rcases same with same | ⟨-, name, impossible, -⟩
      · exact .inl ⟨rfl, rfl, same⟩
      · cases impossible

/-! ## What readers see of nodes that are alike -/

section Views

variable {α : Type} {related : α → α → Prop} {found found' : Option α}

theorem optionRel_flip (symm : ∀ first second, related first second → related second first)
    (both : Option.Rel related found found') : Option.Rel related found' found := by
  cases both with
  | none => exact .none
  | some both => exact .some (symm _ _ both)

theorem optionRel_of_map_eq {β : Type} {f : α → β} (same : found.map f = found'.map f) :
    Option.Rel (fun value value' => f value = f value') found found' := by
  cases found <;> cases found' <;> simp_all

theorem optionRel_of_eq (same : found = found') : Option.Rel Eq found found' :=
  optionRel_of_map_eq (congrArg (Option.map id) same)

/-- What has one of two related options has the other, too. -/
theorem exists_of_optionRel (both : Option.Rel related found found') {value : α}
    (here : found = some value) : ∃ value', found' = some value' ∧ related value value' := by
  subst here
  cases both with
  | some same => exact ⟨_, rfl, same⟩

end Views

/-- What holds of a node and itself, in both directions, and of every rewrite holds of nodes that
are alike. -/
theorem Alike.of_rewrites {place : Place} {motive : ∀ node node', Alike place node node' → Prop}
    (refl : ∀ node, motive node node (.refl node))
    (symm : ∀ node node' alike, motive node node' alike → motive node' node alike.symm)
    (step : ∀ node node' rewrite, motive node node' (.step rewrite)) {node node' : Node}
    (alike : Alike place node node') : motive node node' alike := by
  cases alike with
  | refl => exact refl node
  | step rewrite => exact step node node' rewrite
  | back rewrite => exact symm node' node (.step rewrite) (step node' node rewrite)

/-- Nodes that are alike have the same to say in every field. Only a basic can be no object. -/
theorem Alike.part {place : Place} {node node' : Node} (alike : Alike place node node')
    (object : place ≠ .entry .basic) {part : Part} (member : part ∈ place.parts) :
    PartAlike part node node' := by
  induction alike using Alike.of_rewrites with
  | refl node => exact .of_eq rfl
  | symm node node' _ same => exact same.symm
  | step node node' rewrite =>
      rcases rewrite.part member with same | ⟨basic, -⟩
      · exact same
      · exact absurd basic object

/-- Documents that are alike have one shape. -/
theorem Alike.shape_eq {document document' : Node} (alike : Alike .document document document') :
    document.shape = document'.shape := by
  induction alike using Alike.of_rewrites with
  | refl document => rfl
  | symm document document' _ same => exact same.symm
  | step document document' rewrite => cases rewrite <;> rfl

/-- Nodes that are alike are the same scalar, if one of them is a scalar. -/
theorem Alike.scalar {node node' : Node} (alike : Alike .plain node node') :
    node.int? = node'.int? ∧ node.string? = node'.string? ∧ node.bool? = node'.bool? := by
  induction alike using Alike.of_rewrites with
  | refl node => exact ⟨rfl, rfl, rfl⟩
  | symm node node' _ same => exact ⟨same.1.symm, same.2.1.symm, same.2.2.symm⟩
  | step node node' rewrite => cases rewrite <;> exact ⟨rfl, rfl, rfl⟩

/-- Lists that are alike have as many items, which are alike. -/
theorem Alike.items {place : Place} {node node' : Node} (alike : Alike (.list place) node node') :
    Option.Rel (List.Forall₂ (Alike place)) node.items? node'.items? := by
  have same (items : List Node) : List.Forall₂ (Alike place) items items :=
    List.forall₂_same.mpr fun item _ => .refl item
  induction alike using Alike.of_rewrites with
  | refl node =>
      cases node.items? with
      | none => exact .none
      | some items => exact .some (same items)
  | symm node node' _ related =>
      exact optionRel_flip (fun _ _ same => same.flip.imp fun _ _ => Alike.symm) related
  | step node node' rewrite =>
      cases rewrite with
      | inItem inner => exact .some (List.rel_append (same _) (.cons (.step inner) (same _)))
      | _ => exact .none

/-! ## Keys -/

/-- Keys that are alike have the same name and the same ordinal. -/
theorem Alike.parse?_eq {node node' : Node} (alike : Alike .key node node') :
    node.string?.map Key.parse? = node'.string?.map Key.parse? := by
  induction alike using Alike.of_rewrites with
  | refl node => rfl
  | symm node node' _ same => exact same.symm
  | step node node' rewrite =>
      cases rewrite with
      | key unparted short longest =>
          simp only [string?, Option.map_some, Key.parse?, String.toList_ofList,
            Key.split_append unparted short longest, Key.split_parted short]
      | _ => rfl

/-! ## The map of methods -/

/-- Maps of methods with the same entries, in any order, or with values that are alike. -/
inductive EntriesAlike (entries entries' : List (String × Node)) : Prop
  | order (keys : (entries.map Prod.fst).Nodup) (same : entries.Perm entries')
  | values (same : List.Forall₂ (fun entry entry' => entry.1 = entry'.1 ∧
      Alike .plain entry.2 entry'.2) entries entries')

/-- Entries that are alike are so both ways. -/
theorem EntriesAlike.symm {entries entries' : List (String × Node)}
    (alike : EntriesAlike entries entries') : EntriesAlike entries' entries := by
  cases alike with
  | order keys same => exact .order ((same.map Prod.fst).nodup_iff.mp keys) same.symm
  | values same => exact .values (same.flip.imp fun _ _ both => ⟨both.1.symm, both.2.symm⟩)

/-- Alike objects of methods have alike entries. -/
theorem Alike.entries {node node' : Node} (alike : Alike .methods node node') :
    Option.Rel EntriesAlike node.object? node'.object? := by
  have same (entries : List (String × Node)) : List.Forall₂ (fun entry entry' =>
      entry.1 = entry'.1 ∧ Alike .plain entry.2 entry'.2) entries entries :=
    List.forall₂_same.mpr fun entry _ => ⟨rfl, .refl entry.2⟩
  induction alike using Alike.of_rewrites with
  | refl node =>
      cases node.object? with
      | none => exact .none
      | some entries => exact .some (.values (same entries))
  | symm node node' _ related =>
      exact optionRel_flip (fun _ _ => EntriesAlike.symm) related
  | step node node' rewrite =>
      cases rewrite with
      | reorder keys order => exact .some (.order keys order)
      | stray value unknown => exact absurd (.inl rfl) unknown
      | blank expected => cases expected
      | inField inner =>
          exact .some (.values (List.rel_append (same _) (.cons ⟨rfl, .step inner⟩ (same _))))
      | inItem => exact .none

end Node

end CodeGraph

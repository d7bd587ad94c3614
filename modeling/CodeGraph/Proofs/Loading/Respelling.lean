import CodeGraph.Proofs.Loading.Carrying
import CodeGraph.Proofs.Loading.Ownership

/-! # One project in many spellings

The first pass reserves the same entries for documents that are spelled alike, with nodes that are
alike (`CodeGraph.Entry.ofDocument_carries`), so the second pass reads the same constructs.
Documents that can be rewritten into each other, in any number of steps, load as the same project
(`CodeGraph.Project.load_iff_of_respelled`).
-/

namespace CodeGraph

open LoadResult Node

/-- Lists of related items are changed to one list if related items are changed alike. -/
theorem map_eq_of_forall₂ {α β : Type} {related : α → α → Prop} {items items' : List α} {f : α → β}
    (same : List.Forall₂ related items items')
    (each : ∀ item item', related item item' → f item = f item') : items.map f = items'.map f := by
  induction same with
  | nil => rfl
  | cons first _ ih => rw [List.map_cons, List.map_cons, each _ _ first, ih]

namespace Entry

/-- Entries that differ in the spelling of their nodes only. -/
structure Alike (entry entry' : Entry) : Prop where
  kind : entry.kind = entry'.kind
  name : entry.name = entry'.name
  path : entry.path = entry'.path
  placement : entry.placement = entry'.placement
  node : Node.Alike (.entry entry.kind) entry.node entry'.node

section Lists

variable {node node' : Node} {path : Path} {placement : Placement} {kind : Kind}

/-- An entry carries over to an alike one. -/
theorem ofNode_carries (alike : Node.Alike (.entry kind) node node') :
    Carries Alike (ofNode kind placement path node) (ofNode kind placement path node') :=
  (identityName_kept alike).within.bind fun _ => .pure ⟨rfl, rfl, rfl, rfl, alike⟩

/-- Related lists are related position by position. -/
theorem forall₂_zipIdx {α : Type} {related : α → α → Prop} {items items' : List α}
    (same : List.Forall₂ related items items') (start : Nat) :
    List.Forall₂ (fun item item' => related item.1 item'.1 ∧ item.2 = item'.2)
      (items.zipIdx start) (items'.zipIdx start) := by
  induction same generalizing start with
  | nil => exact .nil
  | cons first _ ih => exact .cons ⟨first, rfl⟩ (ih (start + 1))

/-- A list of entries carries over to an alike one. -/
theorem readList_carries {field : String}
    (same : PartAlike (.list field (.entry kind)) node node') :
    Carries (List.Forall₂ Alike) (readList node path placement field kind)
      (readList node' path placement field kind) := by
  refine (readArrayOrEmpty_carries same).within.bind fun items items' alike => ?_
  refine Carries.mapM (forall₂_zipIdx alike 0) ?_
  rintro ⟨item, position⟩ ⟨item', _⟩ ⟨alike, rfl⟩
  exact ofNode_carries alike

/-- The lists that the format gives an object are read alike. -/
theorem readLists_carries {lists : List (String × Kind)}
    (same : ∀ part ∈ Part.entryLists lists, PartAlike part node node') :
    Carries (List.Forall₂ (List.Forall₂ Alike))
      (lists.mapM fun (field, kind) => readList node path placement field kind)
      (lists.mapM fun (field, kind) => readList node' path placement field kind) := by
  have parts : List.Forall₂ (fun list list' => list = list' ∧
      PartAlike (.list list.1 (.entry list.2)) node node') lists lists :=
    List.forall₂_same.mpr fun list member =>
      ⟨rfl, same _ (List.mem_map.mpr ⟨list, member, rfl⟩)⟩
  refine Carries.mapM parts ?_
  rintro ⟨field, kind⟩ _ ⟨rfl, same⟩
  exact readList_carries same

end Lists

/-- A package and its members carry over to alike ones. -/
theorem readPackage_carries {node node' : Node} (alike : Node.Alike (.entry .package) node node')
    (id : Nat) (path : Path) :
    Carries (List.Forall₂ Alike) (readPackage id path node) (readPackage id path node') := by
  rw [readPackage, readPackage]
  refine (ofNode_carries alike).bind fun package package' first => ?_
  refine (readLists_carries fun part member => alike.part (by simp) ?_).bind
    fun lists lists' members => ?_
  · simp [member]
  · have lengths : lists.map List.length = lists'.map List.length :=
      map_eq_of_forall₂ members fun _ _ => List.Forall₂.length_eq
    have owned : owned id lists = owned id lists' := by rw [Entry.owned, Entry.owned, lengths]
    exact .pure (.cons ⟨first.kind, first.name, first.path, congrArg Placement.package owned,
      first.node⟩
      (List.rel_flatten members))

/-- Packages carry over to alike ones. -/
theorem readPackages_carries {nodes nodes' : List Node}
    (alike : List.Forall₂ (Node.Alike (.entry .package)) nodes nodes') (id position : Nat) :
    Carries (List.Forall₂ Alike) (readPackages id position nodes)
      (readPackages id position nodes') := by
  induction alike generalizing id position with
  | nil => exact .pure .nil
  | cons first _ ih =>
      refine (readPackage_carries first id _).bind fun entries entries' same => ?_
      rw [same.length_eq]
      exact (ih _ _).bind fun _ _ later => .pure (List.rel_append same later)

/-- Documents that are alike are reserved alike. -/
theorem ofDocument_carries {document document' : Node}
    (alike : Node.Alike .document document document') :
    Carries (List.Forall₂ Alike) (ofDocument document) (ofDocument document') := by
  have part {part : Part} (member : part ∈ Place.document.parts) :
      PartAlike part document document' := alike.part nofun member
  have packages : PartAlike (.list "packages" (.entry .package)) document document' :=
    part (by simp)
  have lists : ∀ part ∈ Part.entryLists Allocation.typeLists, PartAlike part document document' :=
    fun _ member => part (by simp [member])
  refine (readLists_carries lists).bind fun _ _ types => ?_
  refine (readArrayOrEmpty_carries packages).bind fun nodes nodes' listed => ?_
  have types := List.rel_flatten types
  rw [types.length_eq]
  exact (readPackages_carries listed _ 0).bind fun _ _ owned => .pure (List.rel_append types owned)

/-- Entries that are alike are reserved under the same ids, names and kinds. -/
theorem ofEntries_eq {entries entries' : List Entry} (alike : List.Forall₂ Alike entries entries') :
    Draft.ofEntries entries = Draft.ofEntries entries' := by
  have reserved : reservations entries = reservations entries' :=
    map_eq_of_forall₂ alike fun _ _ same => by rw [reservation, reservation, same.kind, same.name]
  have kinds : kinds entries = kinds entries' :=
    map_eq_of_forall₂ alike fun _ _ same => same.kind
  rw [Draft.ofEntries, Draft.ofEntries, reserved, idsIn_congr kinds]

/-- Alike entries spell the same construct. -/
theorem construct_carries {entry entry' : Entry} (alike : entry.Alike entry') (draft : Draft) :
    Kept (entry.construct draft) (entry'.construct draft) := by
  have kept := Construct.ofNode_kept (.refl draft) alike.node entry.placement
  rw [construct, construct, ← alike.kind, ← alike.placement]
  exact kept.within

end Entry

namespace Project

/-- Where a document loads, documents that are alike load as the same project. -/
theorem load_of_alike {document document' : Node} (alike : Node.Alike .document document document')
    {project : Project} (loaded : load document = .ok project) :
    load document' = .ok project := by
  obtain ⟨entries, constructs, object, reserved, read, rfl⟩ := load_eq_ok_iff.mp loaded
  obtain ⟨entries', reserved', same⟩ := Entry.ofDocument_carries alike entries reserved
  have drafts := Entry.ofEntries_eq same
  obtain ⟨constructs', read', equal⟩ := Carries.mapM same
    (fun _ _ alike => Entry.construct_carries alike (.ofEntries entries)) constructs read
  cases List.forall₂_eq_eq_eq ▸ equal
  rw [drafts] at read'
  have language : PartAlike (.text "language") document document' := alike.part nofun (by simp)
  refine load_eq_ok_iff.mpr ⟨entries', constructs, alike.shape_eq ▸ object, reserved', read', ?_⟩
  rw [ofConstructs, ofConstructs, drafts, optionalString_eq language]

/-- **Equivalent spellings load as the same project.** Documents that rewrites lead between, forth
and back, at any places and as often as one likes, load as the same project, or none of them
loads. -/
theorem load_iff_of_respelled {document document' : Node}
    (same : Relation.EqvGen (Respells .document) document document') (project : Project) :
    load document = .ok project ↔ load document' = .ok project := by
  induction same with
  | rel document document' rewrite =>
      exact ⟨load_of_alike (.step rewrite), load_of_alike (.back rewrite)⟩
  | refl document => exact Iff.rfl
  | symm document document' _ ih => exact ih.symm
  | trans document between document' _ _ first second => exact first.trans second

end Project

namespace Sample

/-- An instance of a method, whose declaration has the given key. -/
def methodInst (key : String) : Node :=
  .object [("decl", .string key), ("instanceTypes", .array []), ("resolved", .number (.integer 2))]

/-- A package with a method and that instance. -/
def methods (key : String) : Node :=
  .object [("name", .string "lists"),
    ("methodDecls", .array [.object [("name", .string "Len"),
      ("signature", .number (.integer 2))]]),
    ("methodInsts", .array [methodInst key])]

/-- A document without anything that could be left out. -/
def terse : Node :=
  .object [("basics", .array [.string "int"]), ("signatures", .array [.object []]),
    ("packages", .array [methods "Len1"])]

/-- The same with a basic and a key that are written out, a language that is none, an empty list, a
null flag, a comment and another order. -/
def verbose : Node :=
  .object [("comment", .string "the same"), ("packages", .array [methods "Len#1"]),
    ("unions", .array []), ("language", .bool true),
    ("basics", .array [.object [("name", .string "int")]]),
    ("signatures", .array [.object [("variadic", .null)]])]

/-- The project that both documents spell. -/
def methodsProject : Project where
  language := ""
  constructs := [
    .basic ⟨"int"⟩,
    .signature ⟨[], [], [], false⟩,
    .package ⟨"lists", "", [], { Members.empty with methodDecls := [⟨3⟩], methodInsts := [⟨4⟩] }⟩,
    .methodDecl ⟨⟨"Len", "", ⟨2⟩, []⟩, ⟨1⟩, none, [⟨4⟩]⟩,
    .methodInst ⟨⟨3⟩, [], ⟨1⟩, none⟩]
  tables := ⟨[0, 1], [2], [3], [4], []⟩

theorem load_terse : Project.load terse = .ok methodsProject := rfl

/-- The verbose document is the terse one, rewritten step by step. -/
theorem respelled_verbose : Relation.EqvGen (Respells .document) terse verbose := by
  have basic : Respells (.entry .basic) (.string "int") (.object [("name", .string "int")]) :=
    .basic "int"
  have key : Respells .key (.string "Len1") (.string "Len#1") :=
    @Respells.key ['L', 'e', 'n'] ['1'] (by decide) rfl (by simp)
  have null : Respells (.entry .signature) (.object []) (.object [("variadic", .null)]) :=
    @Respells.blank _ [] [] (.flag "variadic") .null (by simp) (by simp) rfl
  have unions : Part.list "unions" (.entry .union) ∈ Place.document.parts := by
    simp [Part.entryLists, Allocation.typeLists]
  have language : Part.text "language" ∈ Place.document.parts := by simp
  have unknown : ¬ Place.document.Knows "comment" := by
    simp [Place.Knows, Part.entryLists, Allocation.typeLists, Part.text, Part.list]
  refine .trans _ _ _ (.rel _ _ (@Respells.inField _ [] _ "basics" _ _
    (@Respells.inItem _ [] [] _ _ basic))) ?_
  refine .trans _ _ _ (.rel _ _ (@Respells.inField _ [_] _ "signatures" _ _
    (@Respells.inItem _ [] [] _ _ null))) ?_
  refine .trans _ _ _ (.rel _ _ (@Respells.inField _ [_, _] [] "packages" _ _
    (@Respells.inItem _ [] [] _ _ (@Respells.inField _ [_, _] [] "methodInsts" _ _
      (@Respells.inItem _ [] [] _ _ (@Respells.inField _ [] _ "decl" _ _ key)))))) ?_
  refine .trans _ _ _ (.rel _ _ (@Respells.blank _ [] _ _ (.bool true) language ?_ rfl)) ?_
  · decide
  refine .trans _ _ _ (.rel _ _ (@Respells.blank _ [] _ _ (.array []) unions ?_ (.inr rfl))) ?_
  · decide
  refine .trans _ _ _ (.rel _ _ (@Respells.stray _ [] _ "comment" (.string "the same") unknown)) ?_
  refine .rel _ _ (.reorder ?_ (.cons _ (@List.perm_middle _ _ [_, _, _, _] [])))
  decide

end Sample

namespace Project

/-- All rewrites together make no difference. -/
theorem load_iff_of_respelled_sample :
    Relation.EqvGen (Respells .document) Sample.terse Sample.verbose ∧
      load Sample.verbose = .ok Sample.methodsProject :=
  ⟨Sample.respelled_verbose,
    (load_iff_of_respelled Sample.respelled_verbose _).mp Sample.load_terse⟩

end Project

end CodeGraph

import CodeGraph.Proofs.Document.Frames
import CodeGraph.Proofs.Loading.Indexed
import CodeGraph.Proofs.Loading.Replaced

/-! # Indices out of range

Where an index can stand in a document is known from the format (`CodeGraph.IndexAt`). A document
that loads, with another number in the place of one of its indices, fails over that number alone:
as out of range, if the number is an integer of 64 bits that leads to no entry, and as no integer,
if it is kept as a real number. So a text with an integer literal in the place of an index, of
whatever size, is refused over that literal (`CodeGraph.Project.ofJson_outside`).
-/

namespace CodeGraph

open LoadResult

/-- An index of a role can stand at a place, read with its holder if it has to be there. -/
inductive IndexAt : Path → Role → Option String → Prop
  | intro {kind : Kind} {path below : Path} {field : String} {reading : FieldReading} {role : Role}
    {holder : Option String} (stands : kind.StandsAt path)
    (listed : (field, reading) ∈ kind.readings)
    (inside : reading.HoldsIndex field below role holder) :
    IndexAt (path ++ .field field :: below) role holder

/-- The complaint about a number that is no integer, in a required field or elsewhere. -/
def ReadError.noInteger : Option String → ReadError
  | some field => .wrongType field .number .number
  | none => .unexpectedShape .number .number

namespace Draft

variable {draft : Draft} {role : Role} {holder : Option String}

/-- An integer beyond its table is out of range, and the complaint names it as far as 64 bits hold
it. -/
theorem readNumber_of_outside {value : Int}
    (room : (draft.table role.table).length < Decimal.maxSigned)
    (outside : value < 1 ∨ ((draft.table role.table).length : Int) < value) :
    draft.readNumber role holder (.integer value) =
      .error (.of (.indexOutOfRange (min value Decimal.maxSigned) role.table
        (draft.table role.table).length)) := by
  have none : atIndex? (draft.table role.table) (min value Decimal.maxSigned) = none := by
    rw [atIndex?_eq_none_iff]
    omega
  simp only [readNumber, resolveIndex, none]
  rfl

/-- A number that is no integer is of the wrong type. -/
theorem readNumber_real : draft.readNumber role holder .real =
    .error (.of (.malformed (.noInteger holder))) := by
  cases holder <;> rfl

end Draft

/-- No name holds an index. -/
theorem Kind.ne_name_of_index {kind : Kind} {field : String} {reading : FieldReading}
    (listed : (field, reading) ∈ kind.readings) {below : Path} {role : Role}
    {holder : Option String} (inside : reading.HoldsIndex field below role holder) :
    field ≠ "name" := by
  rintro rfl
  have text : reading = .text := by
    cases kind <;> simp [readings] at listed <;> exact listed
  subst text
  cases inside

/-- With a number in the place of an index, an entry that was read fails as the number does. -/
theorem Construct.ofNode_put_index {draft : Draft} {kind : Kind} {placement : Placement}
    {node old : Node} {field : String} {reading : FieldReading} {below : Path} {role : Role}
    {holder : Option String} {construct : Construct} (suits : placement.Suits kind)
    (listed : (field, reading) ∈ kind.readings)
    (inside : reading.HoldsIndex field below role holder)
    (leads : node.follow (.field field :: below) = some old)
    (read : ofNode draft kind placement node = .ok construct) {number : Number} {error : LoadError}
    (fails : draft.readNumber role holder number = .error error) :
    ofNode draft kind placement (node.put (.field field :: below) (.number number)) =
      .error (error.within (.field field :: below)) := by
  have other : kind ≠ .basic := by
    rintro rfl
    cases listed
  have worked : kind.runAll draft node = .ok () := by
    rw [← outcome_ofNode suits other, read, outcome_ok]
  rw [← outcome_eq_error_iff, outcome_ofNode suits other,
    Kind.runAll_put listed inside leads worked, fails]
  rfl

namespace Project

variable {document old : Node} {project : Project} (loaded : load document = .ok project)
  {place : Path} {role : Role} {holder : Option String} (index : IndexAt place role holder)
  (leads : document.follow place = some old)
include loaded index leads

/-- With another number in the place of an index, a document that loads fails as the number
does. -/
theorem load_put_index {number : Number} {error : LoadError}
    (fails : ∀ draft : Draft, draft.table role.table = project.table role.table →
      draft.readNumber role holder number = .error error) :
    load (document.put place (.number number)) = .error (error.within place) := by
  obtain ⟨entries, constructs, object, reserved, read, rfl⟩ := load_eq_ok_iff.mp loaded
  have fails := fails (Draft.ofEntries entries) rfl
  obtain @⟨kind, path, below, field, reading, role, holder, stands, listed, inside⟩ := index
  have members : kind = .package → ∀ other rest, Step.field field :: below = .field other :: rest →
      other ∉ Allocation.memberLists.map Prod.fst := by
    rintro rfl other rest same
    cases same
    simp [Kind.readings] at listed
    rcases listed with ⟨rfl, -⟩ | ⟨rfl, -⟩ <;> decide
  have spares := stands.spares (fun _ => ⟨_, _, rfl, fun same =>
    Kind.ne_name_of_index listed inside (Step.field.inj same)⟩) members
  rw [load_put spares, expectObject_eq object, reserved, ok_bind, ok_bind]
  -- The entry with the index fails as the number does, and no other entry is concerned.
  have refused (entry : Entry) (member : entry ∈ entries) (same : entry.kind = kind)
      (here : entry.path = path) : (entry.put (path ++ .field field :: below)
        (.number number)).construct (Draft.ofEntries entries) =
          .error (error.within (path ++ .field field :: below)) := by
    subst same here
    obtain ⟨stood, suits⟩ := Entry.standsIn_of_ofDocument reserved entry member
    obtain ⟨construct, spelled⟩ := exists_value_of_mapM read member
    rw [Entry.construct, within_eq_ok_iff] at spelled
    rw [Node.follow_append, stood] at leads
    rw [Entry.put_append, Entry.construct,
      Construct.ofNode_put_index suits listed inside leads spelled fails]
    simp [LoadResult.within, Except.mapError, LoadError.within]
  obtain ⟨node, leadsToEntry, -⟩ := Option.bind_eq_some_iff.mp (Node.follow_append .. ▸ leads)
  obtain ⟨entry, member, same, here, -⟩ :=
    Entry.exists_entry_of_follow reserved stands leadsToEntry
  rw [mapM_eq_error_of_all (fun other inside => ?_) member (refused entry member same here),
    error_bind]
  rcases Entry.construct_put reserved stands members other inside with unchanged | ⟨same, here⟩
  · rw [unchanged]
    exact .inl (exists_value_of_mapM read inside)
  · exact .inr (refused other inside same here)

/-- An integer that leads to no entry is reported as out of range. -/
theorem load_outside {value : Int}
    (room : (project.table role.table).length < Decimal.maxSigned)
    (outside : value < 1 ∨ ((project.table role.table).length : Int) < value) :
    load (document.put place (.number (.integer value))) =
      .error ⟨place, .indexOutOfRange (min value Decimal.maxSigned) role.table
        (project.table role.table).length⟩ := by
  have fails (draft : Draft) (same : draft.table role.table = project.table role.table) :
      draft.readNumber role holder (.integer value) = .error (.of (.indexOutOfRange
        (min value Decimal.maxSigned) role.table (project.table role.table).length)) := by
    rw [← same] at room outside ⊢
    exact Draft.readNumber_of_outside room outside
  rw [load_put_index loaded index leads fails]
  simp [LoadError.within, LoadError.of]

/-- A number that is kept as a real number is reported as no integer. -/
theorem load_real : load (document.put place (.number .real)) =
    .error ⟨place, .malformed (.noInteger holder)⟩ := by
  rw [load_put_index loaded index leads fun draft _ => Draft.readNumber_real]
  simp [LoadError.within, LoadError.of]

omit loaded leads in
/-- **A literal that leads to no entry is refused, in whatever text and place.** The literal of an
index of a document that loads can be replaced in the text by one whose value is no position of the
table. If the literal fits 64 bits it is reported as out of range, with the largest signed number
for any that is larger. If it does not, it is no integer, or it is not even read. -/
theorem ofJson_outside {text : String} {value : Int} (parsed : Node.ofJson text = .ok document)
    (loaded : load document = .ok project)
    (leads : document.follow place = some (.number (.integer value)))
    (room : (project.table role.table).length < Decimal.maxSigned) :
    ∃ (before after : List Char) (index : Json.Literal),
      text.toList = before ++ (index.spell ++ after) ∧ index.value = value ∧
      ∀ literal : Json.Literal,
        literal.value < 1 ∨ ((project.table role.table).length : Int) < literal.value →
        if literal.Fits then
          ofJson (String.ofList (before ++ (literal.spell ++ after))) =
            .error ⟨place, .indexOutOfRange (min literal.value Decimal.maxSigned) role.table
              (project.table role.table).length⟩
        else
          ofJson (String.ofList (before ++ (literal.spell ++ after))) =
            .error ⟨place, .malformed (.noInteger holder)⟩ ∨
          ∃ fault : Json.Fault, fault.cause = .numberOutOfRange ∧
            ofJson (String.ofList (before ++ (literal.spell ++ after))) =
              .error (.of (.malformed (fault.toReadError
                (before ++ (literal.spell ++ after))))) := by
  obtain ⟨before, after, old, split, same, other⟩ := Node.ofJson_framed parsed leads
  refine ⟨before, after, old, split, same, fun literal outside => ?_⟩
  obtain ⟨read, beyond⟩ := other literal
  have goes {number : Number} (spelled : literal.number? = some number) :
      ofJson (String.ofList (before ++ (literal.spell ++ after))) =
        load (document.put place (.number number)) := by
    rw [ofJson, read number spelled]
    rfl
  split
  · rename_i fits
    rw [goes (literal.number?_of_fits fits)]
    exact load_outside loaded index leads room outside
  · rename_i large
    rcases literal.number?_of_not_fits large with spelled | spelled
    · rw [goes spelled]
      exact .inl (load_real loaded index leads)
    · obtain ⟨fault, cause, fails⟩ := beyond spelled
      refine .inr ⟨fault, cause, ?_⟩
      rw [ofJson, fails]
      rfl

end Project

namespace Sample

/-- A document of a basic type and a type parameter over it. -/
def generic : Node :=
  .object [("basics", .array [.string "int"]),
    ("named", .array [.object [("name", .string "T"), ("type", .number (.integer 1))]])]

/-- The project that this document spells. -/
def genericProject : Project where
  language := ""
  constructs := [.basic ⟨"int"⟩, .named ⟨"T", ⟨0⟩⟩]
  tables := ⟨[0, 1], [], [], [], []⟩

theorem ofJson_generic :
    Node.ofJson "\x7b\"basics\":[\"int\"],\"named\":[\x7b\"name\":\"T\",\"type\":1\x7d]\x7d" =
      .ok generic := by
  with_unfolding_all rfl

theorem load_generic : Project.load generic = .ok genericProject := rfl

end Sample

namespace Project

/-- The index of a named type in a text with two types. -/
theorem ofJson_outside_sample :
    ∃ document project,
      Node.ofJson "\x7b\"basics\":[\"int\"],\"named\":[\x7b\"name\":\"T\",\"type\":1\x7d]\x7d" =
          .ok document ∧
      load document = .ok project ∧
      IndexAt [.field "named", .index 0, .field "type"] .anyType (some "type") ∧
      document.follow [.field "named", .index 0, .field "type"] = some (.number (.integer 1)) ∧
      (project.table (Role.table .anyType)).length < Decimal.maxSigned ∧
      ∃ (before after : List Char) (index : Json.Literal),
        "\x7b\"basics\":[\"int\"],\"named\":[\x7b\"name\":\"T\",\"type\":1\x7d]\x7d".toList =
          before ++ (index.spell ++ after) ∧ index.value = 1 ∧
        ∀ literal : Json.Literal, literal.value < 1 ∨ 2 < literal.value → literal.Fits →
          ofJson (String.ofList (before ++ (literal.spell ++ after))) =
            .error ⟨[.field "named", .index 0, .field "type"],
              .indexOutOfRange (min literal.value Decimal.maxSigned) .types 2⟩ := by
  have index : IndexAt [.field "named", .index 0, .field "type"] .anyType (some "type") :=
    .intro (Kind.StandsAt.type (by decide) 0 : Kind.named.StandsAt _) (by decide) (.index .anyType)
  refine ⟨_, _, Sample.ofJson_generic, Sample.load_generic, index, rfl, by decide, ?_⟩
  obtain ⟨before, after, old, split, same, other⟩ :=
    ofJson_outside index Sample.ofJson_generic Sample.load_generic rfl (by decide)
  refine ⟨before, after, old, split, same, fun literal outside fits => ?_⟩
  have refused := other literal outside
  rw [if_pos fits] at refused
  exact refused

/-- A literal beyond 64 bits in the place of an index is called a number that is no number. -/
theorem ofJson_beyond_unsigned :
    (∃ project,
      ofJson "\x7b\"basics\":[\"int\"],\"named\":[\x7b\"name\":\"T\",\"type\":1\x7d]\x7d" =
        .ok project ∧ (project.table .types).length = 2) ∧
    ofJson ("\x7b\"basics\":[\"int\"],\"named\":[\x7b\"name\":\"T\"," ++
        "\"type\":18446744073709551616\x7d]\x7d") =
      .error ⟨[.field "named", .index 0, .field "type"],
        .malformed (.wrongType "type" .number .number)⟩ := by
  refine ⟨⟨Sample.genericProject, ?_, rfl⟩, ?_⟩
  · rw [ofJson, Sample.ofJson_generic]
    exact Sample.load_generic
  · decide +kernel

end Project

end CodeGraph

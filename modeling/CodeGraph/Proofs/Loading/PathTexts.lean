import CodeGraph.Proofs.Document.Scanning
import CodeGraph.Proofs.Loading.ErrorPlaces

/-! # What the text of a path tells

A path is spelled without quotes, so a name with dots or brackets of its own is spelled like a
longer path. The names that the format brings in have neither. A name that the document brings in
stands at the end of its path, where the format has no name at all. So the path of an error is told
by its text (`CodeGraph.Project.error_path_of_render`).
-/

namespace CodeGraph

/-! ## Texts of steps -/

/-- A numeral tells its number. -/
theorem Decimal.eq_of_toString {position position' : Nat}
    (same : (toString position).toList = (toString position').toList) : position = position' := by
  have found := upTo?_toString (Nat.le_max_left position position')
  rw [same, upTo?_toString (Nat.le_max_right position position')] at found
  exact (Option.some.inj found).symm

namespace Step

/-- Whether a character goes on with a name instead of beginning the next step. -/
def inName (c : Char) : Bool := c ≠ '.' && c ≠ '['

/-- The text of a step that is not the first. -/
def spelling : Step → List Char
  | field name => '.' :: name.toList
  | index position => '[' :: ((toString position).toList ++ [']'])

/-- Whether a step is a position, or a field whose name does not look like several steps. -/
def isPlain : Step → Bool
  | field name => name ≠ "" && name.toList.all inName
  | index _ => true

@[simp]
theorem isPlain_index (position : Nat) : (index position).isPlain = true := rfl

/-- A text that is empty or begins like a step. -/
def Opens (text : List Char) : Prop := ∀ c ∈ text.head?, inName c = false

theorem opens_nil : Opens [] := by simp [Opens]

/-- The spelling of a step begins as one. -/
theorem opens_spelling (step : Step) (rest : List Char) : Opens (step.spelling ++ rest) := by
  cases step <;> simp [Opens, spelling, inName]

/-- The text of a plain step ends where the next step begins. -/
theorem spelling_append_inj {step step' : Step} (plain : step.isPlain) (plain' : step'.isPlain)
    {rest rest' : List Char} (opens : Opens rest) (opens' : Opens rest')
    (same : step.spelling ++ rest = step'.spelling ++ rest') : step = step' ∧ rest = rest' := by
  cases step with
  | field name =>
      cases step' with
      | field name' =>
          simp only [isPlain, Bool.and_eq_true, List.all_eq_true] at plain plain'
          obtain ⟨names, rests⟩ :=
            Json.word_append_inj plain.2 plain'.2 opens opens' (List.cons.inj same).2
          exact ⟨congrArg field (String.toList_injective names), rests⟩
      | index => simp [spelling] at same
  | index position =>
      cases step' with
      | field => simp [spelling] at same
      | index position' =>
          have digits (position : Nat) : ∀ c ∈ (toString position).toList, c != ']' := by
            have read := Decimal.upTo?_eq_some_iff.mp (Decimal.upTo?_toString position.le_refl)
            intro c member
            have digit : c.isDigit := List.all_eq_true.mp read.2.1 c member
            rw [bne_iff_ne]
            rintro rfl
            cases digit
          simp only [spelling, List.cons_append, List.append_assoc] at same
          obtain ⟨numerals, rests⟩ := Json.word_append_inj (digits position)
            (digits position') (by simp) (by simp) (List.cons.inj same).2
          exact ⟨congrArg index (Decimal.eq_of_toString numerals), by simpa using rests⟩

end Step

/-! ## Texts of paths -/

namespace Path

open Step

@[simp]
theorem toList_renderBelow_nil : (renderBelow []).toList = [] := rfl

@[simp]
theorem toList_renderBelow_cons (step : Step) (rest : Path) :
    (renderBelow (step :: rest)).toList = step.spelling ++ (renderBelow rest).toList := by
  cases step <;> simp [renderBelow, spelling, ToString.toString]

/-- A path in two parts is spelled part by part. -/
theorem renderBelow_append (path later : Path) :
    (renderBelow (path ++ later)).toList =
      (renderBelow path).toList ++ (renderBelow later).toList := by
  induction path with
  | nil => rfl
  | cons step rest ih =>
      rw [List.cons_append, toList_renderBelow_cons, ih, toList_renderBelow_cons, List.append_assoc]

/-- The spelling of a path begins as that of a step, if there is any. -/
theorem opens_renderBelow (path : Path) {text : List Char} (opens : Opens text) :
    Opens ((renderBelow path).toList ++ text) := by
  cases path with
  | nil => exact opens
  | cons step rest =>
      rw [toList_renderBelow_cons, List.append_assoc]
      exact opens_spelling step _

/-- The spelling of a field begins as that of a step. -/
theorem opens_field (name : String) : Opens (renderBelow [.field name]).toList := by
  simpa using opens_renderBelow [.field name] opens_nil

/-- Only the empty path is spelled by nothing. -/
theorem renderBelow_eq_nil {path : Path} (empty : (renderBelow path).toList = []) : path = [] := by
  cases path with
  | nil => rfl
  | cons step rest => cases step <;> simp [spelling] at empty

/-- Where two texts begin with plain paths, the one path goes on from the other. -/
theorem renderBelow_append_eq {front front' : Path} (plain : front.all isPlain)
    (plain' : front'.all isPlain) {rest rest' : List Char} (opens : Opens rest)
    (opens' : Opens rest')
    (same : (renderBelow front).toList ++ rest = (renderBelow front').toList ++ rest') :
    (∃ later, front' = front ++ later ∧ rest = (renderBelow later).toList ++ rest') ∨
      ∃ later, front = front' ++ later ∧ rest' = (renderBelow later).toList ++ rest := by
  induction front generalizing front' with
  | nil => exact .inl ⟨front', rfl, same⟩
  | cons step front ih =>
      cases front' with
      | nil => exact .inr ⟨step :: front, rfl, same.symm⟩
      | cons step' front' =>
          simp only [List.all_cons, Bool.and_eq_true] at plain plain'
          simp only [toList_renderBelow_cons, List.append_assoc] at same
          obtain ⟨rfl, tails⟩ := spelling_append_inj plain.1 plain'.1
            (opens_renderBelow front opens) (opens_renderBelow front' opens') same
          rcases ih plain.2 plain'.2 tails with ⟨later, rfl, tail⟩ | ⟨later, rfl, tail⟩
          · exact .inl ⟨later, rfl, tail⟩
          · exact .inr ⟨later, rfl, tail⟩

/-- Plain paths of the same length are told apart from what follows. -/
theorem renderBelow_append_inj {front front' : Path} (plain : front.all isPlain)
    (plain' : front'.all isPlain) {rest rest' : List Char} (opens : Opens rest)
    (opens' : Opens rest') (length : front.length = front'.length)
    (same : (renderBelow front).toList ++ rest = (renderBelow front').toList ++ rest') :
    front = front' ∧ rest = rest' := by
  rcases renderBelow_append_eq plain plain' opens opens' same with
    ⟨later, rfl, tail⟩ | ⟨later, rfl, tail⟩
  · obtain rfl : later = [] := List.length_eq_zero_iff.mp (by simpa using length)
    exact ⟨(List.append_nil _).symm, tail⟩
  · obtain rfl : later = [] := List.length_eq_zero_iff.mp (by simpa using length)
    exact ⟨List.append_nil _, tail.symm⟩

/-! ## Paths that their texts tell -/

/-- Where the older map of methods of a contract stands. -/
def methodsOf (position : Nat) : Path :=
  [.field "interfaceDescs", .index position, .field "methods"]

/-- Paths that begin with a field and have plain steps, apart from names of methods. Where a name of
a method stands, it is the last step, and no plain step can stand there. -/
inductive Legible : Path → Prop
  | plain {path : Path} (rooted : ∀ step ∈ path.head?, ∃ name, step = .field name)
    (plain : path.all isPlain)
    (outside : ∀ position later, path = methodsOf position ++ later → later = []) : Legible path
  | method (position : Nat) (name : String) : Legible (methodsOf position ++ [.field name])

/-- The way to the methods of an interface is plain. -/
theorem plain_methodsOf (position : Nat) : (methodsOf position).all isPlain := by
  simp [methodsOf, isPlain, inName]

/-- A plain path is not spelled like the place of a method. -/
theorem renderBelow_ne_method {path : Path} (plain : path.all isPlain)
    (outside : ∀ position later, path = methodsOf position ++ later → later = [])
    (position : Nat) (name : String) :
    (renderBelow path).toList ≠ (renderBelow (methodsOf position ++ [.field name])).toList := by
  intro same
  rw [renderBelow_append, ← List.append_nil (renderBelow path).toList] at same
  rcases renderBelow_append_eq plain (plain_methodsOf position) opens_nil (opens_field name) same
    with ⟨later, -, tail⟩ | ⟨later, here, tail⟩
  · simp [spelling] at tail
  · cases outside position later here
    simp [spelling] at tail

/-- Legible paths that are spelled alike are one path. -/
theorem Legible.eq_of_renderBelow {path path' : Path} (legible : Legible path)
    (legible' : Legible path') (same : (renderBelow path).toList = (renderBelow path').toList) :
    path = path' := by
  cases legible with
  | plain _ plain outside =>
      cases legible' with
      | plain _ plain' _ =>
          rw [← List.append_nil (renderBelow path).toList,
            ← List.append_nil (renderBelow path').toList] at same
          rcases renderBelow_append_eq plain plain' opens_nil opens_nil same with
            ⟨later, rfl, tail⟩ | ⟨later, rfl, tail⟩
          · simp [renderBelow_eq_nil (by simpa using tail.symm)]
          · simp [renderBelow_eq_nil (by simpa using tail.symm)]
      | method position name =>
          exact absurd same (renderBelow_ne_method plain outside position name)
  | method position name =>
      cases legible' with
      | plain _ plain outside =>
          exact absurd same.symm (renderBelow_ne_method plain outside position name)
      | method position' name' =>
          -- Two places of methods part only in the position and the name.
          rw [renderBelow_append, renderBelow_append] at same
          obtain ⟨fronts, names⟩ := renderBelow_append_inj (plain_methodsOf position)
            (plain_methodsOf position') (opens_field name) (opens_field name') rfl same
          have name : name = name' := String.toList_injective (by simpa [spelling] using names)
          rw [fronts, name]

/-- A legible path has a first step if its text is not empty, and the text begins with its name. -/
theorem Legible.begins {path : Path} (legible : Legible path) :
    path = [] ∨ path.render ≠ "" ∧ (renderBelow path).toList = '.' :: path.render.toList := by
  have named {name : String} (plain : (Step.field name).isPlain) (rest : Path) :
      render (.field name :: rest) ≠ "" ∧ (renderBelow (.field name :: rest)).toList =
        '.' :: (render (.field name :: rest)).toList := by
    simp only [isPlain, Bool.and_eq_true, decide_eq_true_eq] at plain
    simp [render, spelling, plain.1]
  cases legible with
  | plain rooted plain =>
      cases path with
      | nil => exact .inl rfl
      | cons step rest =>
          obtain ⟨name, rfl⟩ := rooted step rfl
          exact .inr (named (List.all_eq_true.mp plain _ List.mem_cons_self) rest)
  | method position name => exact .inr (named (by decide) _)

/-- Legible paths with the same text are the same. -/
theorem Legible.eq_of_render {path path' : Path} (legible : Legible path)
    (legible' : Legible path') (same : path.render = path'.render) : path = path' := by
  rcases legible.begins with rfl | ⟨spelled, below⟩
  · rcases legible'.begins with rfl | ⟨spelled', -⟩
    · rfl
    · exact absurd same.symm spelled'
  · rcases legible'.begins with rfl | ⟨-, below'⟩
    · exact absurd same spelled
    · exact legible.eq_of_renderBelow legible' (by rw [below, below', same])

/-- Other paths may look alike. -/
example : render [.field "a.b"] = render [.field "a", .field "b"] := by decide

end Path

/-! ## Places of errors -/

/-- The names of the lists of entries are plain. -/
theorem Entry.plain_lists :
    ∀ field ∈ "packages" :: (Allocation.typeLists ++ Allocation.memberLists).map Prod.fst,
      (Step.field field).isPlain = true := by
  decide

/-- The names that are asked for in an entry are plain. -/
theorem Kind.plain_fieldsRead {kind : Kind} : ∀ entry ∈ kind.fieldsRead,
    (Step.field entry.1).isPlain ∧ ∀ name ∈ entry.2.itemNames, (Step.field name).isPlain := by
  cases kind <;> decide

/-- Only contracts have an older map of methods. -/
theorem Kind.methods_iff {kind : Kind} : ∀ entry ∈ kind.fieldsRead,
    (entry.2 = .methods ↔ kind = .interfaceDesc ∧ entry.1 = "methods") := by
  cases kind <;> decide

/-- A place within a field is plain, unless it is that of a method. -/
theorem FieldReading.Places.plain_or_method {reading : FieldReading} {inner : Path}
    (inside : reading.Places inner)
    (names : ∀ name ∈ reading.itemNames, (Step.field name).isPlain) :
    (inner.all Step.isPlain ∧ (reading = .methods → inner = [])) ∨
      reading = .methods ∧ ∃ name, inner = [.field name] := by
  cases inside with
  | here => exact .inl ⟨rfl, fun _ => rfl⟩
  | reference list position =>
      refine .inl ⟨rfl, ?_⟩
      rintro rfl
      cases list
  | item position inside =>
      obtain ⟨name, listed, inside⟩ := inside
      refine .inl ⟨?_, ?_⟩
      · cases inside with
        | here => rfl
        | field last =>
            subst last
            simpa using names name listed
      · rintro rfl
        cases listed
  | method name => exact .inr ⟨rfl, name, rfl⟩

namespace Kind.StandsAt

variable {kind : Kind} {outer : Path}

/-- Entries stand at plain paths, and these begin with a field. -/
theorem plain (stands : kind.StandsAt outer) :
    outer.all Step.isPlain ∧ ∃ field rest, outer = .field field :: rest := by
  have packages := Entry.plain_lists "packages" List.mem_cons_self
  have list {field : String}
      (listed : (field, kind) ∈ Allocation.typeLists ++ Allocation.memberLists) :
      (Step.field field).isPlain = true :=
    Entry.plain_lists field (List.mem_cons_of_mem _ (List.mem_map_of_mem listed))
  refine ⟨?_, ?_⟩
  · cases stands with
    | type listed => simp [list (List.mem_append_left _ listed)]
    | package => simp [packages]
    | member listed => simp [packages, list (List.mem_append_right _ listed)]
  · cases stands <;> exact ⟨_, _, rfl⟩

/-- The map of methods that a way into an entry leads through is a field of the entry. -/
theorem eq_of_methodsOf (stands : kind.StandsAt outer) {inner later : Path} {position : Nat}
    (same : outer ++ inner = Path.methodsOf position ++ later) :
    kind = .interfaceDesc ∧ inner = .field "methods" :: later := by
  cases stands with
  | type listed =>
      simp only [Path.methodsOf, List.cons_append, List.nil_append, List.cons.injEq,
        Step.field.injEq] at same
      obtain ⟨rfl, -, below⟩ := same
      exact ⟨Entry.kind_unique (.inl rfl) listed (by decide), below⟩
  | package => simp [Path.methodsOf] at same
  | member => simp [Path.methodsOf] at same

/-- Descriptions of interfaces stand in one list. -/
theorem eq_of_interfaceDesc (stands : Kind.interfaceDesc.StandsAt outer) :
    ∃ position, outer = [.field "interfaceDescs", .index position] := by
  cases stands with
  | type listed position =>
      refine ⟨position, ?_⟩
      simp [Allocation.typeLists] at listed
      rw [listed]
  | member listed => simp [Allocation.memberLists] at listed

end Kind.StandsAt

/-- Wherever loading can fail, the text of the place tells it. -/
theorem Project.ErrorPlace.legible {path : Path} (place : ErrorPlace path) : path.Legible := by
  cases place with
  | root => exact .plain (by simp) rfl (by simp [Path.methodsOf])
  | @list field listed =>
      have plain := Entry.plain_lists field (by grind)
      exact .plain (by simp) (by simp [plain]) (by simp [Path.methodsOf])
  | @memberList field listed package =>
      have packages := Entry.plain_lists "packages" List.mem_cons_self
      have plain := Entry.plain_lists field (by grind)
      exact .plain (by simp) (by simp [packages, plain]) (by simp [Path.methodsOf])
  | @entry kind outer inner stands inside =>
      obtain ⟨plain, first, rest, begins⟩ := stands.plain
      have rooted : ∀ step ∈ (outer ++ inner).head?, ∃ name, step = .field name := by
        simp [begins]
      obtain ⟨field, reading, listed, inside⟩ := inside
      have ⟨name, names⟩ := Kind.plain_fieldsRead _ listed
      have older := Kind.methods_iff _ listed
      cases inside with
      | here =>
          refine .plain rooted (by simpa using plain) fun position later same => ?_
          cases (stands.eq_of_methodsOf same).2
      | @field inner inside =>
          rcases inside.plain_or_method names with ⟨below, ends⟩ | ⟨methods, method, rfl⟩
          · refine .plain rooted ?_ fun position later same => ?_
            · rw [List.all_append, List.all_cons, plain, name, below]
              rfl
            · obtain ⟨contract, split⟩ := stands.eq_of_methodsOf same
              cases split
              exact ends (older.mpr ⟨contract, rfl⟩)
          · obtain ⟨rfl, rfl⟩ := older.mp methods
            obtain ⟨position, rfl⟩ := stands.eq_of_interfaceDesc
            exact .method position method

namespace Project

/-- What loading fails with, over a document or over the text of one. -/
inductive Fails : LoadError → Prop
  | document {document : Node} {error : LoadError} (failed : load document = .error error) :
    Fails error
  | text {text : String} {error : LoadError} (failed : ofJson text = .error error) : Fails error

/-- The path of an error in loading is legible. -/
theorem Fails.legible {error : LoadError} (fails : Fails error) : error.path.Legible := by
  cases fails with
  | document failed => exact (load_failsAt _ error failed).legible
  | text failed => exact (ofJson_failsAt _ error failed).legible

/-- A document whose only contract has a single method of the older form. -/
def withMethod (name : String) (signature : Node) : Node :=
  .object [("interfaceDescs", .array [.object [("methods", .object [(name, signature)])]])]

/-- A method whose signature is no index is blamed under its name, whatever that is. -/
theorem load_withMethod (name : String) {signature : Node} (noIndex : signature.int? = none) :
    load (withMethod name signature) = .error ⟨Path.methodsOf 0 ++ [.field name],
      .malformed (.unexpectedShape .number signature.shape)⟩ := by
  cases signature with
  | number number =>
      cases number with
      | integer value => cases noIndex
      | real => rfl
  | _ => rfl

/-- **The text of a path tells the path.** Two loads that fail, over documents or over texts, fail
at the same place if the places are spelled alike. Yet a place can end in any name, as the names of
methods are up to the document. -/
theorem error_path_of_render :
    (∀ name, ∃ document error, load document = .error error ∧
      error.path = Path.methodsOf 0 ++ [.field name]) ∧
    ∀ error error', Fails error → Fails error' → error.path.render = error'.path.render →
      error.path = error'.path := by
  constructor
  · intro name
    exact ⟨withMethod name .null, _, load_withMethod name rfl, rfl⟩
  · intro error error' fails fails' same
    exact fails.legible.eq_of_render fails'.legible same

/-- Two documents that differ in the signature of a method, whose name looks like two steps. -/
theorem error_path_of_render_sample :
    ∃ error error', load (withMethod "a.b" .null) = .error error ∧
      load (withMethod "a.b" (.string "[1]")) = .error error' ∧
      error.path.render = "interfaceDescs[0].methods.a.b" ∧ error.path = error'.path := by
  have failed := load_withMethod "a.b" (rfl : Node.null.int? = none)
  have failed' := load_withMethod "a.b" (rfl : (Node.string "[1]").int? = none)
  have same := error_path_of_render.2 _ _ (.document failed) (.document failed') rfl
  exact ⟨_, _, failed, failed', by decide, same⟩

end Project

end CodeGraph

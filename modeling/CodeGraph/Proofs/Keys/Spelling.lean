import CodeGraph.Key
import CodeGraph.Proofs.Outcome

/-! # How keys are spelled

A key is a name and an ordinal that stand on either side of a `#`. The `#` may be left out where the
name has none and does not end in a digit (`CodeGraph.Key.Parts`). A text is parted in one way at
most, so each key is read back from either of its spellings, and everything that is no spelling is
malformed (`CodeGraph.Key.parse_iff_parts`).
-/

namespace CodeGraph

namespace Key

/-- A text falls into a name and a run of digits. A `#` stands between the two, or there is none in
the text and the run is all of the digits at its end. -/
structure Parts (text name digits : String) : Prop where
  named : name ≠ ""
  numbered : digits ≠ ""
  decimal : ∀ c ∈ digits.toList, c.isDigit = true
  joined : text = name ++ "#" ++ digits ∨
    '#' ∉ text.toList ∧ text = name ++ digits ∧ ∀ last ∈ name.toList.getLast?, ¬ last.isDigit

/-! ## Splitting a text -/

/-- The two parts of a text make up the text. -/
theorem splitEnding_append (p : Char → Bool) (text : List Char) :
    (splitEnding p text).1 ++ (splitEnding p text).2 = text := by
  rw [splitEnding, ← List.reverse_append, List.takeWhile_append_dropWhile, List.reverse_reverse]

/-- The ending has only characters of its sort. -/
theorem of_mem_splitEnding {p : Char → Bool} {text : List Char} {c : Char}
    (member : c ∈ (splitEnding p text).2) : p c = true :=
  List.all_eq_true.mp List.all_takeWhile c (List.mem_reverse.mp member)

/-- What stands before the longest ending does not belong to it. -/
theorem getLast?_splitEnding {p : Char → Bool} {text : List Char} {last : Char}
    (ends : last ∈ (splitEnding p text).1.getLast?) : p last = false := by
  have stops := List.head?_dropWhile_not p text.reverse
  rw [splitEnding, List.getLast?_reverse, Option.mem_def] at ends
  simpa [ends] using stops

/-- Digits that stand behind a name without a sign are the longest that do. -/
theorem split_append {name digits : List Char} (unparted : '#' ∉ name)
    (short : digits.all Char.isDigit) (longest : ∀ last ∈ name.getLast?, ¬ last.isDigit) :
    split (name ++ digits) = (name, digits) := by
  have digit : ∀ c ∈ digits.reverse, c.isDigit = true := by simpa using short
  have sign : '#' ∉ digits := fun member => by
    have impossible := List.all_eq_true.mp short _ member
    cases impossible
  have last : name.reverse.dropWhile Char.isDigit = name.reverse ∧
      name.reverse.takeWhile Char.isDigit = [] := by
    cases reversed : name.reverse with
    | nil => simp
    | cons c rest =>
        have ends : ¬ c.isDigit := longest c (by simp [← List.head?_reverse, reversed])
        simp [ends]
  rw [split, if_neg (by simp [unparted, sign]), splitEnding, List.reverse_append,
    List.dropWhile_append_of_pos digit, List.takeWhile_append_of_pos digit, last.1, last.2]
  simp

/-- A sign parts a name from its digits, even if the name ends in a digit. -/
theorem split_parted {name digits : List Char} (short : digits.all Char.isDigit) :
    split (name ++ '#' :: digits) = (name, digits) := by
  have other : ∀ c ∈ digits.reverse, decide (c ≠ '#') = true := by
    intro c member
    have digit := List.all_eq_true.mp short c (List.mem_reverse.mp member)
    refine decide_eq_true ?_
    rintro rfl
    cases digit
  have reversed : (name ++ '#' :: digits).reverse = digits.reverse ++ '#' :: name.reverse := by
    simp
  rw [split, if_pos (by simp), splitEnding, reversed, List.dropWhile_append_of_pos other,
    List.takeWhile_append_of_pos other]
  simp

/-- A text is put together again from what it is split into. -/
theorem split_cases (text : List Char) :
    text = (split text).1 ++ '#' :: (split text).2 ∨
      '#' ∉ text ∧ text = (split text).1 ++ (split text).2 ∧
        ∀ last ∈ (split text).1.getLast?, ¬ last.isDigit := by
  by_cases parted : '#' ∈ text
  · have whole := splitEnding_append (· ≠ '#') text
    rw [split, if_pos parted]
    left
    cases ends : (splitEnding (· ≠ '#') text).1.getLast? with
    | none =>
        -- Without a sign before it the ending would be the whole text, sign included.
        rw [List.getLast?_eq_none_iff] at ends
        rw [ends, List.nil_append] at whole
        rw [← whole] at parted
        simpa using of_mem_splitEnding parted
    | some last =>
        have sign : last = '#' := by simpa using getLast?_splitEnding ends
        have before := List.dropLast_append_getLast? last ends
        rw [sign] at before
        calc text = (splitEnding (· ≠ '#') text).1 ++ (splitEnding (· ≠ '#') text).2 := whole.symm
          _ = (splitEnding (· ≠ '#') text).1.dropLast ++ ['#'] ++
                (splitEnding (· ≠ '#') text).2 := by rw [before]
          _ = _ := by rw [List.append_assoc, List.singleton_append]
  · rw [split, if_neg parted]
    refine .inr ⟨parted, (splitEnding_append _ text).symm, ?_⟩
    intro last ends
    simp [getLast?_splitEnding ends]

/-! ## Parts of a text -/

/-- The parts of a key are those at which its text is split. -/
theorem Parts.split_eq {text name digits : String} (parts : Parts text name digits) :
    split text.toList = (name.toList, digits.toList) := by
  have short : digits.toList.all Char.isDigit = true := List.all_eq_true.mpr parts.decimal
  rcases parts.joined with rfl | ⟨unparted, rfl, longest⟩
  · simpa [String.toList_append] using @split_parted name.toList _ short
  · rw [String.toList_append] at unparted ⊢
    exact split_append (fun member => unparted (List.mem_append_left _ member)) short longest

/-- A text that is split into a name and digits has them as its parts. -/
theorem parts_of_split {text : String} {name digits : List Char}
    (parted : split text.toList = (name, digits)) (named : name ≠ []) (numbered : digits ≠ [])
    (decimal : ∀ c ∈ digits, c.isDigit = true) :
    Parts text (String.ofList name) (String.ofList digits) where
  named := by simpa using named
  numbered := by simpa using numbered
  decimal := by simpa using decimal
  joined := by
    rcases split_cases text.toList with whole | ⟨unparted, whole, longest⟩
    · left
      rw [parted] at whole
      apply String.toList_injective
      simpa using whole
    · rw [parted] at whole longest
      refine .inr ⟨unparted, String.toList_injective ?_, by simpa using longest⟩
      simpa using whole

/-- A text has at most one name and one run of digits. -/
theorem Parts.unique {text name digits name' digits' : String} (parts : Parts text name digits)
    (parts' : Parts text name' digits') : name = name' ∧ digits = digits' := by
  obtain ⟨names, runs⟩ := Prod.mk.inj (parts.split_eq.symm.trans parts'.split_eq)
  exact ⟨String.toList_injective names, String.toList_injective runs⟩

/-- A text is a key if it has parts whose digits fit 64 bits. -/
theorem parse?_eq_some_iff {text : String} {key : Key} :
    parse? text = some key ↔
      ∃ digits, Parts text key.name digits ∧ Decimal.value digits.toList ≤ Decimal.maxUnsigned ∧
        Decimal.value digits.toList = key.ordinal := by
  constructor
  · intro parsed
    cases parted : split text.toList with
    | mk name digits =>
        simp only [parse?, parted] at parsed
        split at parsed
        · cases parsed
        · rename_i named
          obtain ⟨ordinal, read, rfl⟩ := Option.map_eq_some_iff.mp parsed
          obtain ⟨numbered, decimal, fits, value⟩ := Decimal.upTo?_eq_some_iff.mp read
          refine ⟨String.ofList digits,
            parts_of_split parted named numbered (List.all_eq_true.mp decimal), ?_⟩
          simpa using ⟨fits, value⟩
  · rintro ⟨digits, parts, fits, value⟩
    have named : key.name.toList ≠ [] := by simpa using parts.named
    have read : Decimal.upTo? Decimal.maxUnsigned digits.toList = some key.ordinal :=
      Decimal.upTo?_eq_some_iff.mpr
        ⟨by simpa using parts.numbered, List.all_eq_true.mpr parts.decimal, fits, value⟩
    simp only [parse?, parts.split_eq, if_neg named, read, Option.map_some, String.ofList_toList]

/-- A key is read where the text is one. -/
theorem parse_eq_ok_iff {text : String} {key : Key} :
    parse text = .ok key ↔ parse? text = some key := by
  unfold parse
  cases parse? text <;> simp

/-- A text that is no key is malformed. -/
theorem parse_eq_error {text : String} (unread : parse? text = none) :
    parse text = .error (.of (.malformedKey text)) := by
  rw [parse, unread]

/-- Behind the last `#` of a key stands the numeral of its ordinal, and nothing else. -/
theorem parse_joined_iff {name digits : String} {ordinal : Nat} (named : name ≠ "") :
    parse (name ++ "#" ++ digits) = .ok ⟨name, ordinal⟩ ↔
      Decimal.upTo? Decimal.maxUnsigned digits.toList = some ordinal := by
  rw [parse_eq_ok_iff, parse?_eq_some_iff, Decimal.upTo?_eq_some_iff]
  constructor
  · rintro ⟨found, parts, fits, value⟩
    obtain rfl : digits = found := by
      rcases parts.joined with whole | ⟨unparted, -, -⟩
      · exact (String.append_right_inj _).mp whole
      · exact absurd (by simp) unparted
    exact ⟨by simpa using parts.numbered, List.all_eq_true.mpr parts.decimal, fits, value⟩
  · rintro ⟨numbered, decimal, fits, value⟩
    refine ⟨digits, ⟨named, by simpa using numbered, List.all_eq_true.mp decimal, .inl rfl⟩, ?_⟩
    exact ⟨fits, value⟩

/-- A name without digits at its end can be followed by the ordinal at once. -/
theorem parse_bare {name digits : String} {ordinal : Nat} (named : name ≠ "")
    (unparted : '#' ∉ name.toList) (longest : ∀ last ∈ name.toList.getLast?, ¬ last.isDigit)
    (read : Decimal.upTo? Decimal.maxUnsigned digits.toList = some ordinal) :
    parse (name ++ digits) = .ok ⟨name, ordinal⟩ := by
  obtain ⟨numbered, decimal, fits, value⟩ := Decimal.upTo?_eq_some_iff.mp read
  have decimal := List.all_eq_true.mp decimal
  have bare : '#' ∉ (name ++ digits).toList := by
    rw [String.toList_append, List.mem_append]
    rintro (member | member)
    · exact unparted member
    · cases decimal _ member
  have parts : Parts (name ++ digits) name digits :=
    ⟨named, by simpa using numbered, decimal, .inr ⟨bare, rfl, longest⟩⟩
  exact parse_eq_ok_iff.mpr (parse?_eq_some_iff.mpr ⟨digits, parts, fits, value⟩)

/-- **Keys have a grammar, and it is unambiguous.** A text is read as a key exactly if it falls into
the key's name and digits that spell the key's ordinal within 64 bits; there is one such way at
most, and a text without one is malformed. So every name that is not empty and every ordinal of 64
bits are read back from where a `#` stands between them, whatever the name is made of, and without
it from where the name has no `#` and does not end in a digit. -/
theorem parse_iff_parts :
    (∀ text key, parse text = .ok key ↔
      ∃ digits, Parts text key.name digits ∧ Decimal.value digits.toList ≤ Decimal.maxUnsigned ∧
        Decimal.value digits.toList = key.ordinal) ∧
    (∀ text name digits name' digits', Parts text name digits → Parts text name' digits' →
      name = name' ∧ digits = digits') ∧
    (∀ text,
      (¬ ∃ name digits, Parts text name digits ∧
        Decimal.value digits.toList ≤ Decimal.maxUnsigned) →
      parse text = .error (.of (.malformedKey text))) ∧
    (∀ name ordinal, name ≠ "" → ordinal ≤ Decimal.maxUnsigned →
      parse (name ++ "#" ++ toString ordinal) = .ok ⟨name, ordinal⟩) ∧
    ∀ name ordinal, name ≠ "" → ordinal ≤ Decimal.maxUnsigned → '#' ∉ name.toList →
      (∀ last ∈ name.toList.getLast?, ¬ last.isDigit) →
      parse (name ++ toString ordinal) = .ok ⟨name, ordinal⟩ := by
  refine ⟨fun text key => parse_eq_ok_iff.trans parse?_eq_some_iff,
    fun _ _ _ _ _ parts parts' => parts.unique parts', ?_, ?_, ?_⟩
  · intro text none
    apply parse_eq_error
    by_contra read
    obtain ⟨key, read⟩ := Option.ne_none_iff_exists'.mp read
    obtain ⟨digits, parts, fits, -⟩ := parse?_eq_some_iff.mp read
    exact none ⟨key.name, digits, parts, fits⟩
  · intro name ordinal named fits
    exact (parse_joined_iff named).mpr (Decimal.upTo?_toString fits)
  · intro name ordinal named fits unparted longest
    exact parse_bare named unparted longest (Decimal.upTo?_toString fits)

/-- A name may hold signs and end in digits, and an ordinal may begin with zeros. -/
theorem parse_iff_parts_sample :
    Parts "a#b2#007" "a#b2" "007" ∧ parse "a#b2#007" = .ok ⟨"a#b2", 7⟩ ∧
      parse ("a#b2" ++ "#" ++ toString 7) = .ok ⟨"a#b2", 7⟩ ∧
      (∀ name digits, ¬ Parts "a#7b" name digits) ∧
      parse "a#7b" = .error (.of (.malformedKey "a#7b")) := by
  have parts : Parts "a#b2#007" "a#b2" "007" :=
    ⟨by decide, by decide, List.all_eq_true.mp (by decide), .inl (by decide)⟩
  have none : ∀ name digits, ¬ Parts "a#7b" name digits := by
    intro name digits parts
    have split : split "a#7b".toList = (['a'], ['7', 'b']) := by decide
    obtain ⟨-, run⟩ := Prod.mk.inj (parts.split_eq.symm.trans split)
    have stray := parts.decimal 'b' (by rw [run]; decide)
    cases stray
  obtain ⟨read, -, fails, parted, -⟩ := parse_iff_parts
  refine ⟨parts, (read _ ⟨"a#b2", 7⟩).mpr ⟨"007", parts, by decide, by decide⟩,
    parted "a#b2" 7 (by decide) (by decide), none, fails _ ?_⟩
  rintro ⟨name, digits, parts, -⟩
  exact none name digits parts

end Key

end CodeGraph

import CodeGraph.Document.Json.Numeral
import CodeGraph.Proofs.Document.Scanning
import Mathlib.Data.List.TakeWhile

/-! # Numerals in a text

A numeral goes on as long as characters follow that can belong to it, so what is read of a text does
not depend on what comes behind, if that does not go on as a numeral (`CodeGraph.Json.Free`). An
integer literal is read exactly if it fits 64 bits, and as a real number or not at all if it does
not (`CodeGraph.Json.Literal.scan_append`).
-/

namespace CodeGraph.Json

section Digits

variable {digits rest : List Char}

/-- Digits are taken up to a text that starts with none. -/
theorem takeWhile_append_of_noDigit (all : ∀ c ∈ digits, c.isDigit = true) (free : NoDigit rest) :
    (digits ++ rest).takeWhile Char.isDigit = digits :=
  takeWhile_append_of_stop all free

/-- Behind digits a text that starts with none is left. -/
theorem dropWhile_append_of_noDigit (all : ∀ c ∈ digits, c.isDigit = true) (free : NoDigit rest) :
    (digits ++ rest).dropWhile Char.isDigit = rest :=
  dropWhile_append_of_stop all free

/-- What is left behind all digits starts with none. -/
theorem noDigit_dropWhile (text : List Char) : NoDigit (text.dropWhile Char.isDigit) := by
  have stops := List.head?_dropWhile_not Char.isDigit text
  intro c first
  rw [Option.mem_def] at first
  simpa only [first] using stops

end Digits

namespace Numeral

/-- The digits of an integer: a zero alone, or digits that start with another one. -/
structure IsWhole (digits : List Char) : Prop where
  nonempty : digits ≠ []
  all : ∀ c ∈ digits, c.isDigit = true
  zero : digits.head? = some '0' → digits = ['0']

/-- The digits of an integer are a whole numeral and all the digits there are. -/
theorem integerDigits_eq_ok_iff {text whole rest : List Char} :
    bare integerDigits text = .ok (whole, rest) ↔
      text = whole ++ rest ∧ IsWhole whole ∧ NoDigit rest := by
  rw [bare_eq_ok_iff]
  cases text with
  | nil =>
      simp only [integerDigits, reduceCtorEq, exists_false, false_iff]
      rintro ⟨empty, proper, -⟩
      exact proper.nonempty (List.append_eq_nil_iff.mp empty.symm).1
  | cons c text =>
      have parted := List.takeWhile_append_dropWhile (p := Char.isDigit) (l := text)
      simp only [integerDigits]
      constructor
      · rintro ⟨held, read⟩
        split at read
        · cases read
        · rename_i noZero
          split at read
          · rename_i digit
            cases read
            refine ⟨by rw [List.cons_append, parted], ⟨List.cons_ne_nil _ _, ?_, ?_⟩,
              noDigit_dropWhile text⟩
            · exact List.forall_mem_cons.mpr ⟨digit, fun _ => List.mem_takeWhile_imp⟩
            · intro zero
              cases zero
              have none : text.takeWhile Char.isDigit = [] := by simpa using noZero
              rw [none]
          · cases read
      · rintro ⟨split, ⟨nonempty, all, zero⟩, free⟩
        obtain ⟨first, digits, rfl⟩ := List.exists_cons_of_ne_nil nonempty
        rw [List.cons_append, List.cons.injEq] at split
        obtain ⟨rfl, rfl⟩ := split
        obtain ⟨digit, others⟩ := List.forall_mem_cons.mp all
        have noZero : ¬ (c = '0' ∧ digits ≠ []) := by
          rintro ⟨rfl, more⟩
          exact more (List.cons.inj (zero rfl)).2
        simp only [takeWhile_append_of_noDigit others free, noZero, digit,
          dropWhile_append_of_noDigit others free, ↓reduceIte, exists_prop, and_true]
        exact Nat.lt_succ_of_le (List.length_append ▸ Nat.le_add_left _ _)

/-- A fraction is a point with digits behind it; where there is none the text is left as it is. -/
theorem fractionDigits_eq_ok_iff {text fraction rest : List Char} :
    bare fractionDigits text = .ok (fraction, rest) ↔
      (fraction = [] ∧ text = rest ∧ rest.head? ≠ some '.') ∨
        (fraction ≠ [] ∧ (∀ c ∈ fraction, c.isDigit = true) ∧ text = '.' :: (fraction ++ rest) ∧
          NoDigit rest) := by
  by_cases point : text.head? = some '.'
  · obtain ⟨tail, rfl⟩ := List.head?_eq_some_iff.mp point
    have parted := List.takeWhile_append_dropWhile (p := Char.isDigit) (l := tail)
    constructor
    · intro read
      obtain ⟨held, read⟩ := bare_eq_ok_iff.mp read
      simp only [fractionDigits] at read
      split at read
      · split at read <;> cases read
      · rename_i some
        cases read
        refine .inr ⟨some, fun _ => List.mem_takeWhile_imp, ?_, noDigit_dropWhile tail⟩
        rw [parted]
    · rintro (⟨-, rfl, noPoint⟩ | ⟨some, all, split, free⟩)
      · exact absurd point noPoint
      · obtain rfl := (List.cons.inj split).2
        have digits := takeWhile_append_of_noDigit all free
        have behind := dropWhile_append_of_noDigit all free
        simp only [bare, fractionDigits]
        split
        · rename_i none
          exact absurd (digits.symm.trans none) some
        · exact congrArg Except.ok (Prod.ext digits behind)
  · have whole : bare fractionDigits text = .ok ([], text) := by
      unfold bare fractionDigits
      split
      · exact absurd rfl point
      · rfl
    rw [whole]
    constructor
    · intro read
      cases read
      exact .inl ⟨rfl, rfl, point⟩
    · rintro (⟨rfl, rfl, -⟩ | ⟨-, -, rfl, -⟩)
      · rfl
      · exact absurd rfl point

/-- Whether an exponent is too large is known from its digits. -/
theorem pastMaxExponent_append {digits rest : List Char} (all : ∀ c ∈ digits, c.isDigit = true)
    (free : NoDigit rest) (value : Nat) :
    pastMaxExponent value (digits ++ rest) = none ↔ pastMaxExponent value digits = none := by
  induction digits generalizing value with
  | nil =>
      cases rest with
      | nil => rfl
      | cons c rest => simp [pastMaxExponent, free c rfl]
  | cons c digits ih =>
      obtain ⟨digit, others⟩ := List.forall_mem_cons.mp all
      simp only [List.cons_append, pastMaxExponent, digit, ↓reduceIte]
      split
      · simp
      · exact ih others _

/-- A sign is read in the same way before any digit. -/
theorem exists_sign (text : List Char) :
    ∃ mark, text = mark ++ (sign text).2 ∧ ∀ c unsigned, c.isDigit = true →
      sign (mark ++ c :: unsigned) = ((sign text).1, c :: unsigned) := by
  unfold sign
  split
  · exact ⟨['-'], rfl, fun _ _ _ => rfl⟩
  · exact ⟨['+'], rfl, fun _ _ _ => rfl⟩
  · refine ⟨[], rfl, fun c unsigned digit => ?_⟩
    rw [List.nil_append]
    split
    · rename_i same
      cases same
      cases digit
    · rename_i same
      cases same
      cases digit
    · rfl

/-- An exponent is read in the same way before whatever is no digit. -/
theorem exponentValue_settled (significand : Nat) (text : List Char) :
    Settled NoDigit (bare (exponentValue significand)) text := by
  intro power rest read
  obtain ⟨mark, marked, signed⟩ := exists_sign text
  have parted := List.takeWhile_append_dropWhile (p := Char.isDigit) (l := (sign text).2)
  have free := noDigit_dropWhile (sign text).2
  obtain ⟨held, read⟩ := bare_eq_ok_iff.mp read
  unfold exponentValue at read
  simp only at read
  split at read
  · split at read <;> cases read
  · rename_i digits some
    split at read
    · cases read
    · rename_i small
      cases read
      have all : ∀ c ∈ (sign text).2.takeWhile Char.isDigit, c.isDigit = true :=
        fun _ => List.mem_takeWhile_imp
      generalize (sign text).2.takeWhile Char.isDigit = digits at *
      generalize (sign text).2.dropWhile Char.isDigit = rest at *
      refine ⟨mark ++ digits, by rwa [List.append_assoc, parted], fun rest' free' => ?_⟩
      obtain ⟨c, more, rfl⟩ := List.exists_cons_of_ne_nil some
      have sign' := signed c (more ++ rest') (all c List.mem_cons_self)
      rw [← List.cons_append] at sign'
      have small' : (if significand ≠ 0 ∧ (sign text).1 = false
          then pastMaxExponent 0 (c :: more ++ rest') else none) = none := by
        rw [← parted] at small
        split
        · rename_i both
          rw [if_pos both, pastMaxExponent_append all free] at small
          rwa [pastMaxExponent_append all free']
        · rfl
      rw [List.append_assoc]
      unfold bare exponentValue
      simp only [sign', takeWhile_append_of_noDigit all free', small',
        dropWhile_append_of_noDigit all free']
      rfl

/-- There is no exponent without its letter. -/
theorem exponent?_of_no_letter (significand : Nat) {text : List Char}
    (apart : ∀ c ∈ text.head?, c ≠ 'e' ∧ c ≠ 'E') :
    bare (exponent? significand) text = .ok (none, text) := by
  cases text with
  | nil => rfl
  | cons c text =>
      obtain ⟨small, large⟩ := apart c rfl
      simp only [bare, exponent?, small, large, or_self, ↓reduceIte]
      rfl

/-- There is no exponent where the text does not go on as a numeral. -/
theorem exponent?_of_free (significand : Nat) {text : List Char} (free : Free text) :
    bare (exponent? significand) text = .ok (none, text) :=
  exponent?_of_no_letter significand fun c first => (free.2 c first).2

/-- An exponent is read the same in front of any text that does not go on as a numeral. -/
theorem exponent?_settled {significand : Nat} {text rest : List Char} {power : Option Int}
    (read : bare (exponent? significand) text = .ok (power, rest)) :
    ∃ used, text = used ++ rest ∧ (power = none → used = []) ∧
      ∀ rest', Free rest' → NoFraction (used ++ rest') ∧
        bare (exponent? significand) (used ++ rest') = .ok (power, rest') := by
  by_cases letter : ∃ c tail, text = c :: tail ∧ (c = 'e' ∨ c = 'E')
  · obtain ⟨c, tail, rfl, letter⟩ := letter
    have step (tail : List Char) : bare (exponent? significand) (c :: tail) =
        (fun read => (some read.1, read.2)) <$> bare (exponentValue significand) tail := by
      simp only [bare, exponent?, letter, ↓reduceIte]
      cases exponentValue significand tail <;> rfl
    rw [step, map_eq_ok_iff] at read
    obtain ⟨⟨value, after⟩, read, same⟩ := read
    cases same
    obtain ⟨used, rfl, settled⟩ := exponentValue_settled significand tail value after read
    refine ⟨c :: used, rfl, (fun same => by cases same), fun rest' free => ⟨?_, ?_⟩⟩
    · rcases letter with rfl | rfl <;> exact ⟨by simp [NoDigit], by simp⟩
    · rw [List.cons_append, step, settled rest' free.1]
      rfl
  · have apart : ∀ c ∈ text.head?, c ≠ 'e' ∧ c ≠ 'E' := by
      intro c first
      obtain ⟨tail, rfl⟩ := List.head?_eq_some_iff.mp first
      exact ⟨fun same => letter ⟨c, tail, rfl, .inl same⟩,
        fun same => letter ⟨c, tail, rfl, .inr same⟩⟩
    rw [exponent?_of_no_letter significand apart] at read
    cases read
    exact ⟨[], rfl, fun _ => rfl, fun rest' free =>
      ⟨free.noFraction, exponent?_of_free significand free⟩⟩

/-- The number that digits, a fraction and an exponent make up, unless it is out of range. -/
def assemble (negative : Bool) (whole fraction : List Char) (power : Option Int) : Option Number :=
  let (leading, scaling) := absorb 0 whole
  let (significand, dropped) := absorb leading fraction
  let scale : Int := (scaling.length : Int) + dropped.length - fraction.length
  if scaling = [] ∧ fraction = [] ∧ power = none then some (ofInteger negative leading)
  else if overflows significand (scale + power.getD 0) then none
  else some .real

/-- The digits that tell how large an exponent may be. -/
def significandOf (whole fraction : List Char) : Nat := (absorb (absorb 0 whole).1 fraction).1

/-- How a piece with a numeral in it is read in front of a text: `put` is what it holds with the
number, unless that is out of range. -/
def outcome {α : Type} (put : Number → α) (rest : List Char) :
    Option Number → Except Cause (α × List Char)
  | some number => .ok (put number, rest)
  | none => .error .numberOutOfRange

/-- A number comes out if one was made of the digits. -/
theorem outcome_eq_ok_iff {rest rest' : List Char} {number : Number} {read : Option Number} :
    outcome id rest read = .ok (number, rest') ↔ read = some number ∧ rest = rest' := by
  cases read <;> simp [outcome]

/-- A numeral without sign is read piece by piece, and its number is made of the pieces. -/
theorem scanUnsigned_eq (negative : Bool) (text : List Char) :
    bare (scanUnsigned negative) text =
      (bare integerDigits text >>= fun whole => bare fractionDigits whole.2 >>= fun fraction =>
        bare (exponent? (significandOf whole.1 fraction.1)) fraction.2 >>= fun power =>
          outcome id power.2 (assemble negative whole.1 fraction.1 power.1)) := by
  refine strip_bind fun whole afterWhole => strip_bind fun fraction afterFraction =>
    strip_bind fun power rest => ?_
  simp only [assemble]
  split
  · rfl
  · split <;> rfl

/-- A numeral without a sign is read from its parts, before whatever does not go on as one. -/
theorem scanUnsigned_eq_ok {negative : Bool} {text rest : List Char} {number : Number}
    (read : bare (scanUnsigned negative) text = .ok (number, rest)) :
    ∃ whole fraction power used, IsWhole whole ∧ text = whole ++ (used ++ rest) ∧
      assemble negative whole fraction power = some number ∧
      (fraction = [] → power = none → used = []) ∧
      ∀ rest', Free rest' →
        bare (scanUnsigned negative) (whole ++ (used ++ rest')) = .ok (number, rest') := by
  rw [scanUnsigned_eq] at read
  simp only [bind_eq_ok_iff, Prod.exists] at read
  obtain ⟨whole, afterWhole, readWhole, fraction, afterFraction, readFraction, power, after,
    readPower, found⟩ := read
  obtain ⟨assembled, rfl⟩ := outcome_eq_ok_iff.mp found
  obtain ⟨rfl, proper, -⟩ := integerDigits_eq_ok_iff.mp readWhole
  obtain ⟨used, rfl, plain, settled⟩ := exponent?_settled readPower
  rcases fractionDigits_eq_ok_iff.mp readFraction with ⟨rfl, rfl, -⟩ | ⟨some, all, rfl, -⟩
  · refine ⟨whole, [], power, used, proper, rfl, assembled, fun _ => plain, fun rest' free => ?_⟩
    obtain ⟨next, readPower'⟩ := settled rest' free
    have readWhole' := integerDigits_eq_ok_iff.mpr ⟨rfl, proper, next.1⟩
    have readFraction' := fractionDigits_eq_ok_iff.mpr (.inl ⟨rfl, rfl, next.2⟩)
    simp only [scanUnsigned_eq, readWhole', ok_bind, readFraction', readPower', assembled, outcome,
      id]
  · refine ⟨whole, fraction, power, '.' :: (fraction ++ used), proper, by simp, assembled,
      fun none => absurd none some, fun rest' free => ?_⟩
    obtain ⟨next, readPower'⟩ := settled rest' free
    have point : NoDigit ('.' :: (fraction ++ (used ++ rest'))) := by simp [NoDigit]
    have readWhole' := integerDigits_eq_ok_iff.mpr ⟨rfl, proper, point⟩
    have readFraction' := fractionDigits_eq_ok_iff.mpr (.inr ⟨some, all, rfl, next.1⟩)
    simp only [List.cons_append, List.append_assoc, scanUnsigned_eq, readWhole', ok_bind,
      readFraction', readPower', assembled, outcome, id]

/-- A whole numeral begins with a digit. -/
theorem IsWhole.first {whole : List Char} (proper : IsWhole whole) :
    ∃ c digits, whole = c :: digits ∧ c.isDigit = true := by
  obtain ⟨c, digits, rfl⟩ := List.exists_cons_of_ne_nil proper.nonempty
  exact ⟨c, digits, rfl, proper.all c List.mem_cons_self⟩

/-- Behind a minus the numeral is read as a negative one. -/
theorem scan_minus (tail : List Char) :
    bare scan ('-' :: tail) = bare (scanUnsigned true) tail := by
  rw [bare, bare, scan]
  cases scanUnsigned true tail <;> rfl

/-- Without a minus the numeral is read as it stands. -/
theorem scan_of_no_minus {text : List Char} (noMinus : ∀ tail, text ≠ '-' :: tail) :
    bare scan text = bare (scanUnsigned false) text := by
  unfold bare scan
  split
  · exact absurd rfl (noMinus _)
  · rfl

/-- A numeral with its sign. -/
theorem scan_eq (negative : Bool) {c : Char} (digit : c.isDigit = true) (text : List Char) :
    bare scan ((if negative then ['-'] else []) ++ c :: text) =
      bare (scanUnsigned negative) (c :: text) := by
  cases negative with
  | true => exact scan_minus (c :: text)
  | false =>
      apply scan_of_no_minus
      rintro tail same
      cases same
      cases digit

/-- A numeral is read from its parts, before whatever does not go on as one. -/
theorem scan_eq_ok {text rest : List Char} {number : Number}
    (read : bare scan text = .ok (number, rest)) :
    ∃ negative whole fraction power used, IsWhole whole ∧
      text = (if negative then ['-'] else []) ++ (whole ++ (used ++ rest)) ∧
      assemble negative whole fraction power = some number ∧
      (fraction = [] → power = none → used = []) ∧
      ∀ rest', Free rest' →
        bare scan ((if negative then ['-'] else []) ++ (whole ++ (used ++ rest'))) =
          .ok (number, rest') := by
  have unsigned (negative : Bool) (text : List Char)
      (read : bare (scanUnsigned negative) text = .ok (number, rest)) :
      ∃ whole fraction power used, IsWhole whole ∧ text = whole ++ (used ++ rest) ∧
        assemble negative whole fraction power = some number ∧
        (fraction = [] → power = none → used = []) ∧
        ∀ rest', Free rest' →
          bare scan ((if negative then ['-'] else []) ++ (whole ++ (used ++ rest'))) =
            .ok (number, rest') := by
    obtain ⟨whole, fraction, power, used, proper, split, assembled, plain, settled⟩ :=
      scanUnsigned_eq_ok read
    refine ⟨whole, fraction, power, used, proper, split, assembled, plain, fun rest' free => ?_⟩
    have read' := settled rest' free
    obtain ⟨c, digits, rfl, digit⟩ := proper.first
    rw [List.cons_append] at read' ⊢
    rw [scan_eq negative digit, read']
  by_cases minus : ∃ tail, text = '-' :: tail
  · obtain ⟨tail, rfl⟩ := minus
    rw [scan_minus] at read
    obtain ⟨whole, fraction, power, used, proper, rfl, facts⟩ := unsigned true tail read
    exact ⟨true, whole, fraction, power, used, proper, rfl, facts⟩
  · rw [scan_of_no_minus fun tail same => minus ⟨tail, same⟩] at read
    obtain ⟨whole, fraction, power, used, proper, rfl, facts⟩ := unsigned false text read
    exact ⟨false, whole, fraction, power, used, proper, rfl, facts⟩

/-- A number does not depend on what follows, if that does not go on as a numeral. -/
theorem scan_settled (text : List Char) : Settled Free (bare scan) text := by
  intro number rest read
  obtain ⟨negative, whole, -, -, used, -, rfl, -, -, settled⟩ := scan_eq_ok read
  refine ⟨(if negative then ['-'] else []) ++ (whole ++ used), by simp only [List.append_assoc], ?_⟩
  intro rest' free
  rw [List.append_assoc, List.append_assoc, settled rest' free]

/-- A number with more digits behind it. -/
def extend (start : Nat) (digits : List Char) : Nat :=
  digits.foldl (fun total c => 10 * total + Decimal.digit c) start

/-- A numeral is extended digit by digit. -/
theorem extend_cons (start : Nat) (c : Char) (digits : List Char) :
    extend start (c :: digits) = extend (10 * start + Decimal.digit c) digits :=
  List.foldl_cons

/-- Digits behind a number do not make it smaller. -/
theorem le_extend (start : Nat) (digits : List Char) : start ≤ extend start digits := by
  induction digits generalizing start with
  | nil => exact Nat.le_refl _
  | cons c digits ih =>
      rw [extend_cons]
      exact Nat.le_trans (by omega) (ih _)

/-- All digits go into the significand if the number they make up fits 64 bits. -/
theorem absorb_of_le {start : Nat} {digits : List Char}
    (fits : extend start digits ≤ Decimal.maxUnsigned) :
    absorb start digits = (extend start digits, []) := by
  induction digits generalizing start with
  | nil => rfl
  | cons c digits ih =>
      rw [extend_cons] at fits ⊢
      rw [absorb, if_pos (Nat.le_trans (le_extend _ _) fits), ih fits]

/-- Digits that make too large a number do not all fit on. -/
theorem absorb_of_lt {start : Nat} {digits : List Char} (small : start ≤ Decimal.maxUnsigned)
    (large : Decimal.maxUnsigned < extend start digits) : (absorb start digits).2 ≠ [] := by
  induction digits generalizing start with
  | nil => exact absurd large (Nat.not_lt.mpr small)
  | cons c digits ih =>
      rw [extend_cons] at large
      rw [absorb]
      split
      · rename_i next
        exact ih next large
      · exact List.cons_ne_nil _ _

end Numeral

/-! ## Integer literals -/

/-- A minus, perhaps, and digits without a leading zero. -/
structure Literal where
  negative : Bool
  digits : List Char
  whole : Numeral.IsWhole digits

namespace Literal

/-- The characters of a literal. -/
def spell (literal : Literal) : List Char :=
  (if literal.negative then ['-'] else []) ++ literal.digits

/-- The value of the digits of a literal. -/
def magnitude (literal : Literal) : Nat := Decimal.value literal.digits

/-- The value of a literal. -/
def value (literal : Literal) : Int :=
  if literal.negative then -(literal.magnitude : Int) else literal.magnitude

/-- A literal is kept as an integer: its value fits 64 bits, and it is not minus zero. -/
def Fits (literal : Literal) : Prop :=
  if literal.negative then 0 < literal.magnitude ∧ literal.magnitude ≤ Decimal.maxSigned + 1
  else literal.magnitude ≤ Decimal.maxUnsigned

instance (literal : Literal) : Decidable literal.Fits :=
  inferInstanceAs (Decidable (if literal.negative then
    0 < literal.magnitude ∧ literal.magnitude ≤ Decimal.maxSigned + 1
  else literal.magnitude ≤ Decimal.maxUnsigned))

/-- What is read of a literal, unless it is out of range. -/
def number? (literal : Literal) : Option Number :=
  Numeral.assemble literal.negative literal.digits [] none

variable (literal : Literal)

/-- A magnitude of 64 bits is read as an integer or, for a large negative one, as real. -/
theorem number?_of_le (whole : literal.magnitude ≤ Decimal.maxUnsigned) :
    literal.number? = some (Numeral.ofInteger literal.negative literal.magnitude) := by
  have absorbed : Numeral.absorb 0 literal.digits = (literal.magnitude, []) :=
    Numeral.absorb_of_le whole
  simp [number?, Numeral.assemble, absorbed]

/-- A literal that fits is read as its value. -/
theorem number?_of_fits (fits : literal.Fits) :
    literal.number? = some (.integer literal.value) := by
  have signed : Decimal.maxSigned + 1 ≤ Decimal.maxUnsigned := by decide
  cases negative : literal.negative with
  | true =>
      simp only [Fits, negative, ↓reduceIte] at fits
      rw [literal.number?_of_le (by omega), negative, Numeral.ofInteger, value, negative]
      simp [fits]
  | false =>
      simp only [Fits, negative, Bool.false_eq_true, ↓reduceIte] at fits
      rw [literal.number?_of_le fits, negative, Numeral.ofInteger, value, negative]
      simp

/-- A literal that does not fit is read as a real number or not at all. -/
theorem number?_of_not_fits (large : ¬ literal.Fits) :
    literal.number? = some .real ∨ literal.number? = none := by
  by_cases whole : literal.magnitude ≤ Decimal.maxUnsigned
  · rw [literal.number?_of_le whole, Numeral.ofInteger]
    cases negative : literal.negative with
    | true =>
        simp only [Fits, negative, ↓reduceIte] at large
        exact .inl (by rw [if_neg large]; rfl)
    | false => simp [Fits, negative, whole] at large
  · have scaled := Numeral.absorb_of_lt (Nat.zero_le _) (Nat.not_le.mp whole)
    simp only [number?, Numeral.assemble, scaled, false_and, ↓reduceIte]
    split
    · exact .inr rfl
    · exact .inl rfl

/-- A literal is read by itself, before whatever does not go on as a numeral. -/
theorem scan_append {rest : List Char} (free : Free rest) :
    bare Numeral.scan (literal.spell ++ rest) = Numeral.outcome id rest literal.number? := by
  have readWhole := Numeral.integerDigits_eq_ok_iff.mpr ⟨rfl, literal.whole, free.1⟩
  have readFraction :=
    Numeral.fractionDigits_eq_ok_iff.mpr (.inl ⟨rfl, rfl, free.noFraction.2⟩)
  obtain ⟨c, digits, whole, digit⟩ := literal.whole.first
  have unsigned : bare Numeral.scan (literal.spell ++ rest) =
      bare (Numeral.scanUnsigned literal.negative) (literal.digits ++ rest) := by
    rw [spell, List.append_assoc, whole]
    exact Numeral.scan_eq _ digit _
  have readPower : bare (Numeral.exponent? (Numeral.significandOf literal.digits [])) rest =
      .ok (none, rest) := Numeral.exponent?_of_free _ free
  simp only [unsigned, Numeral.scanUnsigned_eq, readWhole, ok_bind, readFraction, readPower,
    number?]

end Literal

/-- An integer comes from a literal with its value. -/
theorem exists_literal {text rest : List Char} {value : Int}
    (read : bare Numeral.scan text = .ok (.integer value, rest)) :
    ∃ literal : Literal, text = literal.spell ++ rest ∧ literal.value = value := by
  obtain ⟨negative, whole, fraction, power, used, proper, split, assembled, plain, -⟩ :=
    Numeral.scan_eq_ok read
  have parts : fraction = [] ∧ power = none := by
    simp only [Numeral.assemble] at assembled
    split at assembled
    · rename_i all
      exact all.2
    · split at assembled <;> cases assembled
  obtain ⟨rfl, rfl⟩ := parts
  cases plain rfl rfl
  refine ⟨⟨negative, whole, proper⟩, by rw [split, Literal.spell, List.append_assoc]; rfl, ?_⟩
  by_cases fits : Literal.Fits ⟨negative, whole, proper⟩
  · have read := Literal.number?_of_fits _ fits
    cases read.symm.trans assembled
    rfl
  · rcases Literal.number?_of_not_fits _ fits with read | read <;>
      cases read.symm.trans assembled

end CodeGraph.Json

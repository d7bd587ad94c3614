import CodeGraph.Proofs.Document.Scanning

/-! # Words and strings in a text

A word ends with its last letter and a string with its closing quote, so what is read of them does
not depend on what comes behind. The same holds for a key with its colon
(`CodeGraph.Json.key_settled`).
-/

namespace CodeGraph.Json

variable {fits : List Char → Prop}

/-- A node that is spelled as a word, of which only some letters are left to read. -/
def spelled (letters : List Char) (node : Node) : BareScanner Node :=
  bare fun text => (fun rest => (node, rest)) <$> word letters text

/-- A word is read where the text begins with its letters. -/
theorem word_eq_ok_iff {letters text : List Char} {rest : Suffix text} :
    word letters text = .ok rest ↔ text = letters ++ rest.val := by
  induction letters generalizing text with
  | nil =>
      change Except.ok _ = Except.ok rest ↔ text = rest.val
      rw [Except.ok.injEq, Subtype.ext_iff]
  | cons letter letters ih =>
      cases text with
      | nil =>
          constructor <;> intro same <;> cases same
      | cons c tail =>
          obtain ⟨rest, held⟩ := rest
          by_cases same : c = letter
          · subst same
            have step : word (c :: letters) (c :: tail) = (word letters tail >>= fun rest =>
                .ok ⟨rest.val, Nat.le_succ_of_le rest.property⟩) := if_pos rfl
            rw [step]
            constructor
            · intro read
              obtain ⟨behind, found, same⟩ := bind_eq_ok_iff.mp read
              cases same
              exact congrArg (c :: ·) (ih.mp found)
            · intro split
              have whole : tail = letters ++ rest := (List.cons.inj split).2
              subst whole
              exact bind_eq_ok_iff.mpr
                ⟨⟨rest, by rw [List.length_append]; omega⟩, ih.mpr rfl, rfl⟩
          · have step : word (letter :: letters) (c :: tail) =
                .error ⟨.expectedWord, c :: tail, 1⟩ := if_neg same
            simp only [step, reduceCtorEq, false_iff]
            exact fun split => same (List.cons.inj split).1

/-- A value that is spelled by one word is read where the text begins with the word. -/
theorem spelled_eq_ok_iff {letters text rest : List Char} {node value : Node} :
    spelled letters node text = .ok (value, rest) ↔ node = value ∧ text = letters ++ rest := by
  rw [spelled, bare_eq_ok_iff]
  constructor
  · rintro ⟨held, read⟩
    obtain ⟨behind, read, same⟩ := map_eq_ok_iff.mp read
    cases same
    exact ⟨rfl, word_eq_ok_iff.mp read⟩
  · rintro ⟨rfl, rfl⟩
    refine ⟨by rw [List.length_append]; omega, map_eq_ok_iff.mpr ⟨_, word_eq_ok_iff.mpr ?_, rfl⟩⟩
    rfl

/-- A word does not depend on what follows. -/
theorem spelled_settled (letters : List Char) (node : Node) (text : List Char) :
    Settled fits (spelled letters node) text := by
  intro value rest read
  obtain ⟨rfl, rfl⟩ := spelled_eq_ok_iff.mp read
  exact ⟨letters, rfl, fun _ _ => spelled_eq_ok_iff.mpr ⟨rfl, rfl⟩⟩

namespace Quoted

/-- Four hexadecimal digits do not depend on what follows. -/
theorem hexGroup_settled (text : List Char) : Settled fits (bare hexGroup) text := by
  intro value rest read
  rw [bare_eq_ok_iff] at read
  obtain ⟨held, read⟩ := read
  unfold hexGroup at read
  split at read
  · cases read
  · rename_i long
    split at read
    · rename_i a b c d behind
      split at read
      · rename_i found
        cases read
        refine ⟨[a, b, c, d], rfl, fun rest' _ => ?_⟩
        have long' : ¬ byteLength [a, b, c, d] < 4 := long
        simp [bare, hexGroup, long', found]
      · cases read
    · cases read

/-- An expected character does not depend on what follows. -/
theorem expectInEscape_settled (expected : Char) (text : List Char) :
    Settled fits (bare (expectInEscape expected)) text := by
  cases text with
  | nil => nofun
  | cons c tail =>
      refine .cons ?_
      have step : (fun tail => bare (expectInEscape expected) (c :: tail)) = fun tail =>
          if c = expected then .ok ((), tail) else .error .endOfEscape := by
        funext tail
        simp only [bare, expectInEscape]
        split <;> rfl
      rw [step]
      exact .ite (fun _ => .pure ()) fun _ => .error _

/-- An escape by hexadecimal digits is one group, or two for a pair of surrogates. -/
theorem bare_unicodeEscape : bare unicodeEscape =
    andThen (bare hexGroup) fun high text =>
      if 0xDC00 ≤ high ∧ high ≤ 0xDFFF then .error .loneSurrogate
      else if 0xD800 ≤ high ∧ high ≤ 0xDBFF then
        andThen (bare (expectInEscape '\\')) (fun _ => andThen (bare (expectInEscape 'u')) fun _ =>
          andThen (bare hexGroup) fun low text =>
            if 0xDC00 ≤ low ∧ low ≤ 0xDFFF then
              .ok (Char.ofNat (0x10000 + (high - 0xD800) * 0x400 + (low - 0xDC00)), text)
            else .error .loneSurrogate) text
      else .ok (Char.ofNat high, text) := by
  funext text
  refine strip_bind fun high rest => ?_
  dsimp only
  split
  · rfl
  · split
    · refine strip_bind fun _ slash => strip_bind fun _ letter => strip_bind fun low after => ?_
      dsimp only
      split <;> rfl
    · rfl

/-- An escape by hexadecimal digits does not depend on what follows. -/
theorem unicodeEscape_settled (text : List Char) : Settled fits (bare unicodeEscape) text := by
  rw [bare_unicodeEscape]
  refine .andThen (hexGroup_settled text) fun high rest _ => ?_
  refine .ite (fun _ => .error _) fun _ => .ite (fun _ => ?_) fun _ => .pure _
  refine .andThen (expectInEscape_settled _ _) fun _ slash _ => ?_
  refine .andThen (expectInEscape_settled _ _) fun _ letter _ => ?_
  exact .andThen (hexGroup_settled _) fun low after _ =>
    .ite (fun _ => .pure _) fun _ => .error _

/-- An escape is told by its first character. -/
theorem bare_escape_cons (c : Char) : (fun tail => bare escape (c :: tail)) = fun tail =>
    if c = 'u' then bare unicodeEscape tail
    else match escaped? c with
      | some value => .ok (value, tail)
      | none => .error .invalidEscape := by
  funext tail
  simp only [bare, escape]
  split
  · cases unicodeEscape tail <;> rfl
  · cases escaped? c <;> rfl

/-- An escape does not depend on what follows. -/
theorem escape_settled (text : List Char) : Settled fits (bare escape) text := by
  cases text with
  | nil => nofun
  | cons c tail =>
      refine .cons ?_
      rw [bare_escape_cons]
      refine .ite (fun _ => unicodeEscape_settled tail) fun _ => ?_
      cases escaped? c with
      | some value => exact .pure value
      | none => exact .error _

/-- A string is told character by character: its end, an escape, or a character of its own. -/
theorem bare_scan_cons (c : Char) : (fun tail => bare scan (c :: tail)) = fun tail =>
    if c = '"' then .ok ([], tail)
    else if c = '\\' then andThen (bare escape) (fun value => mapped (value :: ·) (bare scan)) tail
    else if c.toNat < 0x20 then .error .controlCharacter
    else mapped (c :: ·) (bare scan) tail := by
  funext tail
  simp only [bare]
  rw [scan]
  dsimp only
  split
  · rfl
  · split
    · refine strip_bind fun value rest => ?_
      exact strip_mapped fun values after => rfl
    · split
      · rfl
      · exact strip_mapped fun values after => rfl

/-- A string does not depend on what follows its closing quote. -/
theorem scan_settled (text : List Char) : Settled fits (bare scan) text := by
  induction length : text.length using Nat.strong_induction_on generalizing text with
  | _ bound ih =>
      subst length
      cases text with
      | nil =>
          intro value rest read
          rw [bare, scan] at read
          cases read
      | cons c tail =>
          refine .cons ?_
          rw [bare_scan_cons]
          refine .ite (fun _ => .pure []) fun _ => .ite (fun _ => ?_) fun _ =>
            .ite (fun _ => .error _) fun _ => .mapped _ (ih _ (length_tail_lt c tail) tail rfl)
          refine .andThen (escape_settled tail) fun value rest read => .mapped _ (ih _ ?_ rest rfl)
          exact Nat.lt_trans (length_lt_of_bare read) (length_tail_lt c tail)

end Quoted

/-- The colon behind a key. -/
def colon (name : List Char) : BareScanner String
  | [] => .error .endInObject
  | c :: tail => if c = ':' then .ok (String.ofList name, tail) else .error .expectedColon

/-- A key is a string with a colon behind it. -/
theorem bare_key :
    bare key = andThen (bare Quoted.scan) fun name text => colon name (skipBlanks text) := by
  funext text
  refine strip_bind fun name rest => ?_
  dsimp only
  split
  · rename_i none
    rw [none]
    rfl
  · rename_i c tail found
    simp only [found, colon]
    split <;> rfl

/-- A key does not depend on what follows its colon. -/
theorem key_settled (text : List Char) : Settled fits (bare key) text := by
  rw [bare_key]
  refine .andThen (Quoted.scan_settled text) fun name rest _ => .blanks ?_ ?_
  · intro value behind read
    generalize skipBlanks rest = next at read ⊢
    cases next with
    | nil => cases read
    | cons c tail =>
        rw [colon] at read
        split at read
        · cases read
          exact length_tail_lt _ _
        · cases read
  · cases skipBlanks rest with
    | nil =>
        intro value behind read
        cases read
    | cons c tail => exact .cons (.ite (fun _ => .pure _) fun _ => .error _)

end CodeGraph.Json

import Crawler.Proofs.Scalar

/-! Keys and statements of a document as text. A key that was written is read as the same name, and a
line that gives a written scalar to a written key is read as the statement that it stands for. -/
namespace Crawler.Toml

section Keys

variable {chars rest : List Char} {c : Char}

private theorem isPrintable_of_not_isControl (plain : isControl c = false) : isPrintable c = true := by
  unfold isControl at plain
  unfold isPrintable
  grind

/-- Only characters of one byte are named by their numbers. -/
theorem named_of_isControl (control : isControl c = true) (rest : List Char) :
    namedChar? 4 (fourDigits c.toNat ++ rest) = some (c, rest) := by
  have small : c.toNat < 128 := by
    unfold isControl at control
    grind
  have read : ∀ n < 128, (fourDigits n).length = 4 ∧ (fourDigits n).all isHexDigit = true ∧
      valueInBase 16 (fourDigits n) = n := by decide +kernel
  obtain ⟨length, digits, value⟩ := read c.toNat small
  have taken : (fourDigits c.toNat ++ rest).take 4 = fourDigits c.toNat := List.take_left' length
  have left : (fourDigits c.toNat ++ rest).drop 4 = rest := List.drop_left' length
  unfold namedChar?
  dsimp only
  rw [taken, left, value, if_pos ⟨length, digits, .inl (by omega), by omega⟩, Char.ofNat_toNat]

private theorem basicText_escape (c : Char) (fuel : ℕ) (rest : List Char) :
    basicText? (fuel + 1) (escape c ++ rest) = (basicText? fuel rest).map fun (s, rest) => (c :: s, rest) := by
  unfold escape
  split
  any_goals rfl
  next quote backslash =>
    split
    · next control =>
      have read : escaped? ('u' :: (fourDigits c.toNat ++ rest)) = some (c, rest) :=
        named_of_isControl control rest
      rw [List.cons_append, List.cons_append]
      conv_lhs => unfold basicText?
      simp only [read]
    · next control =>
      have printable := isPrintable_of_not_isControl (Bool.eq_false_iff.mpr control)
      rw [List.singleton_append]
      conv_lhs => unfold basicText?
      split
      · next same => exact absurd (List.cons.inj same).1 quote
      · next same => exact absurd (List.cons.inj same).1 backslash
      · next same =>
        obtain ⟨rfl, rfl⟩ := List.cons.inj same
        rw [if_pos printable]
      · next same => cases same

private theorem basicText_escaped (chars rest : List Char) {fuel : ℕ} (enough : chars.length < fuel) :
    basicText? fuel (chars.flatMap escape ++ '"' :: rest) = some (chars, rest) := by
  induction chars generalizing fuel with
  | nil =>
    obtain ⟨fuel, rfl⟩ := Nat.exists_eq_succ_of_ne_zero enough.ne'
    rfl
  | cons c others ih =>
    obtain ⟨fuel, rfl⟩ := Nat.exists_eq_succ_of_ne_zero (Nat.zero_lt_of_lt enough).ne'
    rw [List.flatMap_cons, List.append_assoc, basicText_escape, ih (Nat.lt_of_succ_lt_succ enough)]
    rfl

private theorem length_escape (c : Char) : 1 ≤ (escape c).length := by
  unfold escape
  split
  any_goals exact Nat.le_add_left ..
  split <;> exact Nat.le_add_left ..

private theorem length_escaped (chars : List Char) : chars.length ≤ (chars.flatMap escape).length := by
  induction chars with
  | nil => exact Nat.le_refl 0
  | cons c others ih =>
    have here := length_escape c
    rw [List.flatMap_cons, List.length_append, List.length_cons]
    omega

private theorem keyPart_escaped (chars rest : List Char) :
    keyPart? ('"' :: (chars.flatMap escape ++ '"' :: rest)) = some (String.ofList chars, rest) := by
  have enough : chars.length < (chars.flatMap escape ++ '"' :: rest).length + 1 := by
    have least := length_escaped chars
    rw [List.length_append]
    omega
  have read := basicText_escaped chars rest enough
  change (basicText? _ (chars.flatMap escape ++ '"' :: rest)).map _ = _
  rw [read]
  rfl

private theorem keyPart_literal (plain : ∀ c ∈ chars, isControl c = false ∧ c ≠ '\'') (rest : List Char) :
    keyPart? ('\'' :: (chars ++ '\'' :: rest)) = some (String.ofList chars, rest) := by
  have parts (c : Char) (inside : c ∈ chars) : (c ≠ '\'' && isPrintable c) = true := by
    obtain ⟨control, apart⟩ := plain c inside
    rw [isPrintable_of_not_isControl control, decide_eq_true apart]
    rfl
  have read : literalText? (chars ++ '\'' :: rest) = some (chars, rest) := by
    unfold literalText?
    dsimp only
    rw [List.dropWhile_append_of_pos parts, List.takeWhile_append_of_pos parts]
    change some (chars ++ [], rest) = _
    rw [List.append_nil]
  change (literalText? (chars ++ '\'' :: rest)).map _ = _
  rw [read]
  rfl

private theorem keyPart_bare (bare : isBareKey chars = true) (ended : isBareChar c = false) :
    keyPart? (chars ++ c :: rest) = some (String.ofList chars, c :: rest) := by
  obtain ⟨begun, parts⟩ := Bool.and_eq_true_iff.mp bare
  have parts : ∀ d ∈ chars, isBareChar d = true := List.all_eq_true.mp parts
  have front : (chars ++ c :: rest).takeWhile isBareChar = chars := by
    rw [List.takeWhile_append_of_pos parts, List.takeWhile_cons_of_neg (Bool.eq_false_iff.mp ended),
      List.append_nil]
  have after : (chars ++ c :: rest).dropWhile isBareChar = c :: rest := by
    rw [List.dropWhile_append_of_pos parts, List.dropWhile_cons_of_neg (Bool.eq_false_iff.mp ended)]
  cases chars with
  | nil => cases begun
  | cons d others =>
    have here := parts d List.mem_cons_self
    unfold keyPart?
    split
    · next same =>
      rw [(List.cons.inj same).1] at here
      cases here
    · next same =>
      rw [(List.cons.inj same).1] at here
      cases here
    · rw [front, after]
      rfl

/-- The forms of a written key: bare, in quotes with escapes, and in quotes without. -/
theorem writeKey_cases (name : String) :
    (writeKey name = name.toList ∧ isBareKey name.toList = true) ∨
      writeKey name = '"' :: (name.toList.flatMap escape ++ ['"']) ∨
      (writeKey name = '\'' :: (name.toList ++ ['\'']) ∧
        ∀ c ∈ name.toList, isControl c = false ∧ c ≠ '\'') := by
  unfold writeKey
  dsimp only
  split
  · next bare => exact .inl ⟨rfl, bare⟩
  split
  · exact .inr (.inl rfl)
  next control =>
  split
  · exact .inr (.inl rfl)
  split
  · next quote =>
    refine .inr (.inr ⟨rfl, fun c inside => ⟨?_, fun apostrophe => ?_⟩⟩)
    · exact Bool.eq_false_iff.mpr fun here => control (List.any_eq_true.mpr ⟨c, inside, here⟩)
    · have there : name.toList.any (· = '\'') = true :=
        List.any_eq_true.mpr ⟨c, inside, decide_eq_true apostrophe⟩
      rw [there] at quote
      cases quote
  · exact .inr (.inl rfl)

/-- A key that was written ends where a blank comes. -/
theorem keyPart_writeKey (name : String) (rest : List Char) :
    keyPart? (writeKey name ++ ' ' :: rest) = some (name, ' ' :: rest) := by
  have same : String.ofList name.toList = name := String.ofList_toList
  rcases writeKey_cases name with ⟨written, bare⟩ | written | ⟨written, plain⟩
  · have read := @keyPart_bare name.toList rest ' ' bare rfl
    rwa [same, ← written] at read
  · have read := keyPart_escaped name.toList (' ' :: rest)
    rw [written, List.cons_append, List.append_assoc]
    rwa [same] at read
  · have read := keyPart_literal plain (' ' :: rest)
    rw [written, List.cons_append, List.append_assoc]
    rwa [same] at read

private theorem writeKey_begun (name : String) :
    ∃ c others, writeKey name = c :: others ∧ (isBareChar c = true ∨ c = '"' ∨ c = '\'') := by
  rcases writeKey_cases name with ⟨written, bare⟩ | written | ⟨written, _⟩
  · obtain ⟨begun, parts⟩ := Bool.and_eq_true_iff.mp bare
    cases found : name.toList with
    | nil =>
      rw [found] at begun
      cases begun
    | cons c others =>
      rw [found] at parts written
      exact ⟨c, others, written, .inl (List.all_eq_true.mp parts c List.mem_cons_self)⟩
  · exact ⟨_, _, written, .inr (.inl rfl)⟩
  · exact ⟨_, _, written, .inr (.inr rfl)⟩

end Keys

section Statements

variable {text rest : List Char} {value : Toml}

private theorem skipSpace_of_scalar {c : Char} (scalar : isScalarChar c = true) (rest : List Char) :
    skipSpace (c :: rest) = c :: rest := by
  have seen : ¬ isSpace c = true := by
    intro space
    have marks : c = ' ' ∨ c = '\t' := by
      unfold isSpace at space
      grind
    rcases marks with rfl | rfl <;> cases scalar
  exact List.dropWhile_cons_of_neg seen

private theorem assignment_written (name : String) (writes : Writes text value) (rest : List Char) :
    assignment? (writeKey name ++ " = ".toList ++ text ++ '\n' :: rest) =
      some ([], name, value, '\n' :: rest) := by
  have shape : writeKey name ++ " = ".toList ++ text ++ '\n' :: rest =
      writeKey name ++ ' ' :: '=' :: ' ' :: (text ++ '\n' :: rest) := by simp
  have key : key? maxParts (writeKey name ++ ' ' :: '=' :: ' ' :: (text ++ '\n' :: rest)) =
      some ([], name, ' ' :: '=' :: ' ' :: (text ++ '\n' :: rest)) := by
    unfold maxParts key?
    rw [keyPart_writeKey]
    rfl
  have start : skipSpace (' ' :: (text ++ '\n' :: rest)) = text ++ '\n' :: rest := by
    change skipSpace (text ++ '\n' :: rest) = _
    obtain ⟨c, others, rfl⟩ := List.exists_cons_of_ne_nil writes.begun
    exact skipSpace_of_scalar (writes.chars c List.mem_cons_self).1 _
  unfold assignment?
  rw [shape, key]
  change (value? _ maxDepth (skipSpace (' ' :: (text ++ '\n' :: rest)))).map _ = _
  rw [start, value_of_writes writes]
  rfl

/-- What starts a key is skipped neither as a gap nor as the start of a header. -/
theorem skipGap_key {c : Char} (first : isBareChar c = true ∨ c = '"' ∨ c = '\'') (rest : List Char) :
    skipGap false (c :: rest) = c :: rest ∧ c ≠ '[' := by
  have apart (mark : Char) (other : isBareChar mark = false) (quote : mark ≠ '"')
      (apostrophe : mark ≠ '\'') : c ≠ mark := by
    rintro rfl
    rcases first with bare | same | same
    · rw [other] at bare
      cases bare
    · exact quote same
    · exact apostrophe same
  have seen : ¬ isSpace c = true := by
    intro space
    have marks : c = ' ' ∨ c = '\t' := by
      unfold isSpace at space
      grind
    rcases marks with same | same
    · exact apart ' ' rfl (by decide) (by decide) same
    · exact apart '\t' rfl (by decide) (by decide) same
  refine ⟨?_, apart '[' rfl (by decide) (by decide)⟩
  unfold skipGap
  split
  · next same => exact absurd (List.cons.inj same).1 (apart '\n' rfl (by decide) (by decide))
  · next same => exact absurd (List.cons.inj same).1 (apart '\r' rfl (by decide) (by decide))
  · contradiction
  · next same => exact absurd (List.cons.inj same).1 (apart '#' rfl (by decide) (by decide))
  · next same =>
    obtain ⟨rfl, rfl⟩ := List.cons.inj same
    rw [if_neg seen]
  · next same => cases same

def line (name : String) (text : List Char) : List Char := writeKey name ++ " = ".toList ++ text ++ ['\n']

theorem statements_line {draft : Draft} {entries : Entries} (name : String) (writes : Writes text value)
    (assigned : updateAt (assign [] name value) draft.path draft.entries = some entries) (fuel : ℕ)
    (rest : List Char) :
    statements? (fuel + 1) draft (line name text ++ rest) = statements? fuel ⟨entries, draft.path⟩ rest := by
  obtain ⟨c, others, begun, first⟩ := writeKey_begun name
  have shape : line name text ++ rest = writeKey name ++ " = ".toList ++ text ++ '\n' :: rest :=
    List.append_assoc _ ['\n'] rest
  obtain ⟨tail, opened⟩ : ∃ tail, writeKey name ++ " = ".toList ++ text ++ '\n' :: rest = c :: tail := by
    rw [begun]
    exact ⟨_, rfl⟩
  obtain ⟨gap, header⟩ := skipGap_key first tail
  have read : statement? draft (c :: tail) = some (⟨entries, draft.path⟩, '\n' :: rest) := by
    unfold statement?
    split
    · next same => exact absurd (List.cons.inj same).1 header
    · rw [← opened, assignment_written name writes]
      dsimp only
      rw [assigned]
      rfl
  rw [shape, opened]
  conv_lhs => unfold statements?
  rw [gap]
  dsimp only
  rw [read]
  rfl

end Statements

end Crawler.Toml

import Crawler.Direction
import Mathlib.Data.List.TakeWhile

/-! How a direction is written in a text: by the digit of its code, with zeros and a plus sign before it,
or by its name, in letters of either case with marks anywhere between them, and blanks around the whole.
So much is read and nothing else. -/
namespace Crawler

section Letters

variable {c : Char}

private theorem isAlpha_iff : c.isAlpha = true ↔
    65 ≤ c.toNat ∧ c.toNat ≤ 90 ∨ 97 ≤ c.toNat ∧ c.toNat ≤ 122 := by
  change (decide (c.val ≥ 65 ∧ c.val ≤ 90) || c.val ≥ 97 && c.val ≤ 122) = true ↔ _
  simp [UInt32.le_iff_toNat_le]

/-- Only a letter has a letter for its small form. -/
theorem isAlpha_of_toLower (small : c.toLower.isAlpha = true) : c.isAlpha = true := by
  unfold Char.toLower at small
  split at small
  · next upper =>
    refine isAlpha_iff.mpr (.inl ?_)
    simpa [UInt32.le_iff_toNat_le] using upper
  · exact small

private theorem isDigit_of_isAlpha (letter : c.isAlpha = true) : c.isDigit = false := by
  have range := isAlpha_iff.mp letter
  refine Bool.eq_false_iff.mpr fun digit => ?_
  have : 48 ≤ c.toNat ∧ c.toNat ≤ 57 := Char.isDigit_iff_toNat.mp digit
  omega

/-- Between the space and the last plain character nothing is blank. -/
theorem isBlank_of_plain (above : 32 < c.toNat) (below : c.toNat < 127) : Text.isBlank c = false := by
  simp only [Text.isBlank, Text.blankRanges, List.any_cons, List.any_nil, Bool.or_false,
    Bool.or_eq_false_iff, Bool.and_eq_false_iff, decide_eq_false_iff_not]
  omega

end Letters

namespace Text

variable {text : String} {before chars after : List Char}

private theorem trim_split (text : String) : ∃ before after,
    text.toList = before ++ (trim text).toList ++ after ∧ ∀ c ∈ before ++ after, isBlank c = true := by
  refine ⟨text.toList.takeWhile isBlank,
    ((text.toList.dropWhile isBlank).reverse.takeWhile isBlank).reverse, ?_, fun c here => ?_⟩
  · rw [trim, String.toList_ofList, List.append_assoc, ← List.reverse_append,
      List.takeWhile_append_dropWhile, List.reverse_reverse, List.takeWhile_append_dropWhile]
  · rcases List.mem_append.mp here with early | late
    · exact List.mem_takeWhile_imp early
    · exact List.mem_takeWhile_imp (List.mem_reverse.mp late)

private theorem dropWhile_of_plain (plain : ∀ c ∈ chars, isBlank c = false) :
    chars.dropWhile isBlank = chars := by
  cases chars with
  | nil => rfl
  | cons c rest => exact List.dropWhile_cons_of_neg (by simp [plain c List.mem_cons_self])

private theorem trim_of_split (split : text.toList = before ++ chars ++ after)
    (blank : ∀ c ∈ before ++ after, isBlank c = true) (plain : ∀ c ∈ chars, isBlank c = false) :
    (trim text).toList = chars := by
  have early (c : Char) (here : c ∈ before) : isBlank c = true := blank c (List.mem_append_left _ here)
  have late (c : Char) (here : c ∈ after.reverse) : isBlank c = true :=
    blank c (List.mem_append_right _ (List.mem_reverse.mp here))
  rw [trim, String.toList_ofList, split, List.append_assoc, List.dropWhile_append_of_pos early]
  cases chars with
  | nil =>
    have empty : after.dropWhile isBlank = [] :=
      List.dropWhile_eq_nil_iff.mpr fun c here => late c (List.mem_reverse.mpr here)
    rw [List.nil_append, empty]
    rfl
  | cons c rest =>
    rw [List.cons_append, List.dropWhile_cons_of_neg (by simp [plain c List.mem_cons_self]),
      ← List.cons_append, List.reverse_append, List.dropWhile_append_of_pos late,
      dropWhile_of_plain fun x here => plain x (List.mem_reverse.mp here), List.reverse_reverse]

end Text

namespace Number

variable {above : Nat} {overflow : IntegerFault} {read n : Nat} {c : Char} {rest chars : List Char}

private theorem readDigits_cons (answered : readDigits above overflow read (c :: rest) = .ok n) :
    c.isDigit = true ∧ readDigits above overflow (10 * read + (c.toNat - 48)) rest = .ok n := by
  simp only [readDigits] at answered
  split at answered
  · next digit =>
    split at answered
    · exact ⟨digit, answered⟩
    · cases answered
  · cases answered

/-- The digits that follow do not make a number smaller. -/
theorem le_of_readDigits (answered : readDigits above overflow read chars = .ok n) : read ≤ n := by
  induction chars generalizing read with
  | nil =>
    cases answered
    exact Nat.le_refl _
  | cons c rest ih =>
    have grown := ih (readDigits_cons answered).2
    omega

private theorem digitChar_facts : ∀ n < 10,
    (Nat.digitChar n).isDigit = true ∧ (Nat.digitChar n).toNat = 48 + n := by
  decide

private theorem eq_digitChar (digit : c.isDigit = true) : c = Nat.digitChar (c.toNat - 48) := by
  have range : 48 ≤ c.toNat ∧ c.toNat ≤ 57 := Char.isDigit_iff_toNat.mp digit
  have value := (digitChar_facts (c.toNat - 48) (by omega)).2
  rw [Nat.add_sub_cancel' range.1] at value
  exact Char.toNat_inj.mp value.symm

/-- A number of one digit is written as that digit, with zeros before it. -/
theorem readDigits_eq_ok_iff (small : n < 10) (within : n ≤ above) :
    chars ≠ [] ∧ readDigits above overflow 0 chars = .ok n ↔
      ∃ zeros, chars = List.replicate zeros '0' ++ [Nat.digitChar n] := by
  constructor
  · rintro ⟨begun, answered⟩
    induction chars with
    | nil => exact absurd rfl begun
    | cons c rest ih =>
      obtain ⟨digit, answered⟩ := readDigits_cons answered
      cases rest with
      | nil =>
        have value : c.toNat - 48 = n := by simpa [readDigits] using answered
        exact ⟨0, by rw [← value, ← eq_digitChar digit]; rfl⟩
      | cons x more =>
        -- Another digit follows, and a number that small has only zeros before its last one.
        have grown := le_of_readDigits (readDigits_cons answered).2
        have zero : c.toNat - 48 = 0 := by omega
        rw [zero] at answered
        obtain ⟨zeros, written⟩ := ih (List.cons_ne_nil _ _) answered
        refine ⟨zeros + 1, ?_⟩
        rw [eq_digitChar digit, zero, written]
        rfl
  · rintro ⟨zeros, rfl⟩
    obtain ⟨digit, value⟩ := digitChar_facts n small
    refine ⟨by simp, ?_⟩
    induction zeros with
    | zero => simp [readDigits, digit, value, within]
    | succ zeros ih => simpa [List.replicate_succ, readDigits] using ih

private theorem map_eq_ok {result : Except IntegerFault Nat} {m : Int}
    (answered : result.map Int.ofNat = .ok m) :
    ∃ n : Nat, result = .ok n ∧ m = n := by
  cases result with
  | error e => cases answered
  | ok n =>
    cases answered
    exact ⟨n, rfl, rfl⟩

private theorem readInteger_eq_ok_iff {text : String} {m : Int} : readInteger 0 above text = .ok m ↔
    ∃ sign digits n, (sign = [] ∨ sign = ['+']) ∧ text.toList = sign ++ digits ∧
      (digits ≠ [] ∧ readDigits above .tooLarge 0 digits = .ok n) ∧ m = n := by
  constructor
  · intro answered
    unfold readInteger at answered
    split at answered
    · cases answered
    · cases answered
    · cases answered
    · next digits begun same =>
      obtain ⟨n, read, rfl⟩ := map_eq_ok answered
      exact ⟨['+'], digits, n, .inr rfl, same, ⟨begun, read⟩, rfl⟩
    · cases answered
    · next begun _ _ _ _ =>
      obtain ⟨n, read, rfl⟩ := map_eq_ok answered
      exact ⟨[], text.toList, n, .inl rfl, rfl, ⟨begun, read⟩, rfl⟩
  · rintro ⟨sign, digits, n, plus, same, ⟨begun, read⟩, rfl⟩
    obtain ⟨c, rest, rfl⟩ := List.exists_cons_of_ne_nil begun
    have digit := (readDigits_cons read).1
    -- A digit is no sign, so the case of the sign is the one that the text was written with.
    unfold readInteger
    rcases plus with rfl | rfl
    · rw [same, List.nil_append]
      split
      · next empty => cases empty
      · next alone => cases alone; cases digit
      · next alone => cases alone; cases digit
      · next signed => cases signed; cases digit
      · next signed => cases signed; cases digit
      · rw [read]
        rfl
    · rw [same, List.singleton_append]
      split
      · next empty => cases empty
      · next alone => cases alone
      · next alone => cases alone
      · next signed =>
        cases signed
        rw [read]
        rfl
      · next signed => cases signed
      · next signed _ => exact (signed _ rfl).elim

end Number

/-- The ways to spell a name: its letters in either case, and marks anywhere between them. The Kelvin sign
counts as the letter that it looks like. -/
inductive Direction.Spelling : List Char → List Char → Prop
  | nil : Spelling [] []
  | letter {c x : Char} {chars name : List Char} (same : c.toLower = x.toLower)
    (rest : Spelling chars name) : Spelling (c :: chars) (x :: name)
  | kelvin {x : Char} {chars name : List Char} (same : x.toLower = 'k') (rest : Spelling chars name) :
    Spelling ('\u212a' :: chars) (x :: name)
  | mark {c : Char} {chars name : List Char} (mark : c = '_' ∨ c = '-') (rest : Spelling chars name) :
    Spelling (c :: chars) name

theorem Direction.Spelling.refl : ∀ name : List Char, Spelling name name
  | [] => .nil
  | _ :: rest => .letter rfl (refl rest)

inductive Direction.Written (d : Direction) : List Char → Prop
  | code {sign : List Char} (plus : sign = [] ∨ sign = ['+']) (zeros : Nat) :
    Written d (sign ++ (List.replicate zeros '0' ++ [Nat.digitChar d.code]))
  | name {chars : List Char} (spelled : Spelling chars d.name.toList) : Written d chars

namespace Direction

variable {d : Direction} {c : Char} {chars name : List Char} {text : String}

private theorem foldName_mark (mark : c = '_' ∨ c = '-') : foldName (c :: chars) = foldName chars := by
  rcases mark with rfl | rfl <;> rfl

private theorem foldName_cons (other : ¬(c = '_' ∨ c = '-')) :
    foldName (c :: chars) = Text.foldLetter c :: foldName chars := by
  have kept : decide (c ≠ '_' ∧ c ≠ '-') = true := decide_eq_true (not_or.mp other)
  exact congrArg (List.map Text.foldLetter) (List.filter_cons_of_pos kept)

private theorem foldLetter_of_ne (other : c ≠ '\u212a') : Text.foldLetter c = c.toLower := by
  unfold Text.foldLetter
  rw [if_neg other]

/-- A spelling is what has the same letters once case and marks are gone. -/
theorem spelling_iff (letters : ∀ x ∈ name, x.toLower.isAlpha = true) :
    Spelling chars name ↔ foldName chars = name.map Char.toLower := by
  constructor
  · intro spelled
    induction spelled with
    | nil => rfl
    | @letter c x chars name same _ ih =>
      obtain ⟨first, others⟩ := List.forall_mem_cons.mp letters
      have letter : c.isAlpha = true := isAlpha_of_toLower (same ▸ first)
      have unmarked : ¬(c = '_' ∨ c = '-') := by
        rintro (rfl | rfl) <;> cases letter
      have plain : c ≠ '\u212a' := by
        rintro rfl
        cases letter
      rw [foldName_cons unmarked, foldLetter_of_ne plain, same, ih others, List.map_cons]
    | kelvin same _ ih =>
      rw [foldName_cons (by decide), ih (List.forall_mem_cons.mp letters).2, List.map_cons, same]
      rfl
    | mark mark _ ih => rw [foldName_mark mark, ih letters]
  · clear letters
    intro folded
    induction chars generalizing name with
    | nil =>
      obtain rfl : name = [] := List.map_eq_nil_iff.mp folded.symm
      exact .nil
    | cons c rest ih =>
      by_cases mark : c = '_' ∨ c = '-'
      · rw [foldName_mark mark] at folded
        exact .mark mark (ih folded)
      · rw [foldName_cons mark] at folded
        obtain ⟨x, others, rfl, first, later⟩ := List.map_eq_cons_iff.mp folded.symm
        by_cases kelvin : c = '\u212a'
        · subst kelvin
          exact .kelvin first (ih later.symm)
        · rw [foldLetter_of_ne kelvin] at first
          exact .letter first.symm (ih later.symm)

private theorem isAlpha_name (d : Direction) : ∀ x ∈ d.name.toList, x.toLower.isAlpha = true := by
  refine List.all_eq_true.mp ?_
  cases d <;> rfl

private theorem find_name (d : Direction) :
    all.find? (fun e => foldName e.name.toList = d.name.toList.map Char.toLower) = some d := by
  cases d <;> decide

private theorem ofName?_eq_some_iff : ofName? text = some d ↔ Spelling text.toList d.name.toList := by
  rw [spelling_iff d.isAlpha_name]
  constructor
  · intro found
    have same : foldName d.name.toList = foldName text.toList := by simpa using List.find?_some found
    rw [← same, ← spelling_iff d.isAlpha_name]
    exact .refl _
  · intro folded
    unfold ofName?
    rw [folded]
    exact d.find_name

private theorem code_get : ∀ i : Fin all.length, i.val = (all.get i).code := by decide

theorem ofCode_eq_ok_iff {n : Nat} : ofCode n = .ok d ↔ n = d.code := by
  constructor
  · intro answered
    unfold ofCode at answered
    split at answered
    · next found =>
      cases answered
      obtain ⟨within, rfl⟩ := List.getElem?_eq_some_iff.mp found
      exact code_get ⟨n, within⟩
    · cases answered
  · rintro rfl
    rw [ofCode, ofCode?_code]

private theorem code_lt (d : Direction) : d.code < 10 := by cases d <;> decide

private theorem isDigit_code (d : Direction) : (Nat.digitChar d.code).isDigit = true := by
  exact (Number.digitChar_facts d.code d.code_lt).1

private theorem Spelling.plain (spelled : Spelling chars name)
    (letters : ∀ x ∈ name, x.toLower.isAlpha = true)
    (here : c ∈ chars) : Text.isBlank c = false ∧ c.isDigit = false := by
  induction spelled with
  | nil => cases here
  | letter same _ ih =>
    obtain ⟨first, others⟩ := List.forall_mem_cons.mp letters
    rcases List.mem_cons.mp here with rfl | later
    · have letter := isAlpha_of_toLower (same ▸ first)
      have range := isAlpha_iff.mp letter
      exact ⟨isBlank_of_plain (by omega) (by omega), isDigit_of_isAlpha letter⟩
    · exact ih others later
  | kelvin _ _ ih =>
    rcases List.mem_cons.mp here with rfl | later
    · decide
    · exact ih (List.forall_mem_cons.mp letters).2 later
  | mark mark _ ih =>
    rcases List.mem_cons.mp here with rfl | later
    · rcases mark with rfl | rfl <;> decide
    · exact ih letters later

private theorem Written.plain (written : d.Written chars) (here : c ∈ chars) : Text.isBlank c = false := by
  cases written with
  | code plus zeros =>
    have digits {x : Char} (digit : x.isDigit = true) : Text.isBlank x = false := by
      have range : 48 ≤ x.toNat ∧ x.toNat ≤ 57 := Char.isDigit_iff_toNat.mp digit
      exact isBlank_of_plain (by omega) (by omega)
    rcases List.mem_append.mp here with sign | number
    · rcases plus with rfl | rfl
      · cases sign
      · rw [List.mem_singleton.mp sign]
        rfl
    · rcases List.mem_append.mp number with zero | last
      · rw [List.eq_of_mem_replicate zero]
        rfl
      · rw [List.mem_singleton.mp last]
        exact digits d.isDigit_code
  | name spelled => exact (spelled.plain d.isAlpha_name here).1

private theorem readInteger_eq_code_iff : Number.readInteger 0 255 text = .ok d.code ↔
    ∃ sign zeros, (sign = [] ∨ sign = ['+']) ∧
      text.toList = sign ++ (List.replicate zeros '0' ++ [Nat.digitChar d.code]) := by
  have within : d.code ≤ 255 := Nat.le_trans (Nat.le_of_lt d.code_lt) (by decide)
  rw [Number.readInteger_eq_ok_iff]
  constructor
  · rintro ⟨sign, digits, n, plus, same, read, equal⟩
    obtain rfl := Int.ofNat_inj.mp equal
    obtain ⟨zeros, rfl⟩ := (Number.readDigits_eq_ok_iff d.code_lt within).mp read
    exact ⟨sign, zeros, plus, same⟩
  · rintro ⟨sign, zeros, plus, same⟩
    exact ⟨sign, _, _, plus, same, (Number.readDigits_eq_ok_iff d.code_lt within).mpr ⟨zeros, rfl⟩, rfl⟩

/-- What spells a name has no digit, so it is never taken for a number. -/
theorem Spelling.unread (spelled : Spelling text.toList d.name.toList) {m : Int} :
    Number.readInteger 0 255 text ≠ .ok m := by
  intro read
  obtain ⟨sign, digits, n, _, same, ⟨begun, answered⟩, _⟩ := Number.readInteger_eq_ok_iff.mp read
  obtain ⟨c, rest, rfl⟩ := List.exists_cons_of_ne_nil begun
  have digit := (Number.readDigits_cons answered).1
  have here : c ∈ text.toList := by
    rw [same]
    exact List.mem_append_right _ List.mem_cons_self
  rw [(spelled.plain d.isAlpha_name here).2] at digit
  cases digit

private theorem written_iff : d.Written text.toList ↔
    Number.readInteger 0 255 text = .ok d.code ∨ Spelling text.toList d.name.toList := by
  rw [readInteger_eq_code_iff]
  constructor
  · intro written
    generalize text.toList = chars at written
    cases written with
    | code plus zeros => exact .inl ⟨_, zeros, plus, rfl⟩
    | name spelled => exact .inr spelled
  · rintro (⟨sign, zeros, plus, same⟩ | spelled)
    · rw [same]
      exact .code plus zeros
    · exact .name spelled

private theorem parse_eq_ok_iff_trim : parse text = .ok d ↔ d.Written (Text.trim text).toList := by
  rw [written_iff]
  cases read : Number.readInteger 0 255 (Text.trim text) with
  | ok m =>
    obtain ⟨_, _, n, _, _, _, rfl⟩ := Number.readInteger_eq_ok_iff.mp read
    have numbered : parse text = ofCode n := by simp only [parse, read, Int.toNat_natCast]
    rw [numbered, ofCode_eq_ok_iff]
    constructor
    · rintro rfl
      exact .inl rfl
    · rintro (same | spelled)
      · exact Int.ofNat_inj.mp (Except.ok.inj same)
      · exact absurd read spelled.unread
  | error e =>
    rw [← ofName?_eq_some_iff]
    cases found : ofName? (Text.trim text) with
    | none => simp [parse, read, found]
    | some other => simp [parse, read, found]

/-- A text is read as a direction if it is one written between blanks, and only then. -/
theorem parse_eq_ok_iff : parse text = .ok d ↔ ∃ before chars after,
    text.toList = before ++ chars ++ after ∧ (∀ c ∈ before ++ after, Text.isBlank c = true) ∧
      d.Written chars := by
  rw [parse_eq_ok_iff_trim]
  constructor
  · intro written
    obtain ⟨before, after, split, blank⟩ := Text.trim_split text
    exact ⟨before, _, after, split, blank, written⟩
  · rintro ⟨before, chars, after, split, blank, written⟩
    rwa [Text.trim_of_split split blank fun c here => written.plain here]

example : parse "\t+007 " = .ok .backwardRight := by decide

end Direction

end Crawler

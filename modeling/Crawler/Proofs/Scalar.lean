import Crawler.Proofs.Decimal
import Crawler.Toml.Reader
import Crawler.Toml.Writer

/-! Scalars of a document as text. What is written for a switch, an integer or a float is read as the
same scalar, and it ends where the text around it begins. -/
namespace Crawler.Toml

open Number (Numeral Pointed Magnitude)
open Number.Numeral (digitsValue)
open Float.Model (UnpackedFloat)
open Float.Model.Format (binary64)

section Digits

variable {source whole fraction tail : List Char} {sign : Option Char}

private theorem isScalarChar_of_isDigit {c : Char} (digit : c.isDigit = true) :
    isScalarChar c = true ∧ c ≠ '_' ∧ c ≠ '-' ∧ c ≠ ':' ∧ c ≠ ' ' ∧ c ≠ '"' ∧ c ≠ '\'' := by
  refine ⟨decide_eq_true fun inside => ?_, ?_, ?_, ?_, ?_, ?_, ?_⟩
  · simp only [List.mem_cons, List.not_mem_nil, or_false] at inside
    rcases inside with rfl | rfl | rfl | rfl | rfl | rfl | rfl | rfl | rfl | rfl | rfl <;> cases digit
  all_goals
    rintro rfl
    cases digit

private theorem valueInBase_ten (digits : ∀ c ∈ source, c.isDigit = true) :
    valueInBase 10 source = digitsValue source := by
  have step (n : ℕ) : source.foldl (fun n c => 10 * n + digitValue c) n = Nat.ofDigitChars 10 source n := by
    induction source generalizing n with
    | nil => rfl
    | cons c rest ih =>
      have here : digitValue c = c.toNat - '0'.toNat := if_pos (digits c List.mem_cons_self)
      rw [List.foldl_cons, here, Nat.ofDigitChars_cons]
      exact ih (fun d inside => digits d (List.mem_cons_of_mem c inside)) _
  exact step 0

private theorem isGrouped_of_plain {isDigit : Char → Bool} (plain : '_' ∉ source) (follows : Bool) :
    isGrouped isDigit follows source = true := by
  induction source generalizing follows with
  | nil => rfl
  | cons c rest ih =>
    have apart : c ≠ '_' := fun same => plain (same ▸ List.mem_cons_self)
    unfold isGrouped
    rw [if_neg apart]
    exact ih (fun inside => plain (List.mem_cons_of_mem c inside)) _

private theorem ungroup_of_plain (plain : '_' ∉ source) : ungroup source = source := by
  refine List.filter_eq_self.mpr fun c inside => decide_eq_true ?_
  rintro rfl
  exact plain inside

private theorem fixedDigits_rest {n value : ℕ} {rest : List Char}
    (read : fixedDigits? n source = some (value, rest)) :
    ∀ c ∈ rest, c ∈ source := by
  unfold fixedDigits? at read
  dsimp only at read
  split at read
  · cases read
    exact fun _ inside => List.mem_of_mem_drop inside
  · cases read

/-- Dates have a dash and times have a colon. -/
theorem isMoment_of_plain (dash : '-' ∉ source) (colon : ':' ∉ source) : isMoment source = false := by
  have date : afterDate? source = none := by
    unfold afterDate?
    split
    · next year rest read => exact absurd (fixedDigits_rest read _ List.mem_cons_self) dash
    · rfl
  have time : afterTime? source = none := by
    unfold afterTime?
    split
    · next hour rest read => exact absurd (fixedDigits_rest read _ List.mem_cons_self) colon
    · rfl
  unfold isMoment
  rw [date]
  dsimp only
  rw [time]
  rfl

/-- What follows the leading digits of a number tells its form apart. -/
theorem number_of_digits (begun : whole ≠ []) (digits : ∀ c ∈ whole, c.isDigit = true)
    (pointed : ∀ c rest, tail = c :: rest → c = '.') :
    number? sign (whole ++ tail) =
      if tail.contains ' ' then none
      else if tail.any fun c => c = '.' || c = 'e' || c = 'E' then decimalFloat? sign (whole ++ tail)
      else if tail.head?.all (· = '_') then decimalInteger? sign (whole ++ tail)
      else none := by
  obtain ⟨c, others, rfl⟩ := List.exists_cons_of_ne_nil begun
  have first := digits c List.mem_cons_self
  have rest : (c :: (others ++ tail)).dropWhile Char.isDigit = tail := by
    rw [← List.cons_append, List.dropWhile_append_of_pos digits]
    cases tail with
    | nil => rfl
    | cons d _ =>
      rw [pointed d _ rfl]
      rfl
  -- A letter is neither the first character nor the one after it.
  have second (mark : Char) (letter : mark.isDigit = false) (point : mark ≠ '.') (after : List Char) :
      others ++ tail ≠ mark :: after := by
    intro same
    cases others with
    | nil => exact point (pointed mark after same)
    | cons d _ =>
      obtain ⟨rfl, _⟩ := List.cons.inj same
      have digit := digits d (List.mem_cons_of_mem c List.mem_cons_self)
      rw [letter] at digit
      cases digit
  have word (mark : Char) (letter : mark.isDigit = false) : c ≠ mark := by
    rintro rfl
    rw [letter] at first
    cases first
  rw [List.cons_append, number?.eq_7 sign c (others ++ tail) (fun same => absurd same (word 'i' rfl))
    (fun same => absurd same (word 'n' rfl)) (fun _ _ => second 'x' rfl (by decide) _)
    (fun _ _ => second 'o' rfl (by decide) _) (fun _ _ => second 'b' rfl (by decide) _), rest, first]
  rfl

private theorem decimalFloat_of_pointed {x : ℚ} (pointed : Pointed whole fraction x) :
    decimalFloat? sign (whole ++ '.' :: fraction) =
      some (ofNumeral (.decimal (sign = some '-') (digitsValue (whole ++ fraction)) (-fraction.length))) := by
  have digits (c : Char) (inside : c ∈ whole) := pointed.digits c (List.mem_append_left fraction inside)
  have digits' (c : Char) (inside : c ∈ fraction) := pointed.digits c (List.mem_append_right whole inside)
  have plain : '_' ∉ whole ++ '.' :: fraction := by
    intro inside
    rcases List.mem_append.mp inside with inside | inside
    · cases digits '_' inside
    · rcases List.mem_cons.mp inside with same | inside
      · cases same
      · cases digits' '_' inside
  have front : (whole ++ '.' :: fraction).takeWhile (fun c => c.isDigit || c = '_') = whole := by
    rw [List.takeWhile_append_of_pos fun c inside => by rw [digits c inside]; rfl]
    exact List.append_nil whole
  have after : (whole ++ '.' :: fraction).dropWhile Char.isDigit = '.' :: fraction := by
    rw [List.dropWhile_append_of_pos digits]
    rfl
  have parts : Numeral.splitDigits (whole ++ '.' :: fraction) = (whole, '.' :: fraction) := by
    unfold Numeral.splitDigits
    rw [after, List.takeWhile_append_of_pos digits]
    exact congrArg (·, _) (List.append_nil whole)
  have point : Numeral.splitFraction ('.' :: fraction) = (fraction, []) := by
    have all : (fraction ++ []).takeWhile Char.isDigit = fraction ++ [] :=
      List.takeWhile_append_of_pos digits'
    have none : (fraction ++ []).dropWhile Char.isDigit = [] := List.dropWhile_append_of_pos digits'
    rw [List.append_nil] at all none
    exact Prod.ext all none
  have spare : hasSpareZero whole = false := by
    unfold hasSpareZero
    split
    · next c rest => exact absurd rfl (pointed.spare c rest)
    · rfl
  have part : hasWholeFraction (whole ++ '.' :: fraction) = true := by
    obtain ⟨c, rest, rfl⟩ := List.exists_cons_of_ne_nil pointed.ended
    unfold hasWholeFraction
    rw [after]
    exact digits' c List.mem_cons_self
  unfold decimalFloat?
  change (if hasSpareZero ((whole ++ '.' :: fraction).takeWhile fun c => c.isDigit || c = '_') ||
    _ || _ then _ else _) = _
  rw [front, spare, isGrouped_of_plain plain, ungroup_of_plain plain, part]
  have some : ¬ (whole.isEmpty = true ∧ fraction.isEmpty = true) :=
    fun empty => pointed.begun (List.isEmpty_iff.mp empty.1)
  unfold Numeral.decimalOf?
  rw [parts]
  dsimp only
  rw [point]
  dsimp only
  rw [if_neg some]
  unfold Numeral.exponentOf?
  simp

private theorem number_of_pointed {x : ℚ} (pointed : Pointed whole fraction x) :
    number? sign (whole ++ '.' :: fraction) =
      some (ofNumeral (.decimal (sign = some '-') (digitsValue (whole ++ fraction)) (-fraction.length))) := by
  have digits (c : Char) (inside : c ∈ whole) := pointed.digits c (List.mem_append_left fraction inside)
  have blank : ¬ ('.' :: fraction).contains ' ' = true := by
    intro inside
    rcases List.mem_cons.mp (List.contains_iff_mem.mp inside) with same | inside
    · cases same
    · cases pointed.digits ' ' (List.mem_append_right whole inside)
  have float : (('.' :: fraction).any fun c => c = '.' || c = 'e' || c = 'E') = true := rfl
  rw [number_of_digits pointed.begun digits fun c rest same => (List.cons.inj same).1.symm, if_neg blank,
    if_pos float, decimalFloat_of_pointed pointed]

end Digits

section Written

variable {text : List Char}

structure Plain (text : List Char) : Prop where
  begun : text ≠ []
  chars : ∀ c ∈ text, isScalarChar c = true ∧ c ≠ '"' ∧ c ≠ '\''

private theorem plain_of_all
    (all : (!text.isEmpty && text.all fun c => isScalarChar c && c ≠ '"' && c ≠ '\'') = true) :
    Plain text := by
  obtain ⟨begun, chars⟩ := Bool.and_eq_true_iff.mp all
  refine ⟨?_, fun c inside => ?_⟩
  · rintro rfl
    cases begun
  · simpa [and_assoc] using List.all_eq_true.mp chars c inside

structure Writes (text : List Char) (value : Toml) : Prop extends Plain text where
  read : scalar? text = some value

private theorem splitScalar_of_plain (chars : ∀ c ∈ text, isScalarChar c = true) (rest : List Char) :
    splitScalar (text ++ '\n' :: rest) = (text, '\n' :: rest) := by
  induction text with
  | nil => rfl
  | cons c others ih =>
    have here := chars c List.mem_cons_self
    rw [List.cons_append]
    unfold splitScalar
    rw [here, ih fun d inside => chars d (List.mem_cons_of_mem c inside)]
    rfl

theorem value_of_writes {value : Toml} (writes : Writes text value) (fuel depth : ℕ) (rest : List Char) :
    value? (fuel + 1) depth (text ++ '\n' :: rest) = some (value, '\n' :: rest) := by
  have split := splitScalar_of_plain (fun c inside => (writes.chars c inside).1) rest
  have plain : plainScalar? (text ++ '\n' :: rest) = some (value, '\n' :: rest) := by
    unfold plainScalar?
    rw [split, writes.read]
    rfl
  obtain ⟨c, others, rfl⟩ := List.exists_cons_of_ne_nil writes.begun
  obtain ⟨scalar, quote, apostrophe⟩ := writes.chars c List.mem_cons_self
  unfold value?
  split
  · next same => exact absurd (List.cons.inj same).1 quote
  · next same => exact absurd (List.cons.inj same).1 apostrophe
  · next same =>
    rw [(List.cons.inj same).1] at scalar
    cases scalar
  · next same =>
    rw [(List.cons.inj same).1] at scalar
    cases scalar
  · exact plain

theorem writeBool_writes (b : Bool) : Writes (writeBool b) (boolean b) := by
  cases b <;> exact ⟨plain_of_all rfl, rfl⟩

private theorem plain_of_digits {whole : List Char} (begun : whole ≠ [])
    (digits : ∀ c ∈ whole, c.isDigit = true ∨ c = '.') : Plain whole := by
  refine ⟨begun, fun c inside => ?_⟩
  rcases digits c inside with digit | rfl
  · obtain ⟨scalar, _, _, _, _, quote, apostrophe⟩ := isScalarChar_of_isDigit digit
    exact ⟨scalar, quote, apostrophe⟩
  · decide

/-- A sign in front of a number is part of it. -/
theorem writes_negative {value : Toml} (plain : Plain text) (read : number? (some '-') text = some value) :
    Writes ('-' :: text) value := by
  refine ⟨⟨List.cons_ne_nil _ _, fun c inside => ?_⟩, read⟩
  rcases List.mem_cons.mp inside with rfl | inside
  · decide
  · exact plain.chars c inside

private theorem writes_positive {value : Toml} (begun : text ≠ [])
    (digits : ∀ c ∈ text, c.isDigit = true ∨ c = '.') (read : number? none text = some value) :
    Writes text value := by
  refine ⟨plain_of_digits begun digits, ?_⟩
  have apart (mark : Char) (other : mark.isDigit = false) (point : mark ≠ '.') : mark ∉ text := by
    intro inside
    rcases digits mark inside with digit | same
    · rw [other] at digit
      cases digit
    · exact point same
  obtain ⟨c, others, rfl⟩ := List.exists_cons_of_ne_nil begun
  have first (mark : Char) (other : mark.isDigit = false) (point : mark ≠ '.') : c ≠ mark :=
    fun same => apart mark other point (same ▸ List.mem_cons_self)
  have moment := isMoment_of_plain (apart '-' rfl (by decide)) (apart ':' rfl (by decide))
  unfold scalar?
  split
  · next same => exact absurd (List.cons.inj same).1 (first 't' rfl (by decide))
  · next same => exact absurd (List.cons.inj same).1 (first 'f' rfl (by decide))
  · next same => exact absurd (List.cons.inj same).1 (first '+' rfl (by decide))
  · next same => exact absurd (List.cons.inj same).1 (first '-' rfl (by decide))
  · rw [moment, if_neg Bool.false_ne_true, read]

private theorem number_toDigits (sign : Option Char) (n : ℕ) :
    number? sign (Nat.toDigits 10 n) = some (ofInt (if sign = some '-' then -(n : ℤ) else n)) := by
  have digits := Number.isDigit_toDigits n
  have plain : '_' ∉ Nat.toDigits 10 n := fun inside => by cases digits '_' inside
  have spare : hasSpareZero (Nat.toDigits 10 n) = false := by
    rcases n.eq_zero_or_pos with rfl | pos
    · rfl
    · unfold hasSpareZero
      split
      · next same => exact absurd same (Number.toDigits_head pos.ne' _)
      · rfl
  have whole : decimalInteger? sign (Nat.toDigits 10 n) =
      some (ofInt (if sign = some '-' then -(n : ℤ) else n)) := by
    have all : (Nat.toDigits 10 n).all (fun c => c.isDigit || c = '_') = true :=
      List.all_eq_true.mpr fun c inside => by rw [digits c inside]; rfl
    have value : digitsValue (Nat.toDigits 10 n) = n := Nat.ofDigitChars_ten_toDigits
    unfold decimalInteger?
    change (if hasSpareZero _ || _ then _
      else if (Nat.toDigits 10 n).all (fun c => c.isDigit || c = '_') then _ else _) = _
    rw [spare, isGrouped_of_plain plain, all, ungroup_of_plain plain, valueInBase_ten digits, value]
    rfl
  have read := @number_of_digits (Nat.toDigits 10 n) [] sign Nat.toDigits_ne_nil digits nofun
  rw [List.append_nil] at read
  rw [read, whole]
  rfl

theorem writeInteger_writes {n : ℤ} (least : -2 ^ 127 ≤ n) (greatest : n < 2 ^ 128) :
    Writes (writeInteger n) (integer n) := by
  have fits : ofInt n = integer n := if_pos ⟨least, greatest⟩
  have digits (m : ℕ) (c : Char) (inside : c ∈ Nat.toDigits 10 m) : c.isDigit = true ∨ c = '.' :=
    .inl (Number.isDigit_toDigits m c inside)
  rcases lt_or_ge n 0 with below | above
  · obtain ⟨m, rfl⟩ := Int.eq_negSucc_of_lt_zero below
    have text : writeInteger (.negSucc m) = '-' :: Nat.toDigits 10 (m + 1) := by
      unfold writeInteger
      rw [Int.toString_eq_repr]
      change ("-" ++ Nat.repr (m + 1)).toList = _
      rw [String.toList_append, Nat.toList_repr]
      rfl
    rw [text, ← fits]
    exact writes_negative (plain_of_digits Nat.toDigits_ne_nil (digits _)) (number_toDigits (some '-') (m + 1))
  · obtain ⟨m, rfl⟩ := Int.eq_ofNat_of_zero_le above
    have text : writeInteger m = Nat.toDigits 10 m := Nat.toList_repr
    rw [text, ← fits]
    exact writes_positive Nat.toDigits_ne_nil (digits _) (number_toDigits none m)

private theorem writes_pointed {whole fraction : List Char} {x : ℚ} {y : Float}
    (pointed : Pointed whole fraction x)
    (negative : Bool)
    (reads : (Numeral.decimal negative (digitsValue (whole ++ fraction)) (-fraction.length)).toFloat = y)
    (finite : y.isFinite = true) :
    Writes (if negative then '-' :: (whole ++ '.' :: fraction) else whole ++ '.' :: fraction) (float y) := by
  have begun : whole ++ '.' :: fraction ≠ [] := List.append_ne_nil_of_left_ne_nil pointed.begun _
  have chars (c : Char) (inside : c ∈ whole ++ '.' :: fraction) : c.isDigit = true ∨ c = '.' := by
    rcases List.mem_append.mp inside with inside | inside
    · exact .inl (pointed.digits c (List.mem_append_left fraction inside))
    · rcases List.mem_cons.mp inside with point | inside
      · exact .inr point
      · exact .inl (pointed.digits c (List.mem_append_right whole inside))
  have value : ofNumeral (.decimal negative (digitsValue (whole ++ fraction)) (-fraction.length)) =
      float y := by
    unfold ofNumeral
    rw [reads, if_pos finite]
  cases negative with
  | true =>
    exact writes_negative (plain_of_digits begun chars) ((number_of_pointed pointed).trans (congrArg some value))
  | false => exact writes_positive begun chars ((number_of_pointed pointed).trans (congrArg some value))

private theorem toFloat_isFinite {x : Float} {s : UnpackedFloat.Sign} {m : ℕ} {e : ℤ} {pos : 0 < m}
    (read : x.toModel.unpack = .finite s m e pos) : x.isFinite = true := by
  change x.toModel.unpack.isFinite = true
  rw [read]
  rfl

theorem writeFloat_writes (x : Float) : Writes (writeFloat x) (float x) := by
  unfold writeFloat Number.write
  cases read : x.toModel.unpack with
  | notANumber =>
    have same : Numeral.undefined.toFloat = x := Number.toFloat_eq read.symm
    rw [← same]
    exact ⟨plain_of_all rfl, rfl⟩
  | infinity s =>
    have same : (Numeral.infinite (s == .negative)).toFloat = x := by
      refine Number.toFloat_eq ?_
      rw [read]
      cases s <;> rfl
    rw [← same]
    cases s <;> exact ⟨plain_of_all rfl, rfl⟩
  | zero s =>
    have pointed : Pointed ['0'] ['0'] 0 :=
      ⟨nofun, nofun, List.all_eq_true.mp rfl, by simp, zero_mul _⟩
    have same : (Numeral.decimal (s == .negative) (digitsValue ['0', '0']) (-1)).toFloat = x := by
      refine Number.toFloat_eq ?_
      rw [read]
      cases s <;> rfl
    have finite : x.isFinite = true := by
      change x.toModel.unpack.isFinite = true
      rw [read]
      rfl
    have writes := writes_pointed pointed (s == .negative) same finite
    dsimp only
    rw [String.toList_ofList]
    cases s <;> exact writes
  | finite s m e pos =>
    obtain ⟨M, rfl, rfl, _⟩ := Number.exists_magnitude (by decide) read
    obtain ⟨whole, fraction, _, pointed, written, reads⟩ := Number.writeMagnitude_pointed pos
    have same : (Numeral.decimal (s == .negative) (digitsValue (whole ++ fraction))
        (-fraction.length)).toFloat = x := by
      refine Number.toFloat_eq ?_
      change Number.signed (s == .negative) (UnpackedFloat.ofScientific binary64
        (digitsValue (whole ++ fraction)) (-(fraction.length : ℤ))) = _
      rw [reads, read]
      cases s <;> rfl
    have writes := writes_pointed pointed (s == .negative) same (toFloat_isFinite read)
    dsimp only
    rw [String.toList_ofList, written]
    cases s <;> exact writes

end Written

end Crawler.Toml

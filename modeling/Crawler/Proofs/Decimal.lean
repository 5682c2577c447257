import Crawler.Number.Notation
import Crawler.Proofs.Exact

/-! Floats in decimal. The digits that a float is written with read back as the same float, in
whatever place the point stands. -/
namespace Crawler.Number

open Float.Model (UnpackedFloat Format totalExponent)
open Float.Model.Format (binary64)
open Float.Model.UnpackedFloat (Sign Accuracy roundWithAccuracy)

section Scientific

variable {m n : ℕ} {k l : ℤ}

/-- Within the bounds that guard the powers of ten, a decimal is rounded once. -/
theorem ofScientific_rounds (some : m ≠ 0) (least : -((2 : ℤ) ^ 11 + m.log2) ≤ k)
    (greatest : k ≤ 2 ^ 11) :
    ∃ (n : ℕ) (e : ℤ) (accuracy : Accuracy),
      Describes (.ofMantissaAndAccuracy n accuracy) (m * 10 ^ k / 2 ^ e) ∧
        e ≤ binary64.targetExponent (totalExponent n e) ∧
        UnpackedFloat.ofScientific binary64 m k =
          roundWithAccuracy binary64 .positive n e accuracy := by
  have guard : ¬ k > 2 ^ binary64.exponentBits := not_lt.mpr greatest
  have guard' : ¬ k < -((2 : ℤ) ^ binary64.exponentBits + m.log2) := not_lt.mpr least
  unfold UnpackedFloat.ofScientific
  rw [dif_neg some, if_neg guard, if_neg guard']
  rcases lt_or_ge k 0 with below | above
  · rw [if_neg (not_le.mpr below)]
    obtain ⟨p, power⟩ := Int.eq_ofNat_of_zero_le (neg_nonneg.mpr below.le)
    obtain ⟨q, t, accuracy, core, described, fine⟩ :=
      exists_divCore some (Nat.pow_pos (n := (-k).toNat) (by decide : 0 < 10)) 0 0
    refine ⟨q, t, accuracy, ?_, fine, ?_⟩
    · have value : (m * 10 ^ k : ℚ) = m * 2 ^ (0 : ℤ) / ((10 ^ (-k).toNat : ℕ) * 2 ^ (0 : ℤ)) := by
        have exponent : k = -(p : ℤ) := by omega
        rw [power, Int.toNat_natCast, exponent, zpow_neg, zpow_natCast, zpow_zero]
        push_cast
        field_simp
      rw [value]
      exact described
    · unfold UnpackedFloat.div
      dsimp only
      rw [core]
      rfl
  · rw [if_pos above]
    obtain ⟨p, rfl⟩ := Int.eq_ofNat_of_zero_le above
    have product : UnpackedFloat.mul binary64
        (.finite .positive (m <<< binary64.mantissaBits) (-binary64.mantissaBits)
          (by simpa [Nat.pos_iff_ne_zero]))
        (.finite .positive (10 ^ (p : ℤ).toNat) 0 (Nat.pow_pos (by decide))) =
        roundWithAccuracy binary64 .positive ((m <<< 53) * 10 ^ p) (-53) .exact := by
      rw [← Int.toNat_natCast p]
      unfold UnpackedFloat.mul
      rfl
    refine ⟨(m <<< 53) * 10 ^ p, -53, .exact, ?_, fine_of_long ?_ _, product⟩
    · have value : (m * 10 ^ (p : ℤ) / 2 ^ (-53 : ℤ) : ℚ) = ((m <<< 53) * 10 ^ p : ℕ) := by
        rw [Nat.shiftLeft_eq, zpow_natCast, zpow_neg]
        push_cast
        field_simp
      rw [value]
      exact describes_exact _
    · rw [Nat.shiftLeft_eq, mul_right_comm]
      have pos : 0 < m * 10 ^ p := Nat.mul_pos (Nat.pos_of_ne_zero some) (by positivity)
      exact (by decide : 2 ^ 52 ≤ 2 ^ 53).trans (Nat.le_mul_of_pos_left _ pos)

structure Guarded (m : ℕ) (k : ℤ) : Prop where
  some : m ≠ 0
  least : -((2 : ℤ) ^ 11 + m.log2) ≤ k
  greatest : k ≤ 2 ^ 11

private theorem guarded_of_finite {s : Sign} {e : ℤ} {pos : 0 < n}
    (read : UnpackedFloat.ofScientific binary64 m k = .finite s n e pos) : Guarded m k := by
  unfold UnpackedFloat.ofScientific at read
  by_cases none : m = 0
  · rw [dif_pos none] at read
    cases read
  rw [dif_neg none] at read
  by_cases greatest : k > 2 ^ binary64.exponentBits
  · rw [if_pos greatest] at read
    cases read
  rw [if_neg greatest] at read
  by_cases least : k < -(2 ^ binary64.exponentBits + m.log2)
  · rw [if_pos least] at read
    cases read
  · exact ⟨none, not_lt.mp least, not_lt.mp greatest⟩

private theorem exists_of_readsBack {e : ℤ} (reads : readsBack m e n l = true) :
    ∃ pos, UnpackedFloat.ofScientific binary64 n l = .finite .positive m e pos := by
  unfold readsBack at reads
  generalize UnpackedFloat.ofScientific binary64 n l = f at reads ⊢
  match f, reads with
  | .finite .positive _ _ pos, reads =>
    obtain ⟨rfl, rfl⟩ := of_decide_eq_true reads
    exact ⟨pos, rfl⟩

private theorem guarded_of_readsBack {e : ℤ} (reads : readsBack m e n l = true) : Guarded n l := by
  obtain ⟨_, read⟩ := exists_of_readsBack reads
  exact guarded_of_finite read

/-- What the lower guard shuts out is far below all floats. -/
theorem guarded_of_le (below : k ≤ 0) (large : (2 : ℚ) ^ (-1076 : ℤ) ≤ m * 10 ^ k) : Guarded m k := by
  have some : m ≠ 0 := by
    rintro rfl
    rw [Nat.cast_zero, zero_mul] at large
    exact absurd large (not_le.mpr (by positivity))
  refine ⟨some, ?_, below.trans (by decide)⟩
  by_contra far
  have bits : (m : ℚ) ≤ 2 ^ ((m.log2 : ℤ) + 1) := by
    exact_mod_cast Nat.lt_log2_self.le
  have tens : (10 : ℚ) ^ k ≤ 2 ^ k := by
    obtain ⟨p, power⟩ := Int.eq_ofNat_of_zero_le (neg_nonneg.mpr below)
    have exponent : k = -(p : ℤ) := by omega
    rw [exponent, zpow_neg, zpow_neg, zpow_natCast, zpow_natCast]
    gcongr
    norm_num
  have small : (m * 10 ^ k : ℚ) ≤ 2 ^ ((m.log2 : ℤ) + 1 + k) := by
    rw [zpow_add₀ two_ne_zero]
    gcongr
  have low : (2 : ℚ) ^ ((m.log2 : ℤ) + 1 + k) < 2 ^ (-1076 : ℤ) :=
    zpow_lt_zpow_right₀ one_lt_two (by omega)
  linarith

/-- Two decimals of the same value are read as the same float. -/
theorem ofScientific_congr (left : Guarded m k) (right : Guarded n l)
    (same : (m * 10 ^ k : ℚ) = n * 10 ^ l) :
    UnpackedFloat.ofScientific binary64 m k = UnpackedFloat.ofScientific binary64 n l := by
  obtain ⟨_, _, _, described, fine, rounded⟩ := ofScientific_rounds left.some left.least left.greatest
  obtain ⟨_, _, _, described', fine', rounded'⟩ :=
    ofScientific_rounds right.some right.least right.greatest
  rw [rounded, rounded']
  exact roundWithAccuracy_congr described fine (same ▸ described') fine' .positive

variable {M : Magnitude binary64}

private theorem Magnitude.eq_of_unpacked {N : Magnitude binary64} {s : Sign} {pos : 0 < M.mantissa}
    (same : N.unpacked s = .finite s M.mantissa M.exponent pos) : N = M := by
  by_cases none : N.mantissa = 0
  · have zero : N.unpacked s = .zero s := dif_pos none
    cases zero.symm.trans same
  · rw [unpacked_of_pos (Nat.pos_of_ne_zero none)] at same
    obtain ⟨_, mantissa, exponent⟩ := UnpackedFloat.finite.inj same
    exact Magnitude.ext mantissa exponent

/-- A decimal with the value of a float is read as that float. -/
theorem ofScientific_exact (pos : 0 < M.mantissa) (below : k ≤ 0) (exact : (m * 10 ^ k : ℚ) = M.value) :
    UnpackedFloat.ofScientific binary64 m k = .finite .positive M.mantissa M.exponent pos := by
  have least := M.least
  have large : (2 : ℚ) ^ (-1076 : ℤ) ≤ M.value :=
    (zpow_le_zpow_right₀ one_le_two (by change -1074 ≤ M.exponent at least; omega)).trans
      (Magnitude.two_pow_le_value pos)
  obtain ⟨some, least, greatest⟩ := guarded_of_le below (exact ▸ large)
  obtain ⟨_, _, _, described, fine, rounded⟩ := ofScientific_rounds some least greatest
  obtain ⟨N, nearest, read⟩ := roundWithAccuracy_nearest described fine .positive
  rw [exact] at nearest
  have same := Magnitude.eq_of_value_eq (Magnitude.value_of_nearest nearest rfl)
  rw [rounded, read, same, Magnitude.unpacked_of_pos pos]

/-- A decimal with the value of one that reads back as a float is read as that float too. -/
theorem ofScientific_of_readsBack (pos : 0 < M.mantissa) (below : k ≤ 0)
    (reads : readsBack M.mantissa M.exponent n l = true) (same : (m * 10 ^ k : ℚ) = n * 10 ^ l) :
    UnpackedFloat.ofScientific binary64 m k = .finite .positive M.mantissa M.exponent pos := by
  obtain ⟨_, read⟩ := exists_of_readsBack reads
  have guarded := guarded_of_finite read
  obtain ⟨_, _, _, described, fine, rounded⟩ :=
    ofScientific_rounds guarded.some guarded.least guarded.greatest
  obtain ⟨N, nearest, whole⟩ := roundWithAccuracy_nearest described fine .positive
  have found := Magnitude.eq_of_unpacked (whole.symm.trans (rounded.symm.trans read))
  subst found
  -- What is nearer to a float than to zero is no less than half of it.
  have large : (2 : ℚ) ^ (-1076 : ℤ) ≤ m * 10 ^ k := by
    have close := nearest ⟨0, -1074, by decide, le_refl _, .inl rfl⟩
    have zero : (⟨0, -1074, by decide, le_refl _, .inl rfl⟩ : Magnitude binary64).value = 0 :=
      zero_mul _
    have least := N.least
    have unit : (2 : ℚ) ^ (-1075 : ℤ) * 2 ≤ N.value := by
      rw [← zpow_add_one₀ two_ne_zero]
      exact (zpow_le_zpow_right₀ one_le_two least).trans (Magnitude.two_pow_le_value pos)
    have side : (2 : ℚ) ^ (-1076 : ℤ) ≤ 2 ^ (-1075 : ℤ) := zpow_le_zpow_right₀ one_le_two (by decide)
    have whole : |(m * 10 ^ k : ℚ)| = m * 10 ^ k := abs_of_nonneg (by positivity)
    rw [zero, sub_zero, ← same, whole] at close
    have far := neg_le_of_abs_le close
    linarith
  rw [ofScientific_congr (guarded_of_le below large) guarded same, read]

end Scientific

section Shortest

private theorem expansion_value (m : ℕ) (e : ℤ) :
    ((expansion m e).1 * 10 ^ (-((expansion m e).2 : ℤ)) : ℚ) = m * 2 ^ e := by
  cases e with
  | ofNat k =>
    change (((m <<< k : ℕ) : ℚ) * 10 ^ (-((0 : ℕ) : ℤ))) = m * 2 ^ (k : ℤ)
    rw [Nat.shiftLeft_eq, zpow_natCast]
    simp
  | negSucc k =>
    change (((m * 5 ^ (k + 1) : ℕ) : ℚ) * 10 ^ (-((k + 1 : ℕ) : ℤ))) = m * 2 ^ (Int.negSucc k)
    have ten : (10 : ℚ) = 2 * 5 := by norm_num
    rw [Int.negSucc_eq, ten, mul_zpow, ← Int.natCast_succ, zpow_neg, zpow_neg, zpow_natCast,
      zpow_natCast]
    push_cast
    field_simp

/-- A cut passes the test unless it is the whole expansion. -/
theorem cutWhere_cases (test : ℕ → ℤ → Bool) (digits places : ℕ) :
    test (cutWhere test digits places).1 (cutWhere test digits places).2 = true ∨
      cutWhere test digits places = (digits, -(places : ℤ)) := by
  let cut (kept : ℕ) : Option (ℕ × ℤ) :=
    let dropped := (Nat.toDigits 10 digits).length - (kept + 1)
    let exponent := (dropped : ℤ) - places
    ((gridNeighbours digits (Nat.pow 10 dropped)).find? (test · exponent)).map (·, exponent)
  change test (((List.range 17).findSome? cut).getD _).1 (((List.range 17).findSome? cut).getD _).2 =
    true ∨ ((List.range 17).findSome? cut).getD _ = _
  cases found : (List.range 17).findSome? cut with
  | none => exact .inr rfl
  | some passed =>
    obtain ⟨kept, _, here⟩ := List.exists_of_findSome?_eq_some found
    obtain ⟨neighbour, first, rfl⟩ := Option.map_eq_some_iff.mp here
    have passes := List.find?_some first
    exact .inl passes

private theorem digitChar_eq_zero : ∀ d < 10, Nat.digitChar d = '0' → d = 0 := by decide

private theorem pow_trailing_dvd (n : ℕ) :
    10 ^ ((Nat.toDigits 10 n).reverse.takeWhile (· = '0')).length ∣ n := by
  induction n using Nat.strongRecOn with
  | ind n ih =>
    by_cases short : n < 10
    · rw [Nat.toDigits_of_lt_base short, List.reverse_singleton, List.takeWhile_cons]
      split
      · next zero =>
        rw [digitChar_eq_zero n short (of_decide_eq_true zero)]
        exact dvd_zero _
      · exact one_dvd n
    · have long : 10 ≤ n := not_lt.mp short
      rw [Nat.toDigits_of_base_le (by decide) long, List.reverse_append, List.reverse_singleton,
        List.singleton_append, List.takeWhile_cons]
      split
      · next zero =>
        have last := digitChar_eq_zero (n % 10) (Nat.mod_lt n (by decide)) (of_decide_eq_true zero)
        have tens : n = n / 10 * 10 := by omega
        rw [List.length_cons, pow_succ]
        nth_rewrite 2 [tens]
        exact Nat.mul_dvd_mul_right (ih (n / 10) (by omega)) 10
      · exact one_dvd n

private theorem dropTrailingZeros_value {digits : ℕ} (some : digits ≠ 0) (exponent : ℤ) :
    (dropTrailingZeros digits exponent).1 ≠ 0 ∧
      ((dropTrailingZeros digits exponent).1 * 10 ^ (dropTrailingZeros digits exponent).2 : ℚ) =
        digits * 10 ^ exponent := by
  unfold dropTrailingZeros
  set zeros := ((Nat.toDigits 10 digits).reverse.takeWhile (· = '0')).length
  obtain ⟨rest, parts⟩ := pow_trailing_dvd digits
  have kept : digits / 10 ^ zeros = rest := by
    rw [parts, Nat.mul_div_cancel_left _ (by positivity)]
  change digits / 10 ^ zeros ≠ 0 ∧
    ((digits / 10 ^ zeros : ℕ) * 10 ^ (exponent + zeros) : ℚ) = digits * 10 ^ exponent
  rw [kept]
  constructor
  · rintro rfl
    exact some parts
  · have product : (digits : ℚ) = 10 ^ zeros * rest := by exact_mod_cast parts
    rw [zpow_add₀ (by norm_num), zpow_natCast, product]
    ring

variable {M : Magnitude binary64}

/-- The shortest decimal of a float has its value, or that of one that reads back. -/
theorem shortest_value (pos : 0 < M.mantissa) :
    (shortest M.mantissa M.exponent).1 ≠ 0 ∧
      (((shortest M.mantissa M.exponent).1 * 10 ^ (shortest M.mantissa M.exponent).2 : ℚ) = M.value ∨
        ∃ n l, readsBack M.mantissa M.exponent n l = true ∧
          ((shortest M.mantissa M.exponent).1 * 10 ^ (shortest M.mantissa M.exponent).2 : ℚ) =
            n * 10 ^ l) := by
  have value := expansion_value M.mantissa M.exponent
  unfold shortest
  dsimp only
  rcases cutWhere_cases (readsBack M.mantissa M.exponent) (expansion M.mantissa M.exponent).1
    (expansion M.mantissa M.exponent).2 with passed | whole
  · obtain ⟨some, same⟩ := dropTrailingZeros_value (guarded_of_readsBack passed).some _
    exact ⟨some, .inr ⟨_, _, passed, same⟩⟩
  · have some : (expansion M.mantissa M.exponent).1 ≠ 0 := by
      intro none
      rw [none, Nat.cast_zero, zero_mul] at value
      exact absurd value.symm (mul_pos (by exact_mod_cast pos) (by positivity)).ne'
    rw [whole]
    obtain ⟨some, same⟩ := dropTrailingZeros_value some (-((expansion M.mantissa M.exponent).2 : ℤ))
    exact ⟨some, .inl (same.trans value)⟩

/-- The shortest decimal of a float is read as the float, wherever its point is put. -/
theorem shortest_reads (pos : 0 < M.mantissa) {m : ℕ} {k : ℤ} (below : k ≤ 0)
    (same : (m * 10 ^ k : ℚ) =
      (shortest M.mantissa M.exponent).1 * 10 ^ (shortest M.mantissa M.exponent).2) :
    UnpackedFloat.ofScientific binary64 m k = .finite .positive M.mantissa M.exponent pos := by
  rcases (shortest_value pos).2 with exact | ⟨n, l, reads, equal⟩
  · exact ofScientific_exact pos below (same.trans exact)
  · exact ofScientific_of_readsBack pos below reads (same.trans equal)

end Shortest

section Positional

open Numeral (digitsValue)

structure Pointed (whole fraction : List Char) (x : ℚ) : Prop where
  begun : whole ≠ []
  ended : fraction ≠ []
  digits : ∀ c ∈ whole ++ fraction, c.isDigit = true
  spare : ∀ c rest, whole ≠ '0' :: c :: rest
  value : (digitsValue (whole ++ fraction) * 10 ^ (-(fraction.length : ℤ)) : ℚ) = x

private theorem isDigit_replicate (n : ℕ) : ∀ c ∈ List.replicate n '0', c.isDigit = true := by
  intro c inside
  rw [List.eq_of_mem_replicate inside]
  rfl

theorem isDigit_toDigits (n : ℕ) : ∀ c ∈ Nat.toDigits 10 n, c.isDigit = true := by
  intro c inside
  exact Nat.isDigit_of_mem_toDigits (by decide) (by decide) inside

theorem toDigits_head {n : ℕ} (some : n ≠ 0) (rest : List Char) : Nat.toDigits 10 n ≠ '0' :: rest := by
  induction n using Nat.strongRecOn generalizing rest with
  | ind n ih =>
    by_cases short : n < 10
    · rw [Nat.toDigits_of_lt_base short]
      intro same
      exact some (digitChar_eq_zero n short (List.cons.inj same).1)
    · have long : 10 ≤ n := not_lt.mp short
      rw [Nat.toDigits_of_base_le (by decide) long]
      intro same
      cases shape : Nat.toDigits 10 (n / 10) with
      | nil => exact Nat.toDigits_ne_nil shape
      | cons c digits =>
        rw [shape] at same
        obtain ⟨rfl, _⟩ := List.cons.inj same
        exact ih (n / 10) (by omega) (by omega) digits shape

variable {d : ℕ}

/-- The digits, as many zeros as the exponent says, and a zero behind the point. -/
theorem pointed_whole (some : d ≠ 0) (k : ℕ) :
    Pointed (Nat.toDigits 10 d ++ List.replicate k '0') ['0'] (d * 10 ^ (k : ℤ)) := by
  refine ⟨?_, by decide, ?_, ?_, ?_⟩
  · exact List.append_ne_nil_of_left_ne_nil Nat.toDigits_ne_nil _
  · intro c inside
    rcases List.mem_append.mp inside with inside | last
    · rcases List.mem_append.mp inside with inside | inside
      · exact isDigit_toDigits d c inside
      · exact isDigit_replicate k c inside
    · exact isDigit_replicate 1 c last
  · intro c rest same
    cases shape : Nat.toDigits 10 d with
    | nil => exact Nat.toDigits_ne_nil shape
    | cons first digits =>
      rw [shape] at same
      obtain ⟨rfl, _⟩ := List.cons.inj same
      exact toDigits_head some digits shape
  · have digits : digitsValue (Nat.toDigits 10 d ++ List.replicate k '0' ++ ['0']) = d * 10 ^ k * 10 := by
      unfold digitsValue
      rw [Nat.ofDigitChars_append, Nat.ofDigitChars_append, Nat.ofDigitChars_ten_toDigits,
        Nat.ofDigitChars_replicate_zero]
      change 10 * (10 ^ k * d) + 0 = d * 10 ^ k * 10
      ring
    change (_ * (10 : ℚ) ^ (-((1 : ℕ) : ℤ))) = d * 10 ^ (k : ℤ)
    rw [digits, zpow_natCast]
    push_cast
    rw [mul_assoc, zpow_neg, zpow_one, mul_inv_cancel₀ (by norm_num), mul_one]

def padded (d k : ℕ) : List Char :=
  List.replicate (k + 2 - (Nat.toDigits 10 d).length) '0' ++ Nat.toDigits 10 d

private theorem padded_length (d k : ℕ) : k + 2 ≤ (padded d k).length := by
  unfold padded
  rw [List.length_append, List.length_replicate]
  omega

private theorem isDigit_padded (d k : ℕ) : ∀ c ∈ padded d k, c.isDigit = true := by
  intro c inside
  rcases List.mem_append.mp inside with inside | inside
  · exact isDigit_replicate _ c inside
  · exact isDigit_toDigits d c inside

private theorem padded_value (d k : ℕ) : digitsValue (padded d k) = d := by
  unfold digitsValue padded
  rw [Nat.ofDigitChars_append, Nat.ofDigitChars_replicate_zero, mul_zero, Nat.ofDigitChars_ten_toDigits]

/-- Zeros are only put in front of the digits to have one before the point. -/
theorem padded_spare (some : d ≠ 0) (k : ℕ) (c : Char) (rest : List Char) :
    (padded d k).take ((padded d k).length - (k + 1)) ≠ '0' :: c :: rest := by
  intro same
  rcases le_or_gt (k + 2) (Nat.toDigits 10 d).length with enough | short
  · have bare : padded d k = Nat.toDigits 10 d := by
      have none : k + 2 - (Nat.toDigits 10 d).length = 0 := by omega
      unfold padded
      rw [none, List.replicate_zero, List.nil_append]
    have start := List.take_append_drop ((padded d k).length - (k + 1)) (padded d k)
    rw [same, bare] at start
    exact toDigits_head some _ start.symm
  · have total : (padded d k).length = k + 2 := by
      unfold padded
      rw [List.length_append, List.length_replicate]
      omega
    have count := congrArg List.length same
    rw [List.length_take, total, List.length_cons, List.length_cons] at count
    omega

private theorem pointed_padded (some : d ≠ 0) (k : ℕ) :
    Pointed ((padded d k).take ((padded d k).length - (k + 1)))
      ((padded d k).drop ((padded d k).length - (k + 1))) (d * 10 ^ (Int.negSucc k)) := by
  have long := padded_length d k
  have joined := List.take_append_drop ((padded d k).length - (k + 1)) (padded d k)
  refine ⟨?_, ?_, ?_, padded_spare some k, ?_⟩
  · intro none
    rcases List.take_eq_nil_iff.mp none with short | empty
    · omega
    · rw [empty] at long
      exact absurd long (by simp)
  · intro none
    have none := List.drop_eq_nil_iff.mp none
    omega
  · rw [joined]
    exact isDigit_padded d k
  · have length : ((padded d k).drop ((padded d k).length - (k + 1))).length = k + 1 := by
      rw [List.length_drop]
      omega
    rw [joined, padded_value, length]
    rfl

private theorem writePositional_padded (d k : ℕ) :
    writePositional ".0" (Nat.toDigits 10 d) (.negSucc k) =
      (padded d k).take ((padded d k).length - (k + 1)) ++
        '.' :: (padded d k).drop ((padded d k).length - (k + 1)) := by
  have long := padded_length d k
  unfold writePositional splitAtPoint
  dsimp only
  rw [← padded, List.splitAt_eq]
  cases rest : (padded d k).drop ((padded d k).length - (k + 1)) with
  | nil =>
    have none := List.drop_eq_nil_iff.mp rest
    omega
  | cons c fraction => rfl

private theorem writePositional_pointed (some : d ≠ 0) (exponent : ℤ) :
    ∃ whole fraction, Pointed whole fraction (d * 10 ^ exponent) ∧
      writePositional ".0" (Nat.toDigits 10 d) exponent = whole ++ '.' :: fraction := by
  cases exponent with
  | ofNat k => exact ⟨_, _, pointed_whole some k, rfl⟩
  | negSucc k => exact ⟨_, _, pointed_padded some k, writePositional_padded d k⟩

/-- What is written for a float other than zero in a document: digits around a point, which are read
as the float. -/
theorem writeMagnitude_pointed {M : Magnitude binary64} (pos : 0 < M.mantissa) :
    ∃ whole fraction x, Pointed whole fraction x ∧
      writeMagnitude .document M.mantissa M.exponent = whole ++ '.' :: fraction ∧
      UnpackedFloat.ofScientific binary64 (digitsValue (whole ++ fraction)) (-(fraction.length : ℤ)) =
        .finite .positive M.mantissa M.exponent pos := by
  obtain ⟨whole, fraction, pointed, written⟩ :=
    writePositional_pointed (shortest_value pos).1 (shortest M.mantissa M.exponent).2
  exact ⟨whole, fraction, _, pointed, written, shortest_reads pos (by omega) pointed.value⟩

end Positional

section Sign

variable {x : Float}

/-- A numeral that rounds to what a float is made of is the float. -/
theorem toFloat_eq {n : Numeral} (round : n.round binary64 = x.toModel.unpack) : n.toFloat = x := by
  unfold Numeral.toFloat
  rw [round, pack_unpack]

end Sign

end Crawler.Number

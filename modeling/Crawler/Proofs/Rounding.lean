import Mathlib.Algebra.Order.Field.Power
import Mathlib.Data.Rat.Cast.Order
import Mathlib.Tactic.FieldSimp
import Mathlib.Tactic.Linarith
import Mathlib.Tactic.NormNum
import Mathlib.Tactic.Positivity
import Mathlib.Tactic.Ring

/-! Rounding to the nearest number of a floating-point format. Nothing is said about ties: that no
number of the format is closer is enough for rounding to keep the order of what is rounded. -/
namespace Crawler.Number

open Float.Model (UnpackedFloat Format totalExponent)
open Float.Model.UnpackedFloat (Sign Accuracy ExtendedMantissa accuracyOfFraction roundWithAccuracy
  shiftToExponent shiftToTargetExponent)

variable {spec : Format}

/-- A number of a format that is not below zero, but for a bound on its exponent. It has all the bits
of the format unless its exponent is the least one. -/
@[ext] structure Magnitude (spec : Format) where
  mantissa : Nat
  exponent : Int
  fits : mantissa < 2 ^ spec.mantissaBits
  least : spec.minExponent ≤ exponent
  full : exponent = spec.minExponent ∨ 2 ^ spec.mantissaBitsWithoutImplicit ≤ mantissa

theorem two_pow_mantissaBits (spec : Format) :
    2 ^ spec.mantissaBits = 2 * 2 ^ spec.mantissaBitsWithoutImplicit := by
  unfold Format.mantissaBits
  rw [pow_add, pow_one]

namespace Magnitude

variable {M N : Magnitude spec} {x y : ℚ}

def value (M : Magnitude spec) : ℚ := M.mantissa * 2 ^ M.exponent

/-- All numbers with a lower exponent are below the numbers that have all their bits. -/
theorem value_lt_step (M : Magnitude spec) :
    M.value < 2 ^ spec.mantissaBitsWithoutImplicit * 2 ^ (M.exponent + 1) := by
  have fits : (M.mantissa : ℚ) < 2 * 2 ^ spec.mantissaBitsWithoutImplicit := by
    exact_mod_cast two_pow_mantissaBits spec ▸ M.fits
  have unit : (0 : ℚ) < 2 ^ M.exponent := by positivity
  rw [zpow_add_one₀ two_ne_zero]
  unfold value
  nlinarith

theorem value_lt_of_exponent_lt (lower : M.exponent < N.exponent) : M.value < N.value := by
  have full : 2 ^ spec.mantissaBitsWithoutImplicit ≤ N.mantissa := by
    have bottom := M.least
    rcases N.full with least | full
    · omega
    · exact full
  calc
    M.value < 2 ^ spec.mantissaBitsWithoutImplicit * 2 ^ (M.exponent + 1) := M.value_lt_step
    _ ≤ 2 ^ spec.mantissaBitsWithoutImplicit * 2 ^ N.exponent := by
      gcongr
      · norm_num
      · omega
    _ ≤ N.value := by
      unfold value
      gcongr
      exact_mod_cast full

theorem exponent_le_of_value_le (ordered : M.value ≤ N.value) : M.exponent ≤ N.exponent := by
  by_contra above
  exact absurd (value_lt_of_exponent_lt (not_le.mp above)) (not_lt.mpr ordered)

theorem value_lt_iff_of_exponent_eq (same : M.exponent = N.exponent) :
    M.value < N.value ↔ M.mantissa < N.mantissa := by
  unfold value
  rw [same, mul_lt_mul_iff_left₀ (by positivity), Nat.cast_lt]

theorem eq_of_value_eq (same : M.value = N.value) : M = N := by
  have exponents : M.exponent = N.exponent :=
    le_antisymm (exponent_le_of_value_le same.le) (exponent_le_of_value_le same.ge)
  have left := (value_lt_iff_of_exponent_eq exponents).not.mp same.not_lt
  have right := (value_lt_iff_of_exponent_eq exponents.symm).not.mp same.not_gt
  exact Magnitude.ext (by omega) exponents

def Nearest (x : ℚ) (M : Magnitude spec) : Prop := ∀ N : Magnitude spec, |x - M.value| ≤ |x - N.value|

/-- A value is on the same side of the middle between two numbers as the nearest of them. -/
theorem nearest_above (nearest : Nearest x M) (lower : N.value < M.value) :
    N.value + M.value ≤ 2 * x := by
  have closer := nearest N
  have far : M.value - x ≤ |x - M.value| := abs_sub_comm x M.value ▸ le_abs_self _
  rcases abs_cases (x - N.value) with ⟨near, _⟩ | ⟨near, _⟩ <;> linarith

private theorem nearest_below (nearest : Nearest x M) (upper : M.value < N.value) :
    2 * x ≤ M.value + N.value := by
  have closer := nearest N
  have far : x - M.value ≤ |x - M.value| := le_abs_self _
  rcases abs_cases (x - N.value) with ⟨near, _⟩ | ⟨near, _⟩ <;> linarith

/-- Rounding to the nearest keeps the order of two values. -/
theorem nearest_mono (left : Nearest x M) (right : Nearest y N) (ordered : x < y) :
    M.value ≤ N.value := by
  by_contra crossed
  have upper := nearest_above left (not_le.mp crossed)
  have lower := nearest_below right (not_le.mp crossed)
  linarith

end Magnitude

section Grid

/-- An integer within a half of a value is as close to it as any other integer. -/
theorem near_closest {x : ℚ} {n : ℤ} (near : |x - n| ≤ 1 / 2) (k : ℤ) : |x - n| ≤ |x - k| := by
  by_cases same : k = n
  · rw [same]
  · have apart : (1 : ℚ) ≤ |(k : ℚ) - n| := by
      exact_mod_cast Int.one_le_abs (sub_ne_zero.mpr same)
    have between := abs_sub_le (k : ℚ) x n
    rw [abs_sub_comm (k : ℚ) x] at between
    linarith

variable {M : Magnitude spec}

private theorem Magnitude.value_eq_intCast (M : Magnitude spec) {g : ℤ} (above : g ≤ M.exponent) :
    ∃ k : ℤ, M.value = k * 2 ^ g := by
  obtain ⟨n, apart⟩ := Int.eq_ofNat_of_zero_le (sub_nonneg.mpr above)
  have exponent : M.exponent = n + g := by omega
  refine ⟨M.mantissa * 2 ^ n, ?_⟩
  unfold value
  rw [exponent, zpow_add₀ two_ne_zero, zpow_natCast]
  push_cast
  ring

/-- On a grid that is fine enough where a value is, the closest point is the closest number. -/
theorem nearest_of_near {x : ℚ} {g : ℤ} {r : ℕ}
    (coarse : g = spec.minExponent ∨ 2 ^ spec.mantissaBitsWithoutImplicit * 2 ^ g ≤ x)
    (near : |x / 2 ^ g - r| ≤ 1 / 2) (same : M.value = r * 2 ^ g) : M.Nearest x := by
  intro N
  have unit : (0 : ℚ) < 2 ^ g := by positivity
  have scaled : ∀ y : ℚ, |x - y * 2 ^ g| = |x / 2 ^ g - y| * 2 ^ g := by
    intro y
    rw [← abs_of_pos unit, ← abs_mul, abs_of_pos unit, sub_mul, div_mul_cancel₀ x unit.ne']
  have closest (k : ℤ) : |x - M.value| ≤ |x - k * 2 ^ g| := by
    rw [same, scaled, scaled]
    have near : |x / 2 ^ g - (r : ℤ)| ≤ 1 / 2 := by exact_mod_cast near
    have closer := near_closest near k
    push_cast at closer
    gcongr
  rcases le_or_gt g N.exponent with above | below
  · obtain ⟨k, on⟩ := N.value_eq_intCast above
    rw [on]
    exact closest k
  -- What is finer than the grid is below the grid point that the value is not below.
  · have low : 2 ^ spec.mantissaBitsWithoutImplicit * 2 ^ g ≤ x := by
      have bottom := N.least
      rcases coarse with least | low
      · omega
      · exact low
    have under : N.value ≤ 2 ^ spec.mantissaBitsWithoutImplicit * 2 ^ g := by
      refine N.value_lt_step.le.trans ?_
      gcongr
      · norm_num
      · omega
    have closer := closest (2 ^ spec.mantissaBitsWithoutImplicit)
    push_cast at closer
    rw [abs_of_nonneg (sub_nonneg.mpr low)] at closer
    have far : x - N.value ≤ |x - N.value| := le_abs_self _
    linarith

end Grid

section Shift

/-- What an extended mantissa says about a value: the round bit is the first one after the mantissa, and
the sticky bit tells whether anything follows. -/
def Describes (em : ExtendedMantissa) (x : ℚ) : Prop :=
  ∃ tail : ℚ, 0 ≤ tail ∧ tail < 1 ∧ (em.stickyBit = true ↔ 0 < tail) ∧
    2 * x = 2 * em.mantissa + em.roundBit.toNat + tail

variable {em : ExtendedMantissa} {x : ℚ}

theorem describes_exact (m : ℕ) : Describes (.ofMantissaAndAccuracy m .exact) m := by
  refine ⟨0, le_refl 0, one_pos, ?_, ?_⟩
  · simp [ExtendedMantissa.ofMantissaAndAccuracy]
  · simp [ExtendedMantissa.ofMantissaAndAccuracy]

theorem describes_fraction (m : ℕ) {num den : ℕ} (below : num < den) :
    Describes (.ofMantissaAndAccuracy m (accuracyOfFraction num den)) (m + num / den) := by
  have pos : (0 : ℚ) < den := by exact_mod_cast (Nat.zero_le num).trans_lt below
  unfold accuracyOfFraction
  split
  · next none =>
    rw [none, Nat.cast_zero, zero_div, add_zero]
    exact describes_exact m
  · next some =>
    have some : (0 : ℚ) < num := by exact_mod_cast Nat.pos_of_ne_zero some
    have below : (num : ℚ) < den := by exact_mod_cast below
    have share : (num : ℚ) / den < 1 := (div_lt_one pos).mpr below
    have part : (0 : ℚ) < num / den := div_pos some pos
    cases half : compare (2 * num) den with
    | lt =>
      have half : 2 * (num : ℚ) < den := by exact_mod_cast Nat.compare_eq_lt.mp half
      refine ⟨2 * (num / den), by linarith, ?_, ?_, ?_⟩
      · rw [← mul_div_assoc, div_lt_one pos]
        exact half
      · simp [ExtendedMantissa.ofMantissaAndAccuracy, part]
      · simp [ExtendedMantissa.ofMantissaAndAccuracy]
        ring
    | eq =>
      have half : 2 * (num : ℚ) = den := by exact_mod_cast Nat.compare_eq_eq.mp half
      refine ⟨0, le_refl 0, one_pos, by simp [ExtendedMantissa.ofMantissaAndAccuracy], ?_⟩
      simp [ExtendedMantissa.ofMantissaAndAccuracy, ← half]
      field_simp
    | gt =>
      have half : (den : ℚ) < 2 * num := by exact_mod_cast Nat.compare_eq_gt.mp half
      have upper : 1 < 2 * ((num : ℚ) / den) := by
        rw [← mul_div_assoc, one_lt_div pos]
        exact half
      refine ⟨2 * (num / den) - 1, by linarith, by linarith, ?_, ?_⟩
      · simp [ExtendedMantissa.ofMantissaAndAccuracy, upper]
      · simp [ExtendedMantissa.ofMantissaAndAccuracy]
        ring

theorem describes_quotient (num : ℕ) {den : ℕ} (pos : 0 < den) :
    Describes (.ofMantissaAndAccuracy (num / den) (accuracyOfFraction (num % den) den)) (num / den) := by
  have unit : (den : ℚ) ≠ 0 := by exact_mod_cast pos.ne'
  have whole : (num : ℚ) = den * (num / den : ℕ) + (num % den : ℕ) := by
    exact_mod_cast (Nat.div_add_mod num den).symm
  have split : (num : ℚ) / den = (num / den : ℕ) + (num % den : ℕ) / den := by
    rw [div_eq_iff unit, add_mul, div_mul_cancel₀ _ unit, whole, mul_comm]
  rw [split]
  exact describes_fraction _ (Nat.mod_lt _ pos)

private theorem describes_shiftRightOne (described : Describes em x) :
    Describes em.shiftRightOne (x / 2) := by
  obtain ⟨tail, least, below, sticky, sum⟩ := described
  obtain ⟨m, round, stuck⟩ := em
  have whole : (m : ℚ) = 2 * (m / 2 : ℕ) + (m % 2 : ℕ) := by exact_mod_cast (Nat.div_add_mod m 2).symm
  have bit : (m % 2 != 0).toNat = m % 2 := by
    rcases Nat.mod_two_eq_zero_or_one m with even | odd
    · rw [even]
      rfl
    · rw [odd]
      rfl
  refine ⟨(round.toNat + tail) / 2, by positivity, ?_, ?_, ?_⟩
  · have bound : (round.toNat : ℚ) ≤ 1 := by exact_mod_cast round.toNat_le
    linarith
  · cases round with
    | false => simpa [ExtendedMantissa.shiftRightOne] using sticky
    | true =>
      simp only [ExtendedMantissa.shiftRightOne, Bool.true_or, Bool.toNat_true, Nat.cast_one, true_iff]
      linarith
  · simp only [ExtendedMantissa.shiftRightOne, bit]
    linarith

private theorem describes_shiftRight (described : Describes em x) (n : ℕ) :
    Describes (em >>> n) (x / 2 ^ n) := by
  change Describes (n.repeat ExtendedMantissa.shiftRightOne em) _
  induction n with
  | zero => simpa [Nat.repeat] using described
  | succ n ih =>
    rw [Nat.repeat, pow_succ, ← div_div]
    exact describes_shiftRightOne ih

private theorem describes_floor (described : Describes em x) :
    (em.mantissa : ℚ) ≤ x ∧ x < em.mantissa + 1 := by
  obtain ⟨tail, least, below, _, sum⟩ := described
  have bound : (em.roundBit.toNat : ℚ) ≤ 1 := by exact_mod_cast em.roundBit.toNat_le
  have bit : (0 : ℚ) ≤ em.roundBit.toNat := by positivity
  constructor <;> linarith

private theorem roundedMantissa_near (described : Describes em x) : |x - em.roundedMantissa| ≤ 1 / 2 := by
  obtain ⟨tail, least, below, sticky, sum⟩ := described
  obtain ⟨m, round, stuck⟩ := em
  rw [abs_le]
  cases round <;> cases stuck <;>
    simp only [ExtendedMantissa.roundedMantissa, ExtendedMantissa.accuracy,
      Accuracy.roundToNearestEven, Bool.toNat_false, Bool.toNat_true, Bool.false_eq_true, false_iff,
      not_lt, Nat.cast_zero, Nat.cast_one, Nat.cast_add] at sticky sum ⊢
  · constructor <;> linarith
  · constructor <;> linarith
  · rcases Nat.mod_two_eq_zero_or_one m with even | odd
    · rw [even]
      push_cast
      constructor <;> linarith
    · rw [odd]
      push_cast
      constructor <;> linarith
  · constructor <;> linarith

private theorem roundedMantissa_bounds (em : ExtendedMantissa) :
    em.mantissa ≤ em.roundedMantissa ∧ em.roundedMantissa ≤ em.mantissa + 1 := by
  obtain ⟨m, round, stuck⟩ := em
  cases round <;> cases stuck <;>
    simp only [ExtendedMantissa.roundedMantissa, ExtendedMantissa.accuracy,
      Accuracy.roundToNearestEven] <;> omega

private theorem shiftRight_mantissa (em : ExtendedMantissa) (n : ℕ) :
    (em >>> n).mantissa = em.mantissa / 2 ^ n := by
  change (n.repeat ExtendedMantissa.shiftRightOne em).mantissa = _
  induction n with
  | zero => simp [Nat.repeat]
  | succ n ih =>
    rw [Nat.repeat, ExtendedMantissa.shiftRightOne, ih, Nat.div_div_eq_div_mul, pow_succ]

private theorem ofMantissaAndAccuracy_mantissa (m : ℕ) (accuracy : Accuracy) :
    (ExtendedMantissa.ofMantissaAndAccuracy m accuracy).mantissa = m := by
  unfold ExtendedMantissa.ofMantissaAndAccuracy
  split <;> rfl

end Shift

section Round

def Magnitude.unpacked (sign : Sign) (M : Magnitude spec) : UnpackedFloat :=
  if none : M.mantissa = 0 then .zero sign
  else .finite sign M.mantissa M.exponent (Nat.pos_of_ne_zero none)

theorem Magnitude.unpacked_of_pos {M : Magnitude spec} (pos : 0 < M.mantissa) (sign : Sign) :
    M.unpacked sign = .finite sign M.mantissa M.exponent pos := by
  unfold unpacked
  rw [dif_neg pos.ne']

theorem finite_congr {s t : Sign} {m n : ℕ} {e f : ℤ} {pos : 0 < m} {pos' : 0 < n} (sign : s = t)
    (mantissa : m = n) (exponent : e = f) :
    UnpackedFloat.finite s m e pos = .finite t n f pos' := by
  subst sign mantissa exponent
  rfl

/-- Rounding up may make a mantissa one bit too long, and then it is a power of two. -/
theorem exists_shifted {r : ℕ} {g : ℤ} (fits : r ≤ 2 ^ spec.mantissaBits) (least : spec.minExponent ≤ g)
    (full : g = spec.minExponent ∨ 2 ^ spec.mantissaBitsWithoutImplicit ≤ r) :
    ∃ M : Magnitude spec, M.value = r * 2 ^ g ∧
      (shiftToTargetExponent spec r g .exact).1.mantissa = M.mantissa ∧
      (shiftToTargetExponent spec r g .exact).2 = M.exponent := by
  have wide := two_pow_mantissaBits spec
  unfold shiftToTargetExponent shiftToExponent
  dsimp only
  rw [shiftRight_mantissa, ofMantissaAndAccuracy_mantissa]
  rcases fits.lt_or_eq with fits | long
  · have short : r.log2 < spec.mantissaBits := by
      by_cases none : r = 0
      · rw [none]
        exact Nat.add_pos_left one_pos _
      · exact (Nat.log2_lt none).mpr fits
    have still : (spec.targetExponent (totalExponent r g) - g).toNat = 0 := by
      unfold Format.targetExponent totalExponent
      omega
    rw [still]
    exact ⟨⟨r, g, fits, least, full⟩, rfl, by simp, by simp⟩
  · have one : (spec.targetExponent (totalExponent r g) - g).toNat = 1 := by
      unfold Format.targetExponent totalExponent
      rw [long, Nat.log2_two_pow]
      omega
    have half : r / 2 = 2 ^ spec.mantissaBitsWithoutImplicit := by omega
    rw [one]
    have some := Nat.two_pow_pos spec.mantissaBitsWithoutImplicit
    have fits : r / 2 < 2 ^ spec.mantissaBits := by omega
    refine ⟨⟨r / 2, g + 1, fits, Int.le_add_one least, .inr half.ge⟩, ?_, by simp, by simp⟩
    have even : r = 2 * (r / 2) := by omega
    have even : (r : ℚ) = 2 * (r / 2 : ℕ) := by exact_mod_cast even
    unfold Magnitude.value
    dsimp only
    rw [even, zpow_add_one₀ two_ne_zero]
    ring

variable {m : ℕ} {e : ℤ} {accuracy : Accuracy} {x : ℚ}

/-- A value as it is cut before it is rounded: the bits of it that are on the grid of the format, and
what the bits beyond them say. -/
structure Cut (spec : Format) (x : ℚ) (em : ExtendedMantissa) (g : ℤ) : Prop where
  described : Describes em (x / 2 ^ g)
  fits : em.mantissa < 2 ^ spec.mantissaBits
  least : spec.minExponent ≤ g
  full : g = spec.minExponent ∨ 2 ^ spec.mantissaBitsWithoutImplicit ≤ em.mantissa

private theorem exists_cut (described : Describes (.ofMantissaAndAccuracy m accuracy) (x / 2 ^ e))
    (fine : e ≤ spec.targetExponent (totalExponent m e)) :
    ∃ em g, Cut spec x em g ∧ shiftToTargetExponent spec m e accuracy = (em, g) := by
  obtain ⟨k, shift⟩ := Int.eq_ofNat_of_zero_le (sub_nonneg.mpr fine)
  set g := spec.targetExponent (totalExponent m e) with grid
  set em := ExtendedMantissa.ofMantissaAndAccuracy m accuracy >>> k with shifted
  have exponent : g = e + k := by omega
  have floor : em.mantissa = m / 2 ^ k := by
    rw [shifted, shiftRight_mantissa, ofMantissaAndAccuracy_mantissa]
  refine ⟨em, g, ⟨?_, ?_, le_max_right _ _, ?_⟩, ?_⟩
  · rw [exponent, zpow_add₀ two_ne_zero, ← div_div, zpow_natCast]
    exact describes_shiftRight described k
  · rw [floor, Nat.div_lt_iff_lt_mul (by positivity), ← pow_add]
    refine Nat.lt_log2_self.trans_le (Nat.pow_le_pow_right two_pos ?_)
    unfold Format.targetExponent totalExponent at grid
    omega
  · by_cases least : g = spec.minExponent
    · exact .inl least
    · have bits : m.log2 = spec.mantissaBitsWithoutImplicit + k := by
        unfold Format.targetExponent totalExponent Format.mantissaBits at grid
        omega
      have some : m ≠ 0 := by
        rintro rfl
        have width := spec.hm
        rw [Nat.log2_zero] at bits
        omega
      rw [floor, Nat.le_div_iff_mul_le (by positivity), ← pow_add, ← bits]
      exact .inr (Nat.log2_self_le some)
  · have shift : (g - e).toNat = k := by omega
    unfold shiftToTargetExponent shiftToExponent
    rw [← grid]
    dsimp only
    rw [shift, ← shifted, ← exponent]

/-- A value that is known to the grid of the format, and beyond, is rounded to the nearest number. -/
theorem roundWithAccuracy_nearest
    (described : Describes (.ofMantissaAndAccuracy m accuracy) (x / 2 ^ e))
    (fine : e ≤ spec.targetExponent (totalExponent m e)) (sign : Sign) :
    ∃ M : Magnitude spec, M.Nearest x ∧
      roundWithAccuracy spec sign m e accuracy = M.unpacked sign := by
  obtain ⟨em, g, cut, first⟩ := exists_cut described fine
  have bounds := roundedMantissa_bounds em
  have fits := cut.fits
  have long : em.roundedMantissa ≤ 2 ^ spec.mantissaBits := by omega
  obtain ⟨M, same, mantissa, final⟩ := exists_shifted long cut.least (cut.full.imp_right bounds.1.trans')
  refine ⟨M, nearest_of_near (cut.full.imp_right fun full => ?_) (roundedMantissa_near cut.described) same,
    ?_⟩
  · have floor := (describes_floor cut.described).1
    have full : (2 : ℚ) ^ spec.mantissaBitsWithoutImplicit ≤ em.mantissa := by exact_mod_cast full
    rw [← le_div_iff₀ (by positivity)]
    exact full.trans floor
  · unfold roundWithAccuracy Magnitude.unpacked
    rw [first]
    dsimp only
    by_cases none : M.mantissa = 0
    · rw [dif_pos (mantissa.trans none), dif_pos none]
    · rw [dif_neg (mantissa ▸ none), dif_neg none]
      exact finite_congr rfl mantissa final

variable {m' : ℕ} {e' : ℤ} {accuracy' : Accuracy} {em em' : ExtendedMantissa} {g g' : ℤ}

private theorem describes_unique (left : Describes em x) (right : Describes em' x) : em = em' := by
  have floor := describes_floor left
  have floor' := describes_floor right
  have mantissa : em.mantissa = em'.mantissa := by
    have below : (em.mantissa : ℚ) < em'.mantissa + 1 := by linarith
    have above : (em'.mantissa : ℚ) < em.mantissa + 1 := by linarith
    have below : em.mantissa < em'.mantissa + 1 := by exact_mod_cast below
    have above : em'.mantissa < em.mantissa + 1 := by exact_mod_cast above
    omega
  obtain ⟨tail, least, below, sticky, sum⟩ := left
  obtain ⟨tail', least', below', sticky', sum'⟩ := right
  obtain ⟨m, round, stuck⟩ := em
  obtain ⟨m', round', stuck'⟩ := em'
  dsimp only at mantissa sticky sticky' sum sum'
  subst mantissa
  have bits : round = round' := by
    cases round <;> cases round' <;>
      simp only [Bool.toNat_false, Bool.toNat_true, Nat.cast_zero, Nat.cast_one] at sum sum' ⊢ <;>
      linarith
  subst bits
  have tails : tail = tail' := by linarith
  rw [tails, ← sticky', Bool.coe_iff_coe] at sticky
  rw [sticky]

/-- The grid that a value is cut to is the one below which no number has all its bits. -/
theorem grid_le_of_cut (left : Cut spec x em g) (right : Cut spec x em' g') : g' ≤ g := by
  by_contra finer
  have unit : (0 : ℚ) < 2 ^ g' := by positivity
  have bottom := left.least
  have full : (2 : ℚ) ^ spec.mantissaBitsWithoutImplicit ≤ em'.mantissa := by
    rcases right.full with least | full
    · omega
    · exact_mod_cast full
  have above : 2 ^ spec.mantissaBitsWithoutImplicit * 2 ^ g' ≤ x := by
    rw [← le_div_iff₀ unit]
    exact full.trans (describes_floor right.described).1
  have below : x < 2 ^ spec.mantissaBitsWithoutImplicit * 2 ^ (g + 1) := by
    have fits : (em.mantissa : ℚ) + 1 ≤ 2 * 2 ^ spec.mantissaBitsWithoutImplicit := by
      exact_mod_cast two_pow_mantissaBits spec ▸ left.fits
    have under := (describes_floor left.described).2.trans_le fits
    rw [div_lt_iff₀ (by positivity)] at under
    rw [zpow_add_one₀ two_ne_zero]
    linarith
  have coarse : (2 : ℚ) ^ (g + 1) ≤ 2 ^ g' := zpow_le_zpow_right₀ one_le_two (by omega)
  have pos : (0 : ℚ) < 2 ^ spec.mantissaBitsWithoutImplicit := by positivity
  nlinarith

/-- What a value is rounded to does not depend on how it is given. -/
theorem roundWithAccuracy_congr
    (left : Describes (.ofMantissaAndAccuracy m accuracy) (x / 2 ^ e))
    (fine : e ≤ spec.targetExponent (totalExponent m e))
    (right : Describes (.ofMantissaAndAccuracy m' accuracy') (x / 2 ^ e'))
    (fine' : e' ≤ spec.targetExponent (totalExponent m' e')) (sign : Sign) :
    roundWithAccuracy spec sign m e accuracy = roundWithAccuracy spec sign m' e' accuracy' := by
  obtain ⟨em, g, cut, first⟩ := exists_cut left fine
  obtain ⟨em', g', cut', first'⟩ := exists_cut right fine'
  have grids : g = g' := le_antisymm (grid_le_of_cut cut' cut) (grid_le_of_cut cut cut')
  subst grids
  have same := describes_unique cut.described cut'.described
  subst same
  unfold roundWithAccuracy
  rw [first, first']

end Round

end Crawler.Number

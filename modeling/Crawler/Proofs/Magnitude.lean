import Mathlib.Algebra.Order.Floor.Semifield
import Mathlib.Data.Rat.Floor
import Mathlib.Order.WithBot
import Crawler.Proofs.Rounding
import Crawler.Proofs.Sign

/-! Products, quotients and conversions of floats that are not below zero. Each of them keeps the order
of the values that it is given. -/
namespace Crawler.Number

open Float.Model (UnpackedFloat Format totalExponent)
open Float.Model.Format (binary64)
open Float.Model.UnpackedFloat (Sign packComponents unpackSign unpackExponent unpackMantissa divCore
  roundWithAccuracy)

section Pack

private theorem append_one {f : ℕ} (mantissa : BitVec f) :
    (1#1 ++ mantissa).toNat = 2 ^ f + mantissa.toNat := by
  rw [BitVec.toNat_append, ← Nat.shiftLeft_add_eq_or_of_lt mantissa.isLt]
  simp [Nat.shiftLeft_eq]

section Components

variable {bits : BitVec binary64.numBits} {sign : Sign} {exponent : BitVec 11} {mantissa : BitVec 52}
  {m : ℕ}

private theorem sign_of_packComponents (packed : bits = packComponents binary64 sign exponent mantissa) :
    Sign.ofBitVec (UnpackedFloat.unpackSign bits) = sign := by
  rw [packed, unpackSign_packComponents]
  cases sign <;> rfl

private theorem unpack_normal (packed : bits = packComponents binary64 sign exponent mantissa)
    (bounded : exponent ≠ -1#11) (some : exponent ≠ 0#11) (whole : 2 ^ 52 + mantissa.toNat = m)
    (pos : 0 < m) :
    UnpackedFloat.unpack binary64 bits = .finite sign m (exponent.toNat - 1075) pos := by
  have vector : UnpackedFloat.unpackExponent bits = exponent := by
    rw [packed, UnpackedFloat.unpackExponent_packComponents]
  have fraction : UnpackedFloat.unpackMantissa bits = mantissa := by
    rw [packed, UnpackedFloat.unpackMantissa_packComponents]
  unfold UnpackedFloat.unpack
  dsimp only
  rw [if_neg (vector ▸ bounded), if_neg (vector ▸ some)]
  refine finite_congr (sign_of_packComponents packed) ?_ ?_
  · rw [fraction, append_one, ← whole]
  · rw [vector]
    rfl

private theorem unpack_subnormal (packed : bits = packComponents binary64 sign 0#11 mantissa)
    (whole : mantissa.toNat = m) (pos : 0 < m) :
    UnpackedFloat.unpack binary64 bits = .finite sign m (-1074) pos := by
  have vector : UnpackedFloat.unpackExponent bits = 0#11 := by
    rw [packed, UnpackedFloat.unpackExponent_packComponents]
  have fraction : UnpackedFloat.unpackMantissa bits = mantissa := by
    rw [packed, UnpackedFloat.unpackMantissa_packComponents]
  have bounded : 0#11 ≠ -1#11 := by decide
  have some : mantissa ≠ 0#52 := by
    rintro rfl
    exact pos.ne whole
  unfold UnpackedFloat.unpack
  dsimp only
  rw [if_neg (vector ▸ bounded), if_pos vector, dif_neg (fraction ▸ some)]
  refine finite_congr (sign_of_packComponents packed) ?_ ?_
  · rw [fraction, whole]
  · rw [vector]
    rfl

end Components

private theorem pack_finite (spec : Format) (sign : Sign) (m : ℕ) (e : ℤ) (pos : 0 < m) :
    UnpackedFloat.pack spec (.finite sign m e pos) =
      if 2 ^ spec.exponentBits ≤
        (e + spec.exponentBias + spec.mantissaBitsWithoutImplicit).toNat + 1 then
        UnpackedFloat.packedInfinity spec sign
      else if m.log2 + 1 = spec.mantissaBits then
        packComponents spec sign
          (BitVec.ofNat _ (e + spec.exponentBias + spec.mantissaBitsWithoutImplicit).toNat)
          (BitVec.ofNat _ m)
      else packComponents spec sign 0#_ (BitVec.ofNat _ m) := rfl

private theorem pack_double (sign : Sign) (m : ℕ) (e : ℤ) (pos : 0 < m) :
    UnpackedFloat.pack binary64 (.finite sign m e pos) =
      if 2 ^ 11 ≤ (e + 1023 + 52).toNat + 1 then UnpackedFloat.packedInfinity binary64 sign
      else if m.log2 + 1 = 53 then
        packComponents binary64 sign (BitVec.ofNat 11 (e + 1023 + 52).toNat) (BitVec.ofNat 52 m)
      else packComponents binary64 sign 0#11 (BitVec.ofNat 52 m) := by
  exact pack_finite binary64 sign m e pos

private theorem pack_normal (sign : Sign) {m b : ℕ} (long : 2 ^ 52 ≤ m) (fits : m < 2 ^ 53)
    (below : b < 2047)
    (pos : 0 < m) : UnpackedFloat.pack binary64 (.finite sign m (b - 1075) pos) =
      packComponents binary64 sign (BitVec.ofNat 11 b) (BitVec.ofNat 52 m) := by
  have bits : m.log2 = 52 := (Nat.log2_eq_iff pos.ne').mpr ⟨long, fits⟩
  have biased : ((b : ℤ) - 1075 + 1023 + 52).toNat = b := by omega
  rw [pack_double, biased, if_neg (by omega), if_pos (by omega)]

private theorem pack_subnormal (sign : Sign) {m : ℕ} (short : m < 2 ^ 52) (pos : 0 < m) :
    UnpackedFloat.pack binary64 (.finite sign m (-1074) pos) =
      packComponents binary64 sign 0#11 (BitVec.ofNat 52 m) := by
  have bits : m.log2 < 52 := (Nat.log2_lt pos.ne').mpr short
  rw [pack_double, if_neg (by decide), if_neg (by omega)]

namespace Magnitude

def stored (M : Magnitude binary64) : UnpackedFloat :=
  if 971 < M.exponent then .infinity .positive else M.unpacked .positive

def kept (sign : Sign) (M : Magnitude binary64) : UnpackedFloat :=
  if 971 < M.exponent then .infinity sign else M.unpacked sign

theorem unpack_pack_kept (sign : Sign) (M : Magnitude binary64) :
    UnpackedFloat.unpack binary64 (UnpackedFloat.pack binary64 (M.unpacked sign)) = M.kept sign := by
  obtain ⟨m, e, fits, least, full⟩ := M
  change m < 2 ^ 53 at fits
  change -1074 ≤ e at least
  change e = -1074 ∨ 2 ^ 52 ≤ m at full
  unfold kept unpacked
  dsimp only
  by_cases none : m = 0
  · rw [dif_pos none, if_neg (by omega)]
    cases sign <;> rfl
  rw [dif_neg none]
  have some : 0 < m := Nat.pos_of_ne_zero none
  by_cases beyond : 971 < e
  · rw [if_pos beyond, pack_double, if_pos (by omega)]
    cases sign <;> rfl
  rw [if_neg beyond]
  by_cases long : 2 ^ 52 ≤ m
  · obtain ⟨b, biased⟩ : ∃ b : ℕ, e + 1075 = b := Int.eq_ofNat_of_zero_le (by omega)
    obtain rfl : e = b - 1075 := by omega
    have exponent : (BitVec.ofNat 11 b).toNat = b := by
      rw [BitVec.toNat_ofNat, Nat.mod_eq_of_lt (by omega)]
    have bounded : BitVec.ofNat 11 b ≠ -1#11 := by
      intro same
      have same : b = 2047 := exponent ▸ congrArg BitVec.toNat same
      omega
    have high : BitVec.ofNat 11 b ≠ 0#11 := by
      intro same
      have same : b = 0 := exponent ▸ congrArg BitVec.toNat same
      omega
    have whole : 2 ^ 52 + (BitVec.ofNat 52 m).toNat = m := by
      rw [BitVec.toNat_ofNat]
      omega
    rw [pack_normal sign long fits (by omega) some, unpack_normal rfl bounded high whole some]
    exact finite_congr rfl rfl (by omega)
  · have short : m < 2 ^ 52 := not_le.mp long
    obtain rfl : e = -1074 := by omega
    have whole : (BitVec.ofNat 52 m).toNat = m := by
      rw [BitVec.toNat_ofNat, Nat.mod_eq_of_lt short]
    rw [pack_subnormal sign short some, unpack_subnormal rfl whole some]

end Magnitude

private theorem toNat_pos_of_ne_zero {f : ℕ} {mantissa : BitVec f} (some : mantissa ≠ 0#f) :
    0 < mantissa.toNat := by
  refine Nat.pos_of_ne_zero fun none => ?_
  exact some (BitVec.eq_of_toNat_eq none)

section Parts

variable {spec : Format}

/-- A float is made of its sign, its exponent and its fraction. -/
theorem packComponents_parts (bits : BitVec spec.numBits) :
    packComponents spec (Sign.ofBitVec (unpackSign bits)) (unpackExponent bits) (unpackMantissa bits) =
      bits := by
  have sign : (Sign.ofBitVec (unpackSign bits)).toBitVec = unpackSign bits := by
    rcases BitVec.eq_zero_or_eq_one (unpackSign bits) with zero | one
    · rw [zero]
      rfl
    · rw [one]
      rfl
  delta packComponents
  rw [sign]
  delta unpackMantissa unpackExponent unpackSign
  ext i inside
  have mantissa := spec.hm
  have exponent := spec.he
  have place : (if i < spec.mantissaBitsWithoutImplicit then bits.getLsbD i
      else if i - spec.mantissaBitsWithoutImplicit < spec.exponentBits then
        bits.getLsbD (spec.mantissaBitsWithoutImplicit + (i - spec.mantissaBitsWithoutImplicit))
      else bits.getLsbD (spec.mantissaBitsWithoutImplicit + spec.exponentBits +
        (i - spec.mantissaBitsWithoutImplicit - spec.exponentBits))) = bits[i] := by
    rw [← BitVec.getLsbD_eq_getElem]
    split
    · rfl
    · split <;> congr 1 <;> omega
  simp only [BitVec.getElem_append, BitVec.getElem_cast]
  simpa [BitVec.extractLsb] using place

inductive Unpacked (bits : BitVec spec.numBits) : UnpackedFloat → Prop
  | infinity (exponent : unpackExponent bits = -1#_)
      (mantissa : unpackMantissa bits = 0#_) :
      Unpacked bits (.infinity (Sign.ofBitVec (unpackSign bits)))
  | notANumber (exponent : unpackExponent bits = -1#_)
      (mantissa : unpackMantissa bits ≠ 0#_) :
      Unpacked bits .notANumber
  | zero (exponent : unpackExponent bits = 0#_)
      (mantissa : unpackMantissa bits = 0#_) :
      Unpacked bits (.zero (Sign.ofBitVec (unpackSign bits)))
  | subnormal (exponent : unpackExponent bits = 0#_)
      (pos : 0 < (unpackMantissa bits).toNat) :
      Unpacked bits (.finite (Sign.ofBitVec (unpackSign bits)) (unpackMantissa bits).toNat
        ((unpackExponent bits).toNat - (spec.exponentBias + spec.mantissaBitsWithoutImplicit : ℤ) + 1) pos)
  | normal (some : 0 < (unpackExponent bits).toNat)
      (below : (unpackExponent bits).toNat ≠ 2 ^ spec.exponentBits - 1)
      (pos : 0 < (1#1 ++ unpackMantissa bits).toNat) :
      Unpacked bits (.finite (Sign.ofBitVec (unpackSign bits)) (1#1 ++ unpackMantissa bits).toNat
        ((unpackExponent bits).toNat - (spec.exponentBias + spec.mantissaBitsWithoutImplicit : ℤ)) pos)

private theorem unpack_unpacked (wide : 1 < spec.exponentBits) (bits : BitVec spec.numBits) :
    Unpacked bits (UnpackedFloat.unpack spec bits) := by
  have room : 2 ^ 2 ≤ 2 ^ spec.exponentBits := Nat.pow_le_pow_right two_pos wide
  unfold UnpackedFloat.unpack
  dsimp only
  by_cases full : unpackExponent bits = -1#_
  · rw [if_pos full]
    by_cases none : unpackMantissa bits = 0#_
    · rw [if_pos none]
      exact .infinity full none
    · rw [if_neg none]
      exact .notANumber full none
  rw [if_neg full]
  by_cases low : unpackExponent bits = 0#_
  · rw [if_pos low]
    by_cases none : unpackMantissa bits = 0#_
    · rw [dif_pos none]
      exact .zero low none
    · rw [dif_neg none]
      exact .subnormal low _
  · rw [if_neg low]
    refine .normal (toNat_pos_of_ne_zero low) (fun same => full (BitVec.eq_of_toNat_eq ?_)) _
    rw [same, BitVec.toNat_neg, BitVec.toNat_one (by omega), Nat.mod_eq_of_lt (by omega)]

theorem pack_unpack_bits (wide : 1 < spec.exponentBits) {bits : BitVec spec.numBits}
    (valid : spec.Valid bits) : UnpackedFloat.pack spec (UnpackedFloat.unpack spec bits) = bits := by
  have parts := packComponents_parts bits
  have fits := (unpackMantissa bits).isLt
  have bound := (unpackExponent bits).isLt
  have room : 2 ^ 2 ≤ 2 ^ spec.exponentBits := Nat.pow_le_pow_right two_pos wide
  have implicit : spec.mantissaBits = 1 + spec.mantissaBitsWithoutImplicit := rfl
  generalize unpacked : UnpackedFloat.unpack spec bits = f
  cases unpacked ▸ unpack_unpacked wide bits with
  | infinity exponent mantissa =>
    rw [exponent, mantissa] at parts
    exact parts
  | notANumber exponent mantissa => exact (valid.eq_packedNaN exponent mantissa).symm
  | zero exponent mantissa =>
    rw [exponent, mantissa] at parts
    exact parts
  | subnormal exponent pos =>
    have short := (Nat.log2_lt pos.ne').mpr fits
    have least : (unpackExponent bits).toNat = 0 := by
      rw [exponent]
      rfl
    rw [pack_finite, if_neg (by omega), if_neg (by omega), BitVec.ofNat_toNat, BitVec.setWidth_eq,
      ← exponent, parts]
  | normal some below pos =>
    have whole := append_one (unpackMantissa bits)
    have long : (1#1 ++ unpackMantissa bits).toNat.log2 = spec.mantissaBitsWithoutImplicit :=
      (Nat.log2_eq_iff pos.ne').mpr ⟨by omega, by rw [pow_succ]; omega⟩
    have mantissa : BitVec.ofNat spec.mantissaBitsWithoutImplicit (1#1 ++ unpackMantissa bits).toNat =
        unpackMantissa bits := by
      apply BitVec.eq_of_toNat_eq
      rw [BitVec.toNat_ofNat, whole, Nat.add_mod_left, Nat.mod_eq_of_lt fits]
    have biased : ((unpackExponent bits).toNat - (spec.exponentBias + spec.mantissaBitsWithoutImplicit : ℤ) +
        spec.exponentBias + spec.mantissaBitsWithoutImplicit).toNat = (unpackExponent bits).toNat := by
      omega
    rw [pack_finite, biased, if_neg (by omega), if_pos (by omega), mantissa, BitVec.ofNat_toNat,
      BitVec.setWidth_eq, parts]

end Parts

/-- Nothing of a float is lost when it is unpacked. -/
theorem pack_unpack (x : Float) : Float.ofModel (.pack x.toModel.unpack) = x := by
  obtain ⟨⟨⟨bits⟩, valid⟩⟩ := x
  have same := pack_unpack_bits (by decide) valid
  exact congrArg Float.ofModel ((Float.Model.mk.injEq ..).mpr (congrArg UInt64.ofBitVec same))

/-- A number that is unpacked is one of the format, and its exponent is in range. -/
theorem exists_magnitude {spec : Format} {bits : BitVec spec.numBits} {sign : Sign} {m : ℕ}
    {e : ℤ} {pos : 0 < m} (wide : 1 < spec.exponentBits)
    (read : UnpackedFloat.unpack spec bits = .finite sign m e pos) :
    ∃ M : Magnitude spec, M.mantissa = m ∧ M.exponent = e ∧
      e + (spec.exponentBias + spec.mantissaBitsWithoutImplicit) + 2 ≤ (2 ^ spec.exponentBits : ℕ) := by
  have fits := (unpackMantissa bits).isLt
  have biased := (unpackExponent bits).isLt
  have room : 2 ^ 2 ≤ 2 ^ spec.exponentBits := Nat.pow_le_pow_right two_pos wide
  have twice : 2 ^ spec.mantissaBits = 2 * 2 ^ spec.mantissaBitsWithoutImplicit :=
    two_pow_mantissaBits spec
  have least : spec.minExponent = 1 - (spec.exponentBias + spec.mantissaBitsWithoutImplicit : ℤ) := by
    unfold Format.minExponent Format.exponentBias Format.mantissaBits
    push_cast [Nat.one_le_two_pow]
    ring
  cases read ▸ unpack_unpacked wide bits with
  | subnormal exponent pos =>
    have lowest : (unpackExponent bits).toNat = 0 := by
      rw [exponent]
      rfl
    refine ⟨⟨(unpackMantissa bits).toNat, _, ?_, ?_, .inl ?_⟩, rfl, rfl, ?_⟩ <;> omega
  | normal some below pos =>
    have whole := append_one (unpackMantissa bits)
    refine ⟨⟨(1#1 ++ unpackMantissa bits).toNat, _, ?_, ?_, .inr ?_⟩, rfl, rfl, ?_⟩ <;> omega

end Pack

def Reads (x : Float) (M : Magnitude binary64) : Prop :=
  ∃ pos, x.toModel.unpack = .finite .positive M.mantissa M.exponent pos

theorem exists_reads {x : Float} (positive : isPositive x = true) : ∃ M, Reads x M := by
  obtain ⟨finite, above⟩ := Bool.and_eq_true_iff.mp positive
  have finite : x.toModel.unpack.isFinite = true := finite
  rcases pos_iff.mp (of_decide_eq_true above) with infinite | ⟨m, e, pos, read⟩
  · rw [infinite] at finite
    cases finite
  · obtain ⟨M, rfl, rfl, _⟩ := exists_magnitude (by decide) read
    exact ⟨M, pos, read⟩

section Order

variable {x y : Float} {M N : Magnitude binary64}

private theorem Magnitude.compare_value (M N : Magnitude binary64) :
    (compare M.exponent N.exponent).then (compare M.mantissa N.mantissa) =
      compare M.value N.value := by
  rcases lt_trichotomy M.exponent N.exponent with lower | same | higher
  · rw [compare_lt_iff_lt.mpr lower, compare_lt_iff_lt.mpr (value_lt_of_exponent_lt lower)]
    rfl
  · rw [compare_eq_iff_eq.mpr same]
    change compare M.mantissa N.mantissa = _
    rcases lt_trichotomy M.mantissa N.mantissa with fewer | equal | more
    · rw [compare_lt_iff_lt.mpr fewer,
        compare_lt_iff_lt.mpr ((value_lt_iff_of_exponent_eq same).mpr fewer)]
    · rw [compare_eq_iff_eq.mpr equal, Magnitude.ext equal same, compare_eq_iff_eq.mpr rfl]
    · rw [compare_gt_iff_gt.mpr more,
        compare_gt_iff_gt.mpr ((value_lt_iff_of_exponent_eq same.symm).mpr more)]
  · rw [compare_gt_iff_gt.mpr higher, compare_gt_iff_gt.mpr (value_lt_of_exponent_lt higher)]
    rfl

private theorem compare_reads (left : Reads x M) (right : Reads y N) :
    x.toModel.unpack.compare y.toModel.unpack = some (compare M.value N.value) := by
  obtain ⟨_, left⟩ := left
  obtain ⟨_, right⟩ := right
  rw [left, right, ← M.compare_value N]
  rfl

theorem lt_iff_of_reads (left : Reads x M) (right : Reads y N) : x < y ↔ M.value < N.value := by
  rw [lt_iff, UnpackedFloat.lt, compare_reads left right, ← compare_lt_iff_lt]
  simp

theorem le_iff_of_reads (left : Reads x M) (right : Reads y N) : x ≤ y ↔ M.value ≤ N.value := by
  change decide (x.toModel ≤ y.toModel) = true ↔ _
  rw [decide_eq_true_iff]
  change x.toModel.unpack.le y.toModel.unpack = true ↔ _
  rw [UnpackedFloat.le, compare_reads left right, ← compare_le_iff_le]
  exact Ordering.isLE_iff_ne_gt

end Order

section Arithmetic

variable {x y : Float} {M N : Magnitude binary64}

theorem unpack_mul (x y : Float) : (x * y).toModel.unpack = UnpackedFloat.unpack binary64
    (UnpackedFloat.pack binary64
      (UnpackedFloat.mul binary64 x.toModel.unpack y.toModel.unpack)) := rfl

theorem unpack_div (x y : Float) : (x / y).toModel.unpack = UnpackedFloat.unpack binary64
    (UnpackedFloat.pack binary64
      (UnpackedFloat.div binary64 x.toModel.unpack y.toModel.unpack)) := rfl

/-- A mantissa with all its bits may stand on any exponent. -/
theorem fine_of_long {m : ℕ} (long : 2 ^ 52 ≤ m) (e : ℤ) :
    e ≤ binary64.targetExponent (totalExponent m e) := by
  have bits : 52 ≤ m.log2 := (Nat.le_log2 (by omega)).mpr long
  have wide : binary64.mantissaBits = 53 := rfl
  unfold Format.targetExponent totalExponent
  omega

private theorem fine_of_low {e : ℤ} (low : e ≤ -1074) (m : ℕ) :
    e ≤ binary64.targetExponent (totalExponent m e) := by
  exact low.trans (le_max_right _ _)

def Holds (x : Float) (sign : Sign) (M : Magnitude binary64) : Prop :=
  ∃ pos, x.toModel.unpack = .finite sign M.mantissa M.exponent pos

theorem mul_kept {s t : Sign} (left : Holds x s M) (right : Holds y t N) :
    ∃ P : Magnitude binary64, P.Nearest (M.value * N.value) ∧
      (x * y).toModel.unpack = P.kept (s * t) := by
  obtain ⟨m, left⟩ := left
  obtain ⟨n, right⟩ := right
  have described : Describes (.ofMantissaAndAccuracy (M.mantissa * N.mantissa) .exact)
      (M.value * N.value / 2 ^ (M.exponent + N.exponent)) := by
    have value : M.value * N.value / 2 ^ (M.exponent + N.exponent) =
        (M.mantissa * N.mantissa : ℕ) := by
      unfold Magnitude.value
      rw [zpow_add₀ two_ne_zero]
      field_simp
      push_cast
      ring
    rw [value]
    exact describes_exact _
  have fine : M.exponent + N.exponent ≤
      binary64.targetExponent (totalExponent (M.mantissa * N.mantissa) (M.exponent + N.exponent)) := by
    have least : binary64.minExponent = -1074 := rfl
    rcases M.full with low | long
    · rcases N.full with low' | long
      · exact fine_of_low (by omega) _
      · exact fine_of_long (long.trans (Nat.le_mul_of_pos_left _ m)) _
    · exact fine_of_long (long.trans (Nat.le_mul_of_pos_right _ n)) _
  obtain ⟨P, nearest, rounded⟩ := roundWithAccuracy_nearest described fine (s * t)
  refine ⟨P, nearest, ?_⟩
  rw [unpack_mul, left, right, ← P.unpack_pack_kept, ← rounded]
  rfl

private theorem mul_nearest (left : Reads x M) (right : Reads y N) :
    ∃ P : Magnitude binary64, P.Nearest (M.value * N.value) ∧ (x * y).toModel.unpack = P.stored := by
  exact mul_kept left right

/-- A dividend that is shifted far enough leaves a quotient with all its bits. -/
theorem long_quotient {m n k : ℕ} (some : m ≠ 0) (pos : 0 < n) (far : n.log2 + 1 + 52 ≤ m.log2 + k) :
    2 ^ 52 ≤ m <<< k / n := by
  rw [Nat.le_div_iff_mul_le pos, Nat.shiftLeft_eq, mul_comm]
  calc
    n * 2 ^ 52 ≤ 2 ^ (n.log2 + 1) * 2 ^ 52 := by
      gcongr
      exact Nat.lt_log2_self.le
    _ ≤ 2 ^ m.log2 * 2 ^ k := by
      rw [← pow_add, ← pow_add]
      exact Nat.pow_le_pow_right two_pos far
    _ ≤ m * 2 ^ k := by
      gcongr
      exact Nat.log2_self_le some

/-- A quotient is computed to so many bits that all of those that it is rounded to are known. -/
theorem exists_divCore {m n : ℕ} (some : m ≠ 0) (pos : 0 < n) (e f : ℤ) :
    ∃ q t accuracy, divCore binary64 m e n f = (q, t, accuracy) ∧
      Describes (.ofMantissaAndAccuracy q accuracy) (m * 2 ^ e / (n * 2 ^ f) / 2 ^ t) ∧
      t ≤ binary64.targetExponent (totalExponent q t) := by
  set t := min (e - f) (binary64.targetExponent (totalExponent m e - totalExponent n f)) with target
  obtain ⟨k, shift⟩ := Int.eq_ofNat_of_zero_le (sub_nonneg.mpr (min_le_left _ _ : t ≤ e - f))
  set dividend := m <<< k with moved
  refine ⟨dividend / n, t, UnpackedFloat.accuracyOfFraction (dividend % n) n, ?_, ?_, ?_⟩
  · unfold divCore
    dsimp only
    rw [← target, shift]
    rfl
  · have value : (m * 2 ^ e / (n * 2 ^ f) / 2 ^ t : ℚ) = dividend / n := by
      have exponent : e = t + k + f := by omega
      rw [moved, Nat.shiftLeft_eq, exponent, zpow_add₀ two_ne_zero, zpow_add₀ two_ne_zero, zpow_natCast]
      push_cast
      field_simp
    rw [value]
    exact describes_quotient _ pos
  · by_cases low : t ≤ -1074
    · exact fine_of_low low _
    · have above : t ≤ binary64.targetExponent (totalExponent m e - totalExponent n f) :=
        min_le_right _ _
      have wide : binary64.mantissaBits = 53 := rfl
      have least : binary64.minExponent = -1074 := rfl
      unfold Format.targetExponent totalExponent at above
      exact fine_of_long (long_quotient some pos (by omega)) _

theorem div_kept {s t : Sign} (left : Holds x s M) (right : Holds y t N) :
    ∃ P : Magnitude binary64, P.Nearest (M.value / N.value) ∧
      (x / y).toModel.unpack = P.kept (s * t) := by
  obtain ⟨m, left⟩ := left
  obtain ⟨n, right⟩ := right
  obtain ⟨q, e, accuracy, core, described, fine⟩ := exists_divCore m.ne' n M.exponent N.exponent
  have quotient : UnpackedFloat.div binary64 x.toModel.unpack y.toModel.unpack =
      roundWithAccuracy binary64 (s * t) q e accuracy := by
    rw [left, right]
    unfold UnpackedFloat.div
    dsimp only
    rw [core]
    cases s <;> cases t <;> rfl
  obtain ⟨P, nearest, rounded⟩ := roundWithAccuracy_nearest described fine (s * t)
  refine ⟨P, nearest, ?_⟩
  rw [unpack_div, quotient, rounded, P.unpack_pack_kept]

private theorem div_nearest (left : Reads x M) (right : Reads y N) :
    ∃ P : Magnitude binary64, P.Nearest (M.value / N.value) ∧ (x / y).toModel.unpack = P.stored := by
  exact div_kept left right

end Arithmetic

section Size

def size : UnpackedFloat → WithTop ℚ
  | .finite _ m e _ => ((m * 2 ^ e : ℚ) : WithTop ℚ)
  | .zero _ => ((0 : ℚ) : WithTop ℚ)
  | .infinity _ | .notANumber => ⊤

variable {x y z : Float} {L M N : Magnitude binary64}

private theorem Magnitude.stored_of_beyond (beyond : 971 < M.exponent) :
    M.stored = .infinity .positive := by
  unfold stored
  rw [if_pos beyond]

private theorem Magnitude.stored_of_none (within : ¬ 971 < M.exponent) (none : M.mantissa = 0) :
    M.stored = .zero .positive := by
  rw [stored, if_neg within]
  exact dif_pos none

private theorem Magnitude.stored_of_pos (within : ¬ 971 < M.exponent) (pos : 0 < M.mantissa) :
    M.stored = .finite .positive M.mantissa M.exponent pos := by
  rw [stored, if_neg within]
  exact dif_neg pos.ne'

private theorem read_cases (read : x.toModel.unpack = M.stored) :
    x.toModel.unpack = .infinity .positive ∨ x.toModel.unpack = .zero .positive ∨ Reads x M := by
  by_cases beyond : 971 < M.exponent
  · exact .inl (read.trans (Magnitude.stored_of_beyond beyond))
  · rcases M.mantissa.eq_zero_or_pos with none | pos
    · exact .inr (.inl (read.trans (Magnitude.stored_of_none beyond none)))
    · exact .inr (.inr ⟨pos, read.trans (Magnitude.stored_of_pos beyond pos)⟩)

private theorem Magnitude.size_stored (M : Magnitude binary64) :
    size M.stored = if 971 < M.exponent then ⊤ else (M.value : WithTop ℚ) := by
  by_cases beyond : 971 < M.exponent
  · rw [stored_of_beyond beyond, if_pos beyond]
    rfl
  · rw [if_neg beyond]
    rcases M.mantissa.eq_zero_or_pos with none | pos
    · rw [stored_of_none beyond none, value, none, Nat.cast_zero, zero_mul]
      rfl
    · rw [stored_of_pos beyond pos]
      rfl

private theorem Magnitude.size_stored_mono (ordered : M.value ≤ N.value) :
    size M.stored ≤ size N.stored := by
  have exponents := exponent_le_of_value_le ordered
  rw [size_stored, size_stored]
  by_cases beyond : 971 < N.exponent
  · rw [if_pos beyond]
    exact le_top
  · rw [if_neg beyond, if_neg (by omega)]
    exact_mod_cast ordered

private theorem size_of_reads (read : Reads x M) : size x.toModel.unpack = (M.value : WithTop ℚ) := by
  obtain ⟨_, read⟩ := read
  rw [read]
  rfl

private theorem unpack_eq_of_value_eq (left : Reads x M) (right : Reads y N) (same : M.value = N.value) :
    x.toModel.unpack = y.toModel.unpack := by
  obtain ⟨_, left⟩ := left
  obtain ⟨_, right⟩ := right
  cases Magnitude.eq_of_value_eq same
  rw [left, right]

@[simp] theorem size_infinity (sign : Sign) : size (.infinity sign) = ⊤ := rfl

private theorem zero_le_size (f : UnpackedFloat) : 0 ≤ size f := by
  unfold size
  split
  · exact_mod_cast (by positivity : (0 : ℚ) ≤ _)
  · exact le_refl _
  · exact le_top
  · exact le_top

structure Rounds (op : Float → Float) (result : ℚ → ℚ) : Prop where
  nearest : ∀ {x M}, Reads x M → ∃ P : Magnitude binary64, P.Nearest (result M.value) ∧
    (op x).toModel.unpack = P.stored
  congr : ∀ {x y : Float}, x.toModel.unpack = y.toModel.unpack →
    (op x).toModel.unpack = (op y).toModel.unpack
  strict : StrictMono result

private theorem size_mono_of_rounds {op : Float → Float} {result : ℚ → ℚ} (rounds : Rounds op result)
    (left : Reads x M) (right : Reads y N) (ordered : M.value ≤ N.value) :
    size (op x).toModel.unpack ≤ size (op y).toModel.unpack := by
  rcases ordered.lt_or_eq with below | same
  · obtain ⟨P, nearest, rounded⟩ := rounds.nearest left
    obtain ⟨Q, nearest', rounded'⟩ := rounds.nearest right
    rw [rounded, rounded']
    exact Magnitude.size_stored_mono (Magnitude.nearest_mono nearest nearest' (rounds.strict below))
  · rw [rounds.congr (unpack_eq_of_value_eq left right same)]

theorem value_pos (read : Reads x M) : 0 < M.value := by
  obtain ⟨pos, _⟩ := read
  unfold Magnitude.value
  positivity

private theorem rounds_mul (factor : Reads z L) : Rounds (· * z) (· * L.value) where
  nearest read := mul_nearest read factor
  congr same := by rw [unpack_mul, unpack_mul, same]
  strict := fun _ _ below => mul_lt_mul_of_pos_right below (value_pos factor)

private theorem rounds_div (divisor : Reads z L) : Rounds (· / z) (· / L.value) where
  nearest read := div_nearest read divisor
  congr same := by rw [unpack_div, unpack_div, same]
  strict := fun _ _ below => div_lt_div_of_pos_right below (value_pos divisor)

theorem div_zero_unpack (none : x.toModel.unpack = .zero .positive) (divisor : Reads z L) :
    (x / z).toModel.unpack = .zero .positive := by
  obtain ⟨_, read⟩ := divisor
  have quotient : UnpackedFloat.div binary64 x.toModel.unpack z.toModel.unpack = .zero .positive := by
    rw [none, read]
    rfl
  rw [unpack_div, quotient]
  rfl

private theorem div_infinity_unpack (much : x.toModel.unpack = .infinity .positive) (divisor : Reads z L) :
    (x / z).toModel.unpack = .infinity .positive := by
  obtain ⟨_, read⟩ := divisor
  have quotient : UnpackedFloat.div binary64 x.toModel.unpack z.toModel.unpack = .infinity .positive := by
    rw [much, read]
    rfl
  rw [unpack_div, quotient]
  rfl

private theorem size_le_cases (left : x.toModel.unpack = M.stored) (right : y.toModel.unpack = N.stored)
    (ordered : size x.toModel.unpack ≤ size y.toModel.unpack) :
    x.toModel.unpack = .zero .positive ∨ y.toModel.unpack = .infinity .positive ∨
      Reads x M ∧ Reads y N ∧ M.value ≤ N.value := by
  rcases read_cases right with much | none | read'
  · exact .inr (.inl much)
  · rcases read_cases left with much | none' | read
    · rw [much, none] at ordered
      exact absurd (top_le_iff.mp ordered) WithTop.coe_ne_top
    · exact .inl none'
    · rw [size_of_reads read, none] at ordered
      exact absurd (WithTop.coe_le_coe.mp ordered) (not_le.mpr (value_pos read))
  · rcases read_cases left with much | none' | read
    · rw [much, size_of_reads read'] at ordered
      exact absurd (top_le_iff.mp ordered) WithTop.coe_ne_top
    · exact .inl none'
    · rw [size_of_reads read, size_of_reads read'] at ordered
      exact .inr (.inr ⟨read, read', WithTop.coe_le_coe.mp ordered⟩)

/-- A dividend that was rounded before may be zero or infinite by now. -/
theorem size_div_mono (left : x.toModel.unpack = M.stored) (right : y.toModel.unpack = N.stored)
    (divisor : Reads z L) (ordered : size x.toModel.unpack ≤ size y.toModel.unpack) :
    size (x / z).toModel.unpack ≤ size (y / z).toModel.unpack := by
  rcases size_le_cases left right ordered with none | much | ⟨read, read', values⟩
  · rw [div_zero_unpack none divisor]
    exact zero_le_size _
  · rw [div_infinity_unpack much divisor, size_infinity]
    exact le_top
  · have quotients := size_mono_of_rounds (rounds_div divisor) read read' values
    exact quotients

private theorem div_stored (left : x.toModel.unpack = M.stored) (divisor : Reads z L) :
    ∃ P : Magnitude binary64, (x / z).toModel.unpack = P.stored := by
  rcases read_cases left with much | none | read
  · exact ⟨M, by rw [div_infinity_unpack much divisor, ← much, left]⟩
  · exact ⟨M, by rw [div_zero_unpack none divisor, ← none, left]⟩
  · exact (div_nearest read divisor).imp fun _ => And.right

theorem nearestMagnitude_eq_floor (m : ℕ) (e : ℤ) :
    nearestMagnitude m e = ⌊(m * 2 ^ e : ℚ) + 1 / 2⌋₊ := by
  cases e with
  | ofNat k =>
    have whole : (m * 2 ^ (Int.ofNat k) : ℚ) = (m * 2 ^ k : ℕ) := by
      push_cast
      rw [Int.ofNat_eq_natCast, zpow_natCast]
    change m <<< k = _
    rw [whole, Nat.shiftLeft_eq, eq_comm, Nat.floor_eq_iff (by positivity)]
    constructor <;> linarith
  | negSucc k =>
    have whole : (m * 2 ^ (Int.negSucc k) + 1 / 2 : ℚ) = (m + 2 ^ k : ℕ) / (2 ^ (k + 1) : ℕ) := by
      rw [zpow_negSucc]
      push_cast
      field_simp
      ring
    change (m + 1 <<< k) >>> (k + 1) = _
    rw [whole, Nat.floor_div_eq_div, Nat.shiftLeft_eq, one_mul, Nat.shiftRight_eq_div_pow]

/-- An infinite value is the end of the range, so it is not below any other one. -/
theorem nearest_clamp_mono {top : ℤ} (least : 0 ≤ top) (left : x.toModel.unpack = M.stored)
    (right : y.toModel.unpack = N.stored)
    (ordered : size x.toModel.unpack ≤ size y.toModel.unpack) :
    (nearest x).clamp 0 top ≤ (nearest y).clamp 0 top := by
  rcases size_le_cases left right ordered with none | much | ⟨⟨_, read⟩, ⟨_, read'⟩, values⟩
  · have zero : nearest x = .integer 0 := by
      unfold nearest roundBy
      rw [none]
    have low : (Whole.integer 0).clamp 0 top = 0 := by
      change max 0 (min top 0) = 0
      omega
    rw [zero, low]
    exact Whole.le_clamp least _
  · have infinite : nearest y = .infinite false := by
      unfold nearest roundBy
      rw [much]
    rw [infinite]
    exact Whole.clamp_le least _
  · have left : nearest x = .integer (nearestMagnitude M.mantissa M.exponent) := by
      unfold nearest roundBy
      rw [read]
    have right : nearest y = .integer (nearestMagnitude N.mantissa N.exponent) := by
      unfold nearest roundBy
      rw [read']
    have counts : nearestMagnitude M.mantissa M.exponent ≤ nearestMagnitude N.mantissa N.exponent := by
      rw [nearestMagnitude_eq_floor, nearestMagnitude_eq_floor]
      unfold Magnitude.value at values
      gcongr
    rw [left, right]
    change max 0 (min top (_ : ℤ)) ≤ max 0 (min top (_ : ℤ))
    omega

theorem sixty_reads : ∃ M, Reads 60 M ∧ M.value = 60 := by
  refine ⟨⟨60 * 2 ^ 47, -47, by decide, by decide, .inr (by decide)⟩, ⟨by decide, rfl⟩, ?_⟩
  norm_num [Magnitude.value]

/-- A higher feed never becomes a lower frequency. -/
theorem frequency_mono (left : Reads x M) (right : Reads y N) (scale : Reads z L)
    (ordered : M.value ≤ N.value) : Units.frequency x z ≤ Units.frequency y z := by
  obtain ⟨_, divisor, _⟩ := sixty_reads
  obtain ⟨_, _, product⟩ := mul_nearest left scale
  obtain ⟨_, _, product'⟩ := mul_nearest right scale
  obtain ⟨_, quotient⟩ := div_stored product divisor
  obtain ⟨_, quotient'⟩ := div_stored product' divisor
  have products := size_mono_of_rounds (rounds_mul scale) left right ordered
  have quotients := size_div_mono product product' divisor products
  have range : (0 : ℤ) ≤ UInt32.size - 1 := by decide
  have counts := nearest_clamp_mono range quotient quotient' quotients
  unfold Units.frequency
  omega

end Size

end Crawler.Number

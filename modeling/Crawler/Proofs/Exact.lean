import Crawler.Proofs.Magnitude

/-! Values that the format holds exactly. Rounding to the nearest leaves them as they are, so that
integers of up to 53 bits keep their order as floats. -/
namespace Crawler.Number

open Float.Model (UnpackedFloat Format totalExponent)
open Float.Model.Format (binary64)
open Float.Model.UnpackedFloat (Sign roundWithAccuracy decreaseExponent)

theorem log2_shiftLeft {r : ℕ} (some : r ≠ 0) (k : ℕ) : (r <<< k).log2 = r.log2 + k := by
  rw [Nat.shiftLeft_eq, Nat.log2_eq_iff (Nat.mul_ne_zero some (by positivity)), Nat.add_right_comm,
    pow_add, pow_add]
  exact ⟨Nat.mul_le_mul_right _ (Nat.log2_self_le some),
    Nat.mul_lt_mul_of_pos_right Nat.lt_log2_self (by positivity)⟩

namespace Magnitude

variable {spec : Format} {M N : Magnitude spec}

theorem value_of_nearest {x : ℚ} (nearest : M.Nearest x) (exact : N.value = x) : M.value = x := by
  have close := nearest N
  rw [exact, sub_self, abs_zero] at close
  exact (sub_eq_zero.mp (abs_eq_zero.mp (le_antisymm close (abs_nonneg _)))).symm

theorem le_of_nearest {x : ℚ} (nearest : M.Nearest x) (bound : x ≤ N.value) : M.value ≤ N.value := by
  rcases bound.lt_or_eq with below | same
  · exact nearest_mono nearest (fun K => by simp) below
  · exact (value_of_nearest nearest same.symm).trans_le bound

/-- A mantissa with bits to spare may be moved up to fill them. -/
theorem exists_value {r : ℕ} {g : ℤ} (fits : r < 2 ^ 53) (least : -1074 ≤ g) :
    ∃ M : Magnitude binary64, M.value = r * 2 ^ g := by
  by_cases none : r = 0
  · refine ⟨⟨0, -1074, by decide, le_refl _, .inl rfl⟩, ?_⟩
    simp [value, none]
  obtain ⟨spare, bits⟩ : ∃ spare, r.log2 + spare = 52 :=
    ⟨52 - r.log2, by have := (Nat.log2_lt none).mpr fits; omega⟩
  obtain ⟨room, above⟩ := Int.eq_ofNat_of_zero_le (sub_nonneg.mpr least)
  set k := min spare room with shift
  have long : (r <<< k).log2 = r.log2 + k := log2_shiftLeft none k
  have some : r <<< k ≠ 0 := by
    rw [Nat.shiftLeft_eq]
    exact Nat.mul_ne_zero none (by positivity)
  refine ⟨⟨r <<< k, g - k, ?_, ?_, ?_⟩, ?_⟩
  · change r <<< k < 2 ^ 53
    exact (Nat.log2_lt some).mp (by omega)
  · change -1074 ≤ g - k
    omega
  · change g - k = -1074 ∨ 2 ^ 52 ≤ r <<< k
    rcases le_total spare room with whole | capped
    · exact .inr ((Nat.le_log2 some).mp (by omega))
    · exact .inl (by omega)
  · change ((r <<< k : ℕ) : ℚ) * 2 ^ (g - k) = r * 2 ^ g
    rw [Nat.shiftLeft_eq, zpow_sub₀ two_ne_zero, zpow_natCast]
    push_cast
    field_simp

private theorem some_of_value_pos (pos : 0 < M.value) : 0 < M.mantissa := by
  refine Nat.pos_of_ne_zero fun none => ?_
  rw [value, none] at pos
  simp at pos

theorem two_pow_le_value (some : 0 < M.mantissa) : (2 : ℚ) ^ M.exponent ≤ M.value := by
  have one : (1 : ℚ) ≤ M.mantissa := by exact_mod_cast some
  exact le_mul_of_one_le_left (by positivity) one

end Magnitude

/-- Any value but zero is rounded to the nearest number, however coarse its exponent is. -/
theorem round_nearest (spec : Format) {m : ℕ} (some : m ≠ 0) (e : ℤ) (sign : Sign) :
    ∃ M : Magnitude spec, M.Nearest (m * 2 ^ e) ∧
      UnpackedFloat.round spec sign m e = M.unpacked sign := by
  set target := spec.targetExponent (totalExponent m e) with grid
  set k := (e - target).toNat with shift
  have described : Describes (.ofMantissaAndAccuracy (m <<< k) .exact) (m * 2 ^ e / 2 ^ (e - k)) := by
    have value : (m * 2 ^ e / 2 ^ (e - k) : ℚ) = (m <<< k : ℕ) := by
      rw [Nat.shiftLeft_eq, zpow_sub₀ two_ne_zero, zpow_natCast]
      push_cast
      field_simp
    rw [value]
    exact describes_exact _
  have same : totalExponent (m <<< k) (e - k) = totalExponent m e := by
    unfold totalExponent
    rw [log2_shiftLeft some]
    push_cast
    ring
  have fine : e - k ≤ spec.targetExponent (totalExponent (m <<< k) (e - k)) := by
    rw [same, ← grid]
    omega
  exact roundWithAccuracy_nearest described fine sign

section Signed

variable {x y : Float} {s t : Sign} {M N : Magnitude binary64}

/-- The largest exponent of a float. -/
theorem exponent_le_of_holds (holds : Holds x s M) : M.exponent ≤ 971 := by
  obtain ⟨_, read⟩ := holds
  obtain ⟨_, _, _, range⟩ := exists_magnitude (by decide) read
  change M.exponent + (1023 + 52) + 2 ≤ 2048 at range
  omega

theorem Magnitude.exponent_le_of_lt (small : M.value < 2 ^ (972 : ℤ)) : M.exponent ≤ 971 := by
  rcases M.mantissa.eq_zero_or_pos with none | some
  · rcases M.full with least | full
    · exact least ▸ by decide
    · exact absurd (full.trans none.le) (by decide)
  · by_contra beyond
    have far : (2 : ℚ) ^ (972 : ℤ) ≤ 2 ^ M.exponent := zpow_le_zpow_right₀ one_le_two (by omega)
    exact absurd (far.trans (Magnitude.two_pow_le_value some)) (not_le.mpr small)

/-- Below the end of the range a number other than zero is a float. -/
theorem holds_of_kept (read : x.toModel.unpack = M.kept s) (pos : 0 < M.value)
    (small : M.value < 2 ^ (972 : ℤ)) : Holds x s M := by
  have some := Magnitude.some_of_value_pos pos
  refine ⟨some, read.trans ?_⟩
  rw [Magnitude.kept, if_neg (not_lt.mpr (Magnitude.exponent_le_of_lt small))]
  exact dif_neg some.ne'

/-- Nothing of a number in range is lost when it is packed, with either sign. -/
theorem holds_pack (holds : Holds x s M) (t : Sign) (some : 0 < M.mantissa) :
    UnpackedFloat.unpack binary64
        (UnpackedFloat.pack binary64 (.finite t M.mantissa M.exponent some)) =
      .finite t M.mantissa M.exponent some := by
  have within := exponent_le_of_holds holds
  rw [← Magnitude.unpacked_of_pos some, Magnitude.unpack_pack_kept, Magnitude.kept, if_neg (by omega)]

theorem holds_neg (holds : Holds x s M) : Holds (-x) (-s) M := by
  have packed := holds_pack holds (-s)
  obtain ⟨some, read⟩ := holds
  have negated : (-x).toModel.unpack = UnpackedFloat.unpack binary64
      (UnpackedFloat.pack binary64 (UnpackedFloat.neg x.toModel.unpack)) := rfl
  refine ⟨some, negated.trans ?_⟩
  rw [read]
  exact packed some

/-- Well below the end of the range the nearest integer is that of the magnitude. -/
theorem nearest_of_kept (read : x.toModel.unpack = M.kept s) (small : M.value < 2 ^ (972 : ℤ)) :
    nearest x = .integer (s.apply ⌊M.value + 1 / 2⌋₊) := by
  unfold nearest roundBy
  rcases M.mantissa.eq_zero_or_pos with none | some
  · have low := not_lt.mpr (Magnitude.exponent_le_of_lt small)
    have zero : x.toModel.unpack = .zero s := by
      rw [read, Magnitude.kept, if_neg low]
      exact dif_pos none
    have half : ⌊M.value + 1 / 2⌋₊ = 0 := by
      rw [Magnitude.value, none, Nat.floor_eq_zero]
      norm_num
    rw [zero, half]
    cases s <;> rfl
  · have pos : 0 < M.value := lt_of_lt_of_le (by positivity) (Magnitude.two_pow_le_value some)
    obtain ⟨_, read⟩ := holds_of_kept read pos small
    rw [read, Magnitude.value, ← nearestMagnitude_eq_floor]
    cases s <;> rfl

end Signed

section Integers

theorem ofInt_holds {n : ℤ} (some : n ≠ 0) (fits : n.natAbs < 2 ^ 53) :
    ∃ M, Holds (ofInt n) (if n < 0 then .negative else .positive) M ∧ M.value = n.natAbs := by
  have pos : n.natAbs ≠ 0 := by omega
  obtain ⟨M, nearest, rounded⟩ :=
    round_nearest binary64 pos 0 (if n < 0 then .negative else .positive)
  obtain ⟨N, exact⟩ := Magnitude.exists_value (g := 0) fits (by decide)
  have value : M.value = n.natAbs := by
    rw [zpow_zero, mul_one] at nearest exact
    exact Magnitude.value_of_nearest nearest exact
  have normal : UnpackedFloat.ofInt binary64 n = M.unpacked (if n < 0 then .negative else .positive) := by
    rw [← rounded]
    unfold UnpackedFloat.ofInt UnpackedFloat.normalize
    rcases lt_trichotomy n 0 with below | none | above
    · rw [compare_lt_iff_lt.mpr below, if_pos below]
      dsimp only
      congr 1
      omega
    · exact absurd none some
    · rw [compare_gt_iff_gt.mpr above, if_neg (by omega)]
      dsimp only
      congr 1
      omega
  have read : (ofInt n).toModel.unpack = M.kept (if n < 0 then .negative else .positive) := by
    rw [← M.unpack_pack_kept, ← normal]
    rfl
  refine ⟨M, holds_of_kept read ?_ ?_, value⟩
  · rw [value]
    exact_mod_cast pos.bot_lt
  · have near : (n.natAbs : ℚ) < 2 ^ (53 : ℤ) := by exact_mod_cast fits
    rw [value]
    exact near.trans (zpow_lt_zpow_right₀ one_lt_two (by decide))

theorem ofInt_reads {n : ℕ} (pos : 0 < n) (fits : n < 2 ^ 53) :
    ∃ M, Reads (ofInt n) M ∧ M.value = n := by
  have some : (n : ℤ) ≠ 0 := by omega
  have above : ¬ (n : ℤ) < 0 := by omega
  obtain ⟨M, holds, value⟩ := ofInt_holds some fits
  rw [if_neg above] at holds
  exact ⟨M, holds, value⟩

theorem ofInt_le_iff {m n : ℕ} (left : m < 2 ^ 53) (right : n < 2 ^ 53) :
    ofInt m ≤ ofInt n ↔ m ≤ n := by
  have le_iff : ofInt m ≤ ofInt n ↔
      (ofInt m).toModel.unpack.le (ofInt n).toModel.unpack = true := by
    change decide ((ofInt m).toModel ≤ (ofInt n).toModel) = true ↔ _
    rw [decide_eq_true_iff]
    rfl
  have zero : (ofInt (0 : ℕ)).toModel.unpack = .zero .positive := rfl
  rcases m.eq_zero_or_pos with rfl | pos
  · rcases n.eq_zero_or_pos with rfl | pos'
    · exact iff_of_true (le_iff.mpr rfl) le_rfl
    · obtain ⟨_, ⟨_, read⟩, _⟩ := ofInt_reads pos' right
      rw [le_iff, zero, read]
      exact iff_of_true rfl n.zero_le
  · obtain ⟨_, reads, value⟩ := ofInt_reads pos left
    rcases n.eq_zero_or_pos with rfl | pos'
    · obtain ⟨_, read⟩ := reads
      rw [le_iff, zero, read]
      exact iff_of_false Bool.false_ne_true pos.not_ge
    · obtain ⟨_, reads', value'⟩ := ofInt_reads pos' right
      rw [le_iff_of_reads reads reads', value, value', Nat.cast_le]

end Integers

end Crawler.Number

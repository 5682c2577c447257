import Crawler.Proofs.Exact

/-! Floats that come from single precision. They are held exactly, and so far from the end of the range
that the product of two of them is finite. -/
namespace Crawler.Number

open Float.Model (UnpackedFloat)
open Float.Model.Format (binary32 binary64)
open Float.Model.UnpackedFloat (Sign)

section Widen

variable {y : Float32} {s : Sign} {m : ℕ} {e : ℤ} {pos : 0 < m}

private theorem single_range (read : y.toModel.unpack = .finite s m e pos) :
    m < 2 ^ 24 ∧ -149 ≤ e ∧ e ≤ 104 := by
  obtain ⟨M, rfl, rfl, range⟩ := exists_magnitude (by decide) read
  change M.exponent + (127 + 23) + 2 ≤ 256 at range
  have least : -149 ≤ M.exponent := M.least
  exact ⟨M.fits, least, by omega⟩

private theorem single_lt (read : y.toModel.unpack = .finite s m e pos) :
    (m * 2 ^ e : ℚ) < 2 ^ (128 : ℤ) := by
  obtain ⟨fits, _, bound⟩ := single_range read
  have fits : (m : ℚ) < 2 ^ (24 : ℤ) := by exact_mod_cast fits
  calc
    (m * 2 ^ e : ℚ) < 2 ^ (24 : ℤ) * 2 ^ e := by gcongr
    _ ≤ 2 ^ (24 : ℤ) * 2 ^ (104 : ℤ) := by
      gcongr
      exact one_le_two
    _ = 2 ^ (128 : ℤ) := by rw [← zpow_add₀ two_ne_zero]; rfl

/-- Widening loses nothing. -/
theorem widen_holds (read : y.toModel.unpack = .finite s m e pos) :
    ∃ M : Magnitude binary64, Holds (widen y) s M ∧ M.value = m * 2 ^ e := by
  obtain ⟨fits, least, _⟩ := single_range read
  obtain ⟨N, exact⟩ := Magnitude.exists_value (fits.trans (by decide)) (le_trans (by decide) least)
  obtain ⟨M, nearest, rounded⟩ := round_nearest binary64 pos.ne' e s
  have value := Magnitude.value_of_nearest nearest exact
  have widened : (widen y).toModel.unpack = M.kept s := by
    rw [← M.unpack_pack_kept, ← rounded]
    change UnpackedFloat.unpack binary64 (UnpackedFloat.pack binary64 _) = _
    rw [read]
  refine ⟨M, holds_of_kept widened ?_ ?_, value⟩
  · rw [value]
    positivity
  · rw [value]
    exact (single_lt read).trans (zpow_lt_zpow_right₀ one_lt_two (by decide))

private theorem single_pack_unpack (y : Float32) : Float32.ofModel (.pack y.toModel.unpack) = y := by
  obtain ⟨⟨⟨bits⟩, valid⟩⟩ := y
  have same := pack_unpack_bits (by decide) valid
  exact congrArg Float32.ofModel ((Float32.Model.mk.injEq ..).mpr (congrArg UInt32.ofBitVec same))

/-- What is no number, or zero or infinite, stays so. -/
theorem unpack_widen_of_special {f : UnpackedFloat} (read : y.toModel.unpack = f)
    (special : ∀ s m e pos, f ≠ .finite s m e pos) : (widen y).toModel.unpack = f := by
  unfold widen
  rw [read]
  cases f with
  | finite s m e pos => exact absurd rfl (special s m e pos)
  | notANumber => rfl
  | infinity s => cases s <;> rfl
  | zero s => cases s <;> rfl

/-- What was widened is narrowed to what it was. -/
theorem narrow_widen (y : Float32) : narrow (widen y) = y := by
  refine Eq.trans ?_ (single_pack_unpack y)
  unfold narrow
  cases read : y.toModel.unpack with
  | finite s m e pos =>
    obtain ⟨M, ⟨some, held⟩, value⟩ := widen_holds read
    obtain ⟨K, rfl, rfl, _⟩ := exists_magnitude (by decide) read
    obtain ⟨N, nearest, rounded⟩ := round_nearest binary32 some.ne' M.exponent s
    have same : N.value = K.value := (Magnitude.value_of_nearest nearest value.symm).trans value
    obtain rfl := Magnitude.eq_of_value_eq same
    rw [held]
    dsimp only
    rw [rounded, Magnitude.unpacked_of_pos pos]
  | notANumber => rw [unpack_widen_of_special read fun _ _ _ _ => nofun]
  | infinity s => rw [unpack_widen_of_special read fun _ _ _ _ => nofun]
  | zero s => rw [unpack_widen_of_special read fun _ _ _ _ => nofun]

end Widen

variable {x y : Float} {M N : Magnitude binary64}

/-- What is above zero when it was widened is a number above zero in single precision. -/
theorem single_of_positive {y : Float32} (positive : isPositive (widen y) = true) :
    ∃ m e pos, y.toModel.unpack = .finite .positive m e pos := by
  obtain ⟨M, _, read⟩ := exists_reads positive
  cases same : y.toModel.unpack with
  | finite s m e pos =>
    obtain ⟨N, ⟨some, holds⟩, value⟩ := widen_holds same
    rw [read] at holds
    obtain ⟨rfl, _, _⟩ := UnpackedFloat.finite.inj holds
    exact ⟨m, e, pos, rfl⟩
  | notANumber => cases (unpack_widen_of_special same fun _ _ _ _ => nofun).symm.trans read
  | infinity s => cases (unpack_widen_of_special same fun _ _ _ _ => nofun).symm.trans read
  | zero s => cases (unpack_widen_of_special same fun _ _ _ _ => nofun).symm.trans read

/-- A number that comes from single precision is far from both ends of the range. -/
theorem exists_single {y : Float32} (positive : isPositive (widen y) = true) :
    ∃ M, Reads (widen y) M ∧ 2 ^ (-149 : ℤ) ≤ M.value ∧ M.value < 2 ^ (128 : ℤ) := by
  obtain ⟨m, e, pos, read⟩ := single_of_positive positive
  obtain ⟨M, holds, value⟩ := widen_holds read
  refine ⟨M, holds, ?_, value ▸ single_lt read⟩
  have one : (1 : ℚ) ≤ m := by exact_mod_cast pos
  rw [value]
  calc
    (2 ^ (-149 : ℤ) : ℚ) ≤ 2 ^ e := zpow_le_zpow_right₀ one_le_two (single_range read).2.1
    _ ≤ m * 2 ^ e := le_mul_of_one_le_left (by positivity) one

section Speed

open Hardware (Engine)

private theorem isSpeed_of_unpack {f : UnpackedFloat} (read : x.toModel.unpack = f)
    (finite : f.isFinite = true)
    (above : f.lt (.zero .positive) = false) : Engine.isSpeed x = true := by
  have finite : x.isFinite = true := by
    change x.toModel.unpack.isFinite = true
    rwa [read]
  have above : ¬ x < 0 := by
    rw [lt_iff, unpack_zero, read, above]
    exact Bool.false_ne_true
  simp [Engine.isSpeed, finite, above]

theorem isSpeed_of_reads (read : Reads x M) : Engine.isSpeed x = true := by
  obtain ⟨_, read⟩ := read
  exact isSpeed_of_unpack read rfl rfl

theorem not_le_zero_of_reads (read : Reads x M) : ¬ x ≤ 0 := by
  obtain ⟨_, read⟩ := read
  change ¬ decide (x.toModel ≤ (0 : Float).toModel) = true
  rw [decide_eq_true_iff]
  change ¬ x.toModel.unpack.le (.zero .positive) = true
  rw [read]
  exact nofun

end Speed

end Crawler.Number

import Crawler.Proofs.Precision

/-! The conversions between units are undone without loss. Each operation on floats stays within half
a unit in the last place of its exact result, and the few that lie between a count and its recovery stay
far within half a step together, whatever the steps per millimetre are. -/
namespace Crawler.Number

open Float.Model (UnpackedFloat)
open Float.Model.Format (binary64)
open Float.Model.UnpackedFloat (Sign)

variable {a b x : Float} {s : Sign} {B M : Magnitude binary64}

private theorem mul_zero_unpack (none : a.toModel.unpack = .zero .positive) (factor : Reads b B) :
    (a * b).toModel.unpack = .zero .positive := by
  obtain ⟨_, read⟩ := factor
  have product : UnpackedFloat.mul binary64 a.toModel.unpack b.toModel.unpack = .zero .positive := by
    rw [none, read]
    rfl
  rw [unpack_mul, product]
  rfl

private theorem nearest_of_zero (none : x.toModel.unpack = .zero .positive) : nearest x = .integer 0 := by
  unfold nearest roundBy
  rw [none]

private theorem nearest_of_holds (holds : Holds x s M) :
    nearest x = .integer (s.apply ⌊M.value + 1 / 2⌋₊) := by
  obtain ⟨_, read⟩ := holds
  unfold nearest roundBy
  rw [read, Magnitude.value, ← nearestMagnitude_eq_floor]
  cases s <;> rfl

end Crawler.Number

namespace Crawler.Units

open Float.Model.Format (binary64)
open Float.Model.UnpackedFloat (Sign)
open Number (Magnitude Reads Holds Near Moderate Spans)

section Scale

variable {scale : Float} {S : Magnitude binary64}

structure Scale (scale : Float) (S : Magnitude binary64) : Prop where
  reads : Reads scale S
  spans : Spans (-149) 128 S.value

private theorem Scale.pos (held : Scale scale S) : 0 < S.value := by
  exact held.spans.pos

private theorem moderate_count {r : ℚ} (count : Spans 0 40 r) : Moderate r := by
  exact count.widen (by decide) (by decide)

private theorem Scale.moderate (held : Scale scale S) {r : ℚ} (count : Spans 0 40 r) :
    Moderate (r / S.value) := by
  have quotient := count.div held.spans
  exact quotient.widen (by decide) (by decide)

/-- The steps of the distance that some steps make are these steps. -/
theorem steps?_distance (held : Scale scale S) {n : ℤ} (fits : n.natAbs ≤ stepLimit) :
    steps? (distance n scale) scale = some n := by
  have limit : stepLimit = 2147483647 := rfl
  unfold steps? distance
  by_cases none : n = 0
  · subst none
    have quotient := Number.div_zero_unpack (x := Number.ofInt 0) rfl held.reads
    rw [Number.nearest_of_zero (Number.mul_zero_unpack quotient held.reads)]
    rfl
  obtain ⟨N, count, value⟩ := Number.ofInt_holds none (by omega)
  have number : Spans 0 40 n.natAbs := Number.spans_count (b := 40) (by omega) (by omega)
  obtain ⟨Q, quotient, near⟩ := Number.div_near count held.reads (Number.near_refl _) (by decide)
    (value ▸ held.moderate number)
  have back := near.mul held.pos
  rw [div_mul_cancel₀ _ held.pos.ne', value] at back
  obtain ⟨P, product, near⟩ := Number.mul_near quotient held.reads back (by decide)
    (moderate_count number)
  rw [Number.nearest_of_holds product, near.floor (by decide) (by omega)]
  have signed : ((if n < 0 then Sign.negative else .positive) * .positive * .positive).apply n.natAbs = n := by
    split
    · change -(n.natAbs : ℤ) = n
      omega
    · change (n.natAbs : ℤ) = n
      omega
  rw [signed]
  exact if_pos fits

/-- The frequency of the feed that a frequency makes is this frequency. -/
theorem frequency_feed (held : Scale scale S) {hz : ℕ} (fits : hz < UInt32.size) :
    frequency (feed hz scale) scale = hz := by
  have size : UInt32.size = 4294967296 := rfl
  unfold frequency feed
  obtain ⟨M, sixty, minute⟩ := Number.sixty_reads
  rcases hz.eq_zero_or_pos with rfl | pos
  · have product := Number.mul_zero_unpack (a := Number.ofInt (0 : ℕ)) rfl sixty
    have quotient := Number.div_zero_unpack product held.reads
    have again := Number.div_zero_unpack (Number.mul_zero_unpack quotient held.reads) sixty
    rw [Number.nearest_of_zero again]
    rfl
  obtain ⟨N, count, value⟩ := Number.ofInt_reads pos (by omega)
  have second : Spans 0 40 hz := Number.spans_count (b := 40) pos (by omega)
  have whole : Spans 0 40 ((hz * 60 : ℕ) : ℚ) := Number.spans_count (b := 40) (by omega) (by omega)
  rw [Nat.cast_mul, Nat.cast_ofNat] at whole
  have exact : N.value * M.value = hz * 60 := by rw [value, minute]
  obtain ⟨F, product, near⟩ := Number.mul_near count sixty (Number.near_refl _) (by decide)
    (exact ▸ moderate_count whole)
  rw [exact] at near
  obtain ⟨G, quotient, near⟩ := Number.div_near product held.reads (near.div held.pos) (by decide)
    (held.moderate whole)
  have back := near.mul held.pos
  rw [div_mul_cancel₀ _ held.pos.ne'] at back
  obtain ⟨H, product, near⟩ := Number.mul_near quotient held.reads back (by decide)
    (moderate_count whole)
  have back : Near 3 hz (H.value / M.value) := by
    have back := near.div (c := 60) (by norm_num)
    rwa [mul_div_cancel_right₀ _ (by norm_num), ← minute] at back
  obtain ⟨I, quotient, near⟩ := Number.div_near product sixty back (by decide)
    (moderate_count second)
  rw [Number.nearest_of_holds quotient, near.floor (by decide) (by omega)]
  change (max 0 (min ((UInt32.size : ℤ) - 1) (hz : ℤ))).toNat = hz
  omega

end Scale

/-- The conversions are undone without loss: whatever the steps per millimetre are, the distance of some
steps has these steps, and the feed of a frequency has this frequency. -/
theorem conversions_invert {y : Float32} (positive : Number.isPositive (Number.widen y) = true) :
    (∀ n : ℤ, n.natAbs ≤ stepLimit →
      steps? (distance n (Number.widen y)) (Number.widen y) = some n) ∧
    ∀ hz < UInt32.size, frequency (feed hz (Number.widen y)) (Number.widen y) = hz := by
  obtain ⟨S, reads, least, most⟩ := Number.exists_single positive
  have held : Scale (Number.widen y) S := ⟨reads, least, most.le⟩
  exact ⟨fun n fits => steps?_distance held fits, fun hz fits => frequency_feed held fits⟩

/-- A third of a step per millimetre is held by no float, and nothing is lost nonetheless. -/
theorem conversions_invert_third :
    let scale := Number.widen (1 / 3)
    Number.isPositive scale = true ∧ steps? (distance (-2147483647) scale) scale = some (-2147483647) ∧
      frequency (feed 4294967295 scale) scale = 4294967295 := by
  intro scale
  have positive : Number.isPositive scale = true := by decide +kernel
  obtain ⟨steps, hz⟩ := conversions_invert positive
  exact ⟨positive, steps _ (by decide), hz _ (by decide)⟩

end Crawler.Units

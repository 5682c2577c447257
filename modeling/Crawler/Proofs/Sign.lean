import Crawler.Hardware.Engine

/-! The sign of a float. Products, quotients and sums of numbers that are not below zero are not below
zero either, whatever is lost in rounding. -/
namespace Crawler.Number

open Float.Model (UnpackedFloat Format)
open Float.Model.Format (binary64)
open Float.Model.UnpackedFloat (Sign packComponents unpackSign unpackExponent unpackMantissa)

def NotBelow : UnpackedFloat → Prop
  | .infinity .negative => False
  | .finite .negative _ _ _ => False
  | _ => True

instance : DecidablePred NotBelow
  | .infinity .negative | .finite .negative _ _ _ => .isFalse nofun
  | .infinity .positive | .finite .positive _ _ _ | .zero _ | .notANumber => .isTrue trivial

def Nonnegative (x : Float) : Prop := NotBelow x.toModel.unpack

instance : DecidablePred Nonnegative := fun x => inferInstanceAs (Decidable (NotBelow x.toModel.unpack))

theorem unpackSign_packComponents {spec : Format} {sign : Sign} {exponent mantissa} :
    unpackSign (packComponents spec sign exponent mantissa) = sign.toBitVec := by
  ext i hi
  have first : i = 0 := by omega
  subst first
  delta unpackSign packComponents
  simp [BitVec.getLsbD_eq_getElem, BitVec.getLsbD_append, BitVec.getElem_append]

private theorem notBelow_dite {c : Prop} [Decidable c] {f : c → UnpackedFloat} {g : ¬ c → UnpackedFloat}
    (inside : ∀ h, NotBelow (f h)) (outside : ∀ h, NotBelow (g h)) :
    NotBelow (if h : c then f h else g h) := by
  by_cases h : c
  · rw [dif_pos h]
    exact inside h
  · rw [dif_neg h]
    exact outside h

private theorem notBelow_unpack_positive (spec : Format) {exponent mantissa} :
    NotBelow (UnpackedFloat.unpack spec (packComponents spec .positive exponent mantissa)) := by
  unfold UnpackedFloat.unpack
  rw [unpackSign_packComponents]
  have positive : Sign.ofBitVec Sign.positive.toBitVec = .positive := rfl
  dsimp only
  rw [positive]
  refine iteInduction (fun _ => ?_) fun _ => iteInduction (fun _ => ?_) fun _ => ?_
  · exact iteInduction (fun _ => trivial) fun _ => trivial
  · exact notBelow_dite (fun _ => trivial) fun _ => trivial
  · trivial

/-- Packing keeps a number from falling below zero. -/
theorem notBelow_pack {f : UnpackedFloat} (kept : NotBelow f) :
    NotBelow (UnpackedFloat.unpack binary64 (UnpackedFloat.pack binary64 f)) := by
  match f, kept with
  | .notANumber, _ => exact notBelow_unpack_positive binary64
  | .infinity .positive, _ => exact notBelow_unpack_positive binary64
  | .zero .positive, _ => exact notBelow_unpack_positive binary64
  | .zero .negative, _ => decide +kernel
  | .finite .positive m e _, _ =>
    unfold UnpackedFloat.pack
    dsimp only
    split
    · exact notBelow_unpack_positive binary64
    · split <;> exact notBelow_unpack_positive binary64

private theorem notBelow_round (mantissa : Nat) (exponent : Int) (accuracy : UnpackedFloat.Accuracy) :
    NotBelow (UnpackedFloat.roundWithAccuracy binary64 .positive mantissa exponent accuracy) := by
  unfold UnpackedFloat.roundWithAccuracy
  exact notBelow_dite (fun _ => trivial) fun _ => trivial

private theorem notBelow_normalize {mantissa : Int} (least : 0 ≤ mantissa) (exponent : Int) :
    NotBelow (UnpackedFloat.normalize binary64 mantissa exponent .positive) := by
  unfold UnpackedFloat.normalize
  split
  · next below =>
    have below : mantissa < 0 := Int.compare_eq_lt.mp below
    omega
  · trivial
  · exact notBelow_round _ _ _

private theorem notBelow_cases {f : UnpackedFloat} (kept : NotBelow f) :
    f = .notANumber ∨ f = .infinity .positive ∨ (∃ sign, f = .zero sign) ∨
      ∃ m e pos, f = .finite .positive m e pos := by
  match f, kept with
  | .notANumber, _ => exact .inl rfl
  | .infinity .positive, _ => exact .inr (.inl rfl)
  | .zero sign, _ => exact .inr (.inr (.inl ⟨sign, rfl⟩))
  | .finite .positive m e pos, _ => exact .inr (.inr (.inr ⟨m, e, pos, rfl⟩))

variable {x y : Float}

theorem nonnegative_mul (left : Nonnegative x) (right : Nonnegative y) : Nonnegative (x * y) := by
  refine notBelow_pack (f := UnpackedFloat.mul binary64 x.toModel.unpack y.toModel.unpack) ?_
  rcases notBelow_cases left with f | f | ⟨_, f⟩ | ⟨_, _, _, f⟩ <;>
    rcases notBelow_cases right with g | g | ⟨_, g⟩ | ⟨_, _, _, g⟩ <;> rw [f, g] <;>
      first | exact True.intro | exact notBelow_round _ _ _

theorem nonnegative_add (left : Nonnegative x) (right : Nonnegative y) : Nonnegative (x + y) := by
  refine notBelow_pack (f := UnpackedFloat.add binary64 x.toModel.unpack y.toModel.unpack) ?_
  rcases notBelow_cases left with f | f | ⟨s, f⟩ | ⟨_, _, _, f⟩ <;>
    rcases notBelow_cases right with g | g | ⟨t, g⟩ | ⟨_, _, _, g⟩ <;> rw [f, g] <;>
      first | exact True.intro | skip
  · cases s <;> cases t <;> exact True.intro
  · exact notBelow_normalize (Int.add_nonneg (Int.natCast_nonneg _) (Int.natCast_nonneg _)) _

theorem nonnegative_div (left : Nonnegative x) {m : Nat} {e : Int} {pos : 0 < m}
    (right : y.toModel.unpack = .finite .positive m e pos) : Nonnegative (x / y) := by
  refine notBelow_pack (f := UnpackedFloat.div binary64 x.toModel.unpack y.toModel.unpack) ?_
  rcases notBelow_cases left with f | f | ⟨_, f⟩ | ⟨_, _, _, f⟩ <;> rw [f, right] <;>
    first | exact True.intro | exact notBelow_round _ _ _

theorem roundBy_cases (kept : Nonnegative x) (positive negative : Nat → Int → Nat) :
    roundBy positive negative x = .undefined ∨ roundBy positive negative x = .infinite false ∨
      ∃ n : Nat, roundBy positive negative x = .integer n := by
  unfold roundBy
  rcases notBelow_cases kept with f | f | ⟨_, f⟩ | ⟨m, e, _, f⟩ <;> rw [f]
  · exact .inl rfl
  · exact .inr (.inl rfl)
  · exact .inr (.inr ⟨0, rfl⟩)
  · exact .inr (.inr ⟨positive m e, rfl⟩)

/-- What is not below zero has a rounded value that is not below zero. -/
theorem toSteps_roundBy_nonneg (kept : Nonnegative x) (positive negative : Nat → Int → Nat) :
    0 ≤ Units.toSteps (roundBy positive negative x) := by
  have low : Int64.minValue.toInt ≤ 0 := by decide
  have high : 0 ≤ Int64.maxValue.toInt := by decide
  rcases roundBy_cases kept positive negative with same | same | ⟨n, same⟩ <;> rw [same] <;>
    simp only [Units.toSteps, Whole.clamp] <;> omega

theorem unpack_zero : (0 : Float).toModel.unpack = .zero .positive := rfl

theorem lt_iff : x < y ↔ x.toModel.unpack.lt y.toModel.unpack = true := by
  change decide (x.toModel < y.toModel) = true ↔ _
  rw [decide_eq_true_iff]
  rfl

theorem pos_iff : 0 < x ↔ x.toModel.unpack = .infinity .positive ∨
    ∃ m e pos, x.toModel.unpack = .finite .positive m e pos := by
  rw [lt_iff, unpack_zero]
  constructor
  · intro above
    match x.toModel.unpack, above with
    | .infinity .positive, _ => exact .inl rfl
    | .finite .positive m e pos, _ => exact .inr ⟨m, e, pos, rfl⟩
  · rintro (f | ⟨m, e, pos, f⟩) <;> rw [f] <;> rfl

private theorem zero_of_not_pos (kept : Nonnegative x) (bound : ¬ 0 < x) :
    x.toModel.unpack = .notANumber ∨ ∃ sign, x.toModel.unpack = .zero sign := by
  rw [pos_iff] at bound
  rcases notBelow_cases kept with f | f | ⟨sign, f⟩ | ⟨m, e, pos, f⟩
  · exact .inl f
  · exact absurd (.inl f) bound
  · exact .inr ⟨sign, f⟩
  · exact absurd (.inr ⟨m, e, pos, f⟩) bound

private theorem nonnegative_of_pos (positive : 0 < x) : Nonnegative x := by
  unfold Nonnegative
  rcases pos_iff.mp positive with f | ⟨m, e, pos, f⟩ <;> rw [f] <;> exact True.intro

theorem nonnegative_of_isPositive (positive : isPositive x = true) : Nonnegative x := by
  obtain ⟨_, above⟩ := Bool.and_eq_true_iff.mp positive
  exact nonnegative_of_pos (of_decide_eq_true above)

private theorem nonnegative_of_not_lt (finite : x.isFinite = true) (bound : ¬ x < 0) : Nonnegative x := by
  have finite : x.toModel.unpack.isFinite = true := finite
  rw [lt_iff, unpack_zero] at bound
  unfold Nonnegative
  match f : x.toModel.unpack with
  | .notANumber | .infinity .positive | .zero _ | .finite .positive _ _ _ => exact True.intro
  | .infinity .negative =>
    rw [f] at finite
    cases finite
  | .finite .negative _ _ _ =>
    rw [f] at bound
    exact absurd rfl bound

theorem finite_pos_of_not_le (finite : x.isFinite = true) (above : ¬ x ≤ 0) :
    ∃ m e pos, x.toModel.unpack = .finite .positive m e pos := by
  have finite : x.toModel.unpack.isFinite = true := finite
  have above : ¬ x.toModel.unpack.le (.zero .positive) = true := by
    intro below
    apply above
    change decide (x.toModel ≤ (0 : Float).toModel) = true
    exact decide_eq_true below
  match f : x.toModel.unpack with
  | .finite .positive m e pos => exact ⟨m, e, pos, rfl⟩
  | .notANumber | .infinity _ =>
    rw [f] at finite
    cases finite
  | .zero _ | .finite .negative _ _ _ =>
    rw [f] at above
    exact absurd rfl above

theorem nonnegative_zero_sub (kept : Nonnegative x) (bound : ¬ 0 < x) : Nonnegative (0 - x) := by
  refine notBelow_pack (f := UnpackedFloat.sub binary64 (0 : Float).toModel.unpack x.toModel.unpack) ?_
  rw [unpack_zero]
  rcases zero_of_not_pos kept bound with f | ⟨sign, f⟩ <;> rw [f]
  · exact True.intro
  · cases sign <;> exact True.intro

theorem nonnegative_of_isSpeed (speed : Hardware.Engine.isSpeed x = true) : Nonnegative x := by
  unfold Hardware.Engine.isSpeed at speed
  obtain ⟨finite, bound⟩ := Bool.and_eq_true_iff.mp speed
  exact nonnegative_of_not_lt finite (by simpa using bound)

end Crawler.Number

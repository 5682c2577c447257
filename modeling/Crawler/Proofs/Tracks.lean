import Crawler.Proofs.Exact
import Crawler.Proofs.Plan
import Crawler.Proofs.Run

/-! The steps of the tracks. A share of a distance is computed with floats, but the counts of steps and
their halves are all held exactly, so that what a track makes is a matter of integers. -/
namespace Crawler

open Crawler.Action
open Float.Model.Format (binary64)
open Float.Model.UnpackedFloat (Sign)
open Number (Magnitude Holds)

namespace TrackShare

def part (share : TrackShare) (steps : Nat) : Nat := if share.half then (steps + 1) / 2 else steps

def directed (share : TrackShare) (steps : Int) : Int := if share.backward then -steps else steps

def opposite (share : TrackShare) : TrackShare := ⟨!share.backward, share.half⟩

@[simp] theorem natAbs_directed (share : TrackShare) (steps : Int) :
    (share.directed steps).natAbs = steps.natAbs := by
  unfold directed
  split
  · exact Int.natAbs_neg steps
  · rfl

private theorem directed_opposite (share : TrackShare) (steps : Int) :
    share.opposite.directed steps = -share.directed steps := by
  unfold directed opposite
  cases share.backward
  · rfl
  · exact (neg_neg steps).symm

def fraction (share : TrackShare) : ℚ := if share.half then 1 / 2 else 1

private theorem fraction_le_one (share : TrackShare) : share.fraction ≤ 1 := by
  unfold fraction
  split <;> norm_num

private theorem value_holds (share : TrackShare) :
    ∃ M, Holds share.value (if share.backward then .negative else .positive) M ∧
      M.value = share.fraction := by
  have whole : ∃ M, Holds 1.0 .positive M ∧ M.value = 1 := by
    refine ⟨⟨2 ^ 52, -52, by decide, by decide, .inr (by decide)⟩, ⟨by decide, rfl⟩, ?_⟩
    norm_num [Magnitude.value]
  have half : ∃ M, Holds 0.5 .positive M ∧ M.value = 1 / 2 := by
    refine ⟨⟨2 ^ 52, -53, by decide, by decide, .inr (by decide)⟩, ⟨by decide, rfl⟩, ?_⟩
    norm_num [Magnitude.value]
  obtain ⟨backward, inside⟩ := share
  obtain ⟨M, holds, value⟩ : ∃ M, Holds (if inside then 0.5 else 1.0) .positive M ∧
      M.value = fraction ⟨backward, inside⟩ := by
    cases inside
    · exact whole
    · exact half
  cases backward
  · exact ⟨M, holds, value⟩
  · exact ⟨M, Number.holds_neg holds, value⟩

private theorem floor_part (share : TrackShare) (n : Nat) :
    ⌊n * share.fraction + 1 / 2⌋₊ = share.part n := by
  unfold part fraction
  cases share.half with
  | true =>
    have halved : (n * (1 / 2) + 1 / 2 : ℚ) = (n + 1 : ℕ) / (2 : ℕ) := by
      push_cast
      ring
    rw [if_pos rfl, if_pos rfl, halved, Nat.floor_div_eq_div]
  | false =>
    rw [if_neg Bool.false_ne_true, if_neg Bool.false_ne_true, Nat.floor_eq_iff (by positivity)]
    constructor <;> linarith

private theorem part_zero (share : TrackShare) : share.part 0 = 0 := by
  unfold part
  split <;> rfl

private theorem sign_mul_part (share : TrackShare) (n : ℕ) :
    (n : ℤ).sign * share.part n = share.part n := by
  rcases n.eq_zero_or_pos with rfl | pos
  · rw [part_zero, Nat.cast_zero, mul_zero]
  · rw [Int.sign_eq_one_of_pos (by omega), one_mul]

theorem natAbs_sign_mul_part (share : TrackShare) (n : ℤ) :
    (n.sign * share.part n.natAbs).natAbs = share.part n.natAbs := by
  by_cases none : n = 0
  · subst none
    rw [Int.natAbs_zero, part_zero, Nat.cast_zero, mul_zero, Int.natAbs_zero]
  · rw [Int.natAbs_mul, Int.natAbs_sign_of_ne_zero none, one_mul, Int.natAbs_natCast]

theorem part_le (share : TrackShare) (n : Nat) : share.part n ≤ n := by
  unfold part
  split <;> omega

end TrackShare

namespace Units

private theorem toSteps_of_fits {n : Int} (fits : n.natAbs < 2 ^ 53) : toSteps (.integer n) = n := by
  have low : Int64.minValue.toInt = -2 ^ 63 := by decide
  have high : Int64.maxValue.toInt = 2 ^ 63 - 1 := by decide
  change max Int64.minValue.toInt (min Int64.maxValue.toInt n) = n
  omega

/-- Counts of steps are so far from the end of the range that a share of them is exact. -/
theorem shareSteps {full : Int} (fits : full.natAbs < 2 ^ 53) (share : TrackShare) :
    toSteps (Number.nearest (Number.ofInt full * share.value)) =
      share.directed (full.sign * share.part full.natAbs) := by
  by_cases none : full = 0
  · subst none
    obtain ⟨backward, half⟩ := share
    cases backward <;> cases half <;> decide +kernel
  obtain ⟨M, holds, value⟩ := share.value_holds
  obtain ⟨N, whole, count⟩ := Number.ofInt_holds none fits
  obtain ⟨P, nearest, product⟩ := Number.mul_kept whole holds
  have exact : P.value = full.natAbs * share.fraction := by
    rw [count, value] at nearest
    obtain ⟨K, same⟩ := Magnitude.exists_value (r := full.natAbs)
      (g := if share.half then -1 else 0) fits (by split <;> decide)
    refine Magnitude.value_of_nearest nearest (same.trans ?_)
    unfold TrackShare.fraction
    split <;> norm_num
  have small : P.value < 2 ^ (972 : ℤ) := by
    have near : (full.natAbs : ℚ) < 2 ^ (53 : ℤ) := by exact_mod_cast fits
    have below : P.value ≤ full.natAbs :=
      exact ▸ mul_le_of_le_one_right (by positivity) share.fraction_le_one
    exact (below.trans_lt near).trans (zpow_lt_zpow_right₀ one_lt_two (by decide))
  rw [Number.nearest_of_kept product small, exact, share.floor_part]
  have signed : ((if full < 0 then Sign.negative else .positive) *
      (if share.backward then .negative else .positive)).apply (share.part full.natAbs) =
      share.directed (full.sign * share.part full.natAbs) := by
    unfold TrackShare.directed
    rcases lt_or_gt_of_ne none with below | above
    · rw [if_pos below, Int.sign_eq_neg_one_of_neg below, neg_one_mul]
      cases share.backward
      · rfl
      · exact (neg_neg _).symm
    · rw [if_neg (by omega), Int.sign_eq_one_of_pos above, one_mul]
      cases share.backward <;> rfl
  rw [signed, toSteps_of_fits]
  rw [share.natAbs_directed, share.natAbs_sign_mul_part]
  exact (share.part_le full.natAbs).trans_lt fits

end Units

namespace Direction

def reversed : Direction → Direction
  | forward => backward
  | backward => forward
  | forwardLeft => backwardLeft
  | forwardRight => backwardRight
  | turnLeft => turnRight
  | turnRight => turnLeft
  | backwardLeft => forwardLeft
  | backwardRight => forwardRight

/-- What both tracks make of the steps that a distance has on each of them: a straight drive makes all,
an arc half of the inside ones, and a turn sets the tracks against each other. -/
def tracks (left right : Int) : Direction → Int × Int
  | forward => (left, right)
  | backward => (-left, -right)
  | forwardLeft => (⌈(left / 2 : ℚ)⌉, right)
  | forwardRight => (left, ⌈(right / 2 : ℚ)⌉)
  | turnLeft => (-left, right)
  | turnRight => (left, -right)
  | backwardLeft => (-⌈(left / 2 : ℚ)⌉, -right)
  | backwardRight => (-left, -⌈(right / 2 : ℚ)⌉)

private theorem shares_reversed (direction : Direction) :
    direction.reversed.shares = (direction.shares.1.opposite, direction.shares.2.opposite) := by
  cases direction <;> rfl

private theorem ceil_half (n : ℕ) : ⌈(n / 2 : ℚ)⌉ = ((n : ℤ) + 1) / 2 := by
  have divided : ⌈((n : ℤ) / (2 : ℕ) : ℚ)⌉ = -(-(n : ℤ) / (2 : ℕ)) := Rat.ceil_intCast_div_natCast n 2
  push_cast at divided
  omega

private theorem tracks_shares (direction : Direction) (left right : ℕ) :
    direction.tracks left right = (direction.shares.1.directed (direction.shares.1.part left),
      direction.shares.2.directed (direction.shares.2.part right)) := by
  cases direction <;> simp [tracks, shares, TrackShare.directed, TrackShare.part, ceil_half]

end Direction

namespace Plan

def reversed (plan : Plan) : Plan :=
  let steps := plan.move.steps
  { plan with move := { plan.move with steps := ⟨-steps.left, -steps.right, steps.z⟩ } }

variable {store : Setting.Store} {mm feed : Float} {plan : Plan}

theorem trackSteps_ok {scale : Float} {share : TrackShare} {steps : Int}
    (counted : trackSteps mm scale share = .ok steps) :
    ∃ full, Units.steps? mm scale = some full ∧
      steps = share.directed (full.sign * share.part full.natAbs) := by
  obtain ⟨full, whole, counted⟩ := except_bind_eq_ok.mp counted
  have whole := wholeSteps_ok whole
  cases counted
  exact ⟨full, whole, Units.shareSteps ((Units.steps?_bound whole).trans_lt (by decide)) share⟩

private theorem trackSteps_opposite (mm scale : Float) (share : TrackShare) :
    trackSteps mm scale share.opposite = (trackSteps mm scale share).map fun steps => -steps := by
  cases counted : wholeSteps mm scale with
  | error fault =>
    unfold trackSteps
    rw [counted]
    rfl
  | ok full =>
    have fits := (Units.steps?_bound (wholeSteps_ok counted)).trans_lt (by decide : _ < 2 ^ 53)
    unfold trackSteps
    rw [counted]
    change Except.ok _ = Except.ok _
    rw [Units.shareSteps fits, Units.shareSteps fits, TrackShare.directed_opposite]
    rfl

def conclude (settings : Setting.Snapshot) (mm requested : Float) (left right : Int) :
    Except MotionFault Plan :=
  let plan := ofTracks settings requested left right
  if left = 0 ∧ right = 0 then .error (.noSteps mm)
  else if (left ≠ 0 ∧ plan.move.hz.left = 0) ∨ (right ≠ 0 ∧ plan.move.hz.right = 0) then
    .error (.noFrequency plan.feed)
  else .ok plan

private theorem ofDrive_eq (store : Setting.Store) (direction : Direction) (mm feed : Float) :
    ofDrive store direction mm feed = (do
      checkPositive .distance mm
      checkPositive .feed feed
      let settings ← motionSettings store
      let left ← trackSteps mm settings.axes.left.stepsPerMm direction.shares.1
      let right ← trackSteps mm settings.axes.right.stepsPerMm direction.shares.2
      conclude settings mm feed left right) := rfl

private theorem conclude_neg (settings : Setting.Snapshot) (mm feed : Float) (left right : Int) :
    conclude settings mm feed (-left) (-right) = (conclude settings mm feed left right).map reversed := by
  have same : ofTracks settings feed (-left) (-right) = (ofTracks settings feed left right).reversed := rfl
  have hz : (ofTracks settings feed left right).reversed.move.hz =
      (ofTracks settings feed left right).move.hz := rfl
  unfold conclude
  simp only [Int.neg_eq_zero, ne_eq, same, hz]
  split
  · rfl
  · split <;> rfl

/-- A plan the other way is the plan with both tracks the other way, and it is refused for the same
reason. -/
theorem ofDrive_reversed (store : Setting.Store) (direction : Direction) (mm feed : Float) :
    ofDrive store direction.reversed mm feed = (ofDrive store direction mm feed).map reversed := by
  rw [ofDrive_eq, ofDrive_eq, direction.shares_reversed]
  cases checkPositive .distance mm with
  | error fault => rfl
  | ok _ =>
  cases checkPositive .feed feed with
  | error fault => rfl
  | ok _ =>
  cases motionSettings store with
  | error fault => rfl
  | ok settings =>
  dsimp only [bind, Except.bind]
  rw [trackSteps_opposite, trackSteps_opposite]
  cases trackSteps mm settings.axes.left.stepsPerMm direction.shares.1 with
  | error fault => rfl
  | ok left =>
  cases trackSteps mm settings.axes.right.stepsPerMm direction.shares.2 with
  | error fault => rfl
  | ok right => exact conclude_neg settings mm feed left right

private theorem ofDrive_distance {direction : Direction}
    (made : ofDrive store direction mm feed = .ok plan) :
    Number.isPositive mm = true := by
  obtain ⟨_, positive, _⟩ := except_bind_eq_ok.mp made
  exact requestPositive_ok positive

private theorem steps_nonneg {scale : Float} {n : Int} (far : Number.isPositive mm = true)
    (fine : Number.isPositive scale = true) (counted : Units.steps? mm scale = some n) : 0 ≤ n := by
  have product := Number.nonnegative_mul (Number.nonnegative_of_isPositive far)
    (Number.nonnegative_of_isPositive fine)
  unfold Units.steps? Number.nearest at counted
  rcases Number.roundBy_cases product Number.nearestMagnitude Number.nearestMagnitude with
    none | infinite | ⟨k, whole⟩
  · rw [none] at counted
    cases counted
  · rw [infinite] at counted
    cases counted
  · rw [whole] at counted
    dsimp only at counted
    split at counted <;> cases counted
    exact Int.natCast_nonneg k

/-- A plan that is made counts the steps of its distance on each track, and the tracks make of them what
the direction says: all, or half of them rounded up on the inside of an arc, backward or not; the tool
head makes none. The opposite direction has the opposite plan, or is refused for the same reason. -/
theorem ofDrive_tracks (store : Setting.Store) (direction : Direction) (mm feed : Float) :
    (∀ plan, ofDrive store direction mm feed = .ok plan →
      ∃ leftScale rightScale left right,
        store.float (.stepsPerMm .left) = .ok leftScale ∧ Units.steps? mm leftScale = some left ∧
        store.float (.stepsPerMm .right) = .ok rightScale ∧ Units.steps? mm rightScale = some right ∧
        0 ≤ left ∧ 0 ≤ right ∧
        plan.move.steps = ⟨(direction.tracks left right).1, (direction.tracks left right).2, 0⟩) ∧
    ofDrive store direction.reversed mm feed = (ofDrive store direction mm feed).map reversed := by
  refine ⟨fun plan made => ?_, ofDrive_reversed store direction mm feed⟩
  have far := ofDrive_distance made
  obtain ⟨settings, _, _, basis, rfl⟩ := ofDrive_ok made
  have first : Sourced store .left settings.axes.left := motionSettings_sourced basis.based .left
  have second : Sourced store .right settings.axes.right := motionSettings_sourced basis.based .right
  obtain ⟨left, counted, rfl⟩ := trackSteps_ok basis.left_steps
  obtain ⟨right, counted', rfl⟩ := trackSteps_ok basis.right_steps
  have least := steps_nonneg far first.scale_pos counted
  have least' := steps_nonneg far second.scale_pos counted'
  refine ⟨_, _, left, right, first.scale, counted, second.scale, counted', least, least', ?_⟩
  lift left to ℕ using least
  lift right to ℕ using least'
  rw [direction.tracks_shares, Int.natAbs_natCast, Int.natAbs_natCast, TrackShare.sign_mul_part,
    TrackShare.sign_mul_part]
  rfl

/-- Backwards along an arc to the left the inside track makes half of its 225 steps, and the outside one
all of its 180, which are longer. -/
theorem arc_tracks :
    let store := Machine.factory (.stepsPerMm .right) "200"
    ∃ plan, ofDrive store .backwardLeft 0.9 300 = .ok plan ∧ plan.move.steps = ⟨-113, -180, 0⟩ := by
  intro store
  have made : ofDrive store .backwardLeft 0.9 300 =
      .ok ⟨⟨⟨-113, -180, 0⟩, ⟨1250, 1000, 0⟩, ⟨2500, 2000, 0⟩⟩, 300⟩ := by decide +kernel
  obtain ⟨leftScale, rightScale, left, right, scale, counted, scale', counted', _, _, steps⟩ :=
    (ofDrive_tracks store .backwardLeft 0.9 300).1 _ made
  have coarse : store.float (.stepsPerMm .left) = .ok 250 := by decide +kernel
  have fine : store.float (.stepsPerMm .right) = .ok 200 := by decide +kernel
  have odd : Units.steps? 0.9 250 = some 225 := by decide +kernel
  have even : Units.steps? 0.9 200 = some 180 := by decide +kernel
  cases coarse.symm.trans scale
  cases fine.symm.trans scale'
  cases odd.symm.trans counted
  cases even.symm.trans counted'
  refine ⟨_, made, steps.trans ?_⟩
  norm_num [Direction.tracks]

end Plan

end Crawler

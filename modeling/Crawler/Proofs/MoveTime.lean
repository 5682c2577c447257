import Crawler.Proofs.Acceptance
import Crawler.Proofs.MoveSize
import Crawler.Proofs.Precision

/-! When moves end. The time that a move takes is a count of 64 bits, but its end need not be one: with an
acceleration that is low enough, however far from zero, the move of a plan outlasts a clock of 64 bits
that has hardly begun. What decides it is the time to speed up over half of the steps and to slow down
over the others, but for an error in the last bits. -/
namespace Crawler

open Float.Model.Format (binary64)
open Number (Reads Magnitude Near Spans Moderate Within)

namespace Number

def rational (x : Float) : ℚ :=
  match x.toModel.unpack with
  | .finite sign m e _ => sign.apply m * 2 ^ e
  | _ => 0

variable {x : Float} {M : Magnitude binary64}

private theorem rational_of_reads (read : Reads x M) : rational x = M.value := by
  obtain ⟨_, read⟩ := read
  unfold rational
  rw [read]
  rfl

private theorem two_reads : ∃ M, Reads 2 M ∧ M.value = 2 := by
  refine ⟨⟨2 ^ 52, -51, by decide, by decide, .inr (by decide)⟩, ⟨by decide, rfl⟩, ?_⟩
  norm_num [Magnitude.value]

private theorem million_reads : ∃ M, Reads 1000000 M ∧ M.value = 1000000 := by
  refine ⟨⟨1000000 * 2 ^ 33, -33, by decide, by decide, .inr (by decide)⟩, ⟨by decide, rfl⟩, ?_⟩
  norm_num [Magnitude.value]

private theorem spans_two : Spans 1 1 2 := by
  constructor <;> norm_num

private theorem spans_million : Spans 19 20 1000000 := by
  constructor <;> norm_num

end Number

namespace Hardware

namespace Profile

/-- The square of the microseconds that it takes to speed up over half of some steps and to slow down over
the others. -/
def swing (steps : ℕ) (acceleration : ℚ) : ℚ := 4 * 10 ^ 12 * steps / acceleration

structure Posed (n v : ℕ) (a : Float) (A : Magnitude binary64) : Prop where
  steps : 1 ≤ n ∧ n ≤ 2 ^ 31
  hz : 1 ≤ v ∧ v ≤ 2 ^ 32
  reads : Reads a A
  acceleration : Spans (-300) 258 A.value

variable {n v : ℕ} {a : Float} {A : Magnitude binary64}

private theorem Posed.count (posed : Posed n v a A) :
    ∃ N, Reads (Number.ofInt n) N ∧ N.value = n ∧ Spans 0 31 N.value := by
  obtain ⟨least, most⟩ := posed.steps
  exact Number.count_reads least most (by decide)

private theorem Posed.speed (posed : Posed n v a A) :
    ∃ V, Reads (Number.ofInt v) V ∧ V.value = v ∧ Spans 0 32 V.value := by
  obtain ⟨least, most⟩ := posed.hz
  exact Number.count_reads least most (by decide)

/-- A move that turns before it reaches its cruise speed takes the time to speed up and slow down. -/
theorem turning_near (posed : Posed n v a A)
    (short : ¬ Number.ofInt v * Number.ofInt v / a ≤ Number.ofInt n) :
    ∃ D, Reads (duration (Number.ofInt n) (Number.ofInt v) a * 1000000) D ∧
      Near 10 (swing n A.value) (D.value * D.value) := by
  obtain ⟨N, count, steps, spans⟩ := posed.count
  obtain ⟨T, two, double⟩ := Number.two_reads
  obtain ⟨M, million, micro⟩ := Number.million_reads
  have pos := posed.acceleration.pos
  obtain ⟨P, product, near⟩ := Number.mul_near count posed.reads (Number.near_refl _) (by decide)
    ((spans.mul posed.acceleration).widen (by decide) (by decide))
  have range : Spans (-301) 290 P.value :=
    (near.spans (spans.mul posed.acceleration) (by decide)).widen (by decide) (by decide)
  obtain ⟨R, root, square⟩ := Number.sqrt_near product (range.widen (by decide) (by decide))
  have peak : Spans (-151) 146 R.value :=
    ((square.spans range (by decide)).widen (by decide) (by decide)).of_square (Number.value_pos root)
  have turns : Spans (-150) 147 (T.value * R.value) :=
    double ▸ (Number.spans_two.mul peak).widen (by decide) (by decide)
  obtain ⟨Q, twice, near₁⟩ := Number.mul_near two root (Number.near_refl _) (by decide)
    (turns.widen (by decide) (by decide))
  obtain ⟨U, quotient, near₂⟩ := Number.div_near twice posed.reads (near₁.div pos) (by decide)
    ((turns.div posed.acceleration).widen (by decide) (by decide))
  have long : Spans (-400) 500 (T.value * R.value / A.value * M.value) :=
    micro ▸ ((turns.div posed.acceleration).mul Number.spans_million).widen (by decide) (by decide)
  obtain ⟨D, scaled, near₃⟩ := Number.mul_near quotient million (near₂.mul (Number.value_pos million))
    (by decide) (long.widen (by decide) (by decide))
  refine ⟨D, ?_, ?_⟩
  · unfold duration
    rwa [if_neg (Number.not_le_zero_of_reads posed.reads), if_neg short]
  -- The root is squared again, so that no more is left of it than of the product.
  · have factor : (0 : ℚ) < 4 * 10 ^ 12 / (A.value * A.value) := by positivity
    have square := (near.trans square).mul factor
    have final := near₃.square long.pos
    have whole : N.value * A.value * (4 * 10 ^ 12 / (A.value * A.value)) = swing n A.value := by
      rw [steps, swing]
      field_simp
    have parts : T.value * R.value / A.value * M.value * (T.value * R.value / A.value * M.value) =
        R.value * R.value * (4 * 10 ^ 12 / (A.value * A.value)) := by
      rw [double, micro]
      ring
    rw [whole] at square
    rw [parts] at final
    exact square.trans final

section Cruise

variable (posed : Posed n v a A) (long : Number.ofInt v * Number.ofInt v / a ≤ Number.ofInt n)

include posed long

/-- A move that reaches its cruise speed is long enough to speed up and slow down. -/
theorem cruising_ramp :
    ∃ W, Reads (Number.ofInt v * Number.ofInt v / a) W ∧ W.value ≤ n ∧ (v * v / A.value : ℚ) ≤ 2 * n := by
  obtain ⟨N, count, steps, _⟩ := posed.count
  obtain ⟨V, speed, hz, pace⟩ := posed.speed
  obtain ⟨S, square, near⟩ := Number.mul_near speed speed (Number.near_refl _) (by decide)
    ((pace.mul pace).widen (by decide) (by decide))
  have ratio := (pace.mul pace).div posed.acceleration
  obtain ⟨W, ramp, near⟩ := Number.div_near square posed.reads (near.div posed.acceleration.pos)
    (by decide) (ratio.widen (by decide) (by decide))
  have reached : W.value ≤ n := steps ▸ (Number.le_iff_of_reads ramp count).mp long
  obtain ⟨half, _⟩ := near.factor_two ratio.pos (by decide)
  rw [hz] at half
  exact ⟨W, ramp, reached, by linarith⟩

/-- The acceleration of such a move is not low. -/
theorem cruising_acceleration : (v / A.value : ℚ) ≤ 2 * n ∧ swing n A.value ≤ 2 ^ 109 := by
  obtain ⟨_, _, _, ratio⟩ := cruising_ramp posed long
  have pos := posed.acceleration.pos
  have one : (1 : ℚ) ≤ v := by exact_mod_cast posed.hz.1
  have most : (n : ℚ) ≤ 2147483648 := by exact_mod_cast posed.steps.2
  have brief : (v / A.value : ℚ) ≤ 2 * n := by
    refine le_trans ?_ ratio
    gcongr
    exact le_mul_of_one_le_left (by positivity) one
  have unit : 1 / A.value ≤ v / A.value := by gcongr
  refine ⟨brief, ?_⟩
  calc
    swing n A.value = 4 * 10 ^ 12 * n * (1 / A.value) := by rw [swing]; ring
    _ ≤ 4 * 10 ^ 12 * n * (2 * n) := by gcongr; exact unit.trans brief
    _ ≤ 4 * 10 ^ 12 * 2147483648 * (2 * 2147483648) := by gcongr
    _ ≤ 2 ^ 109 := by norm_num

private theorem cruising_within : Within 55 (duration (Number.ofInt n) (Number.ofInt v) a * 1000000) := by
  obtain ⟨N, count, steps, _⟩ := posed.count
  obtain ⟨V, speed, hz, pace⟩ := posed.speed
  obtain ⟨T, two, double⟩ := Number.two_reads
  obtain ⟨M, million, micro⟩ := Number.million_reads
  obtain ⟨W, ramp, reached, _⟩ := cruising_ramp posed long
  obtain ⟨brief, _⟩ := cruising_acceleration posed long
  have one : (1 : ℚ) ≤ v := by exact_mod_cast posed.hz.1
  have most : (n : ℚ) ≤ 2147483648 := by exact_mod_cast posed.steps.2
  have turns : Spans 1 33 (T.value * V.value) := double ▸ Number.spans_two.mul pace
  have ends := turns.div posed.acceleration
  obtain ⟨Q, twice, near⟩ := Number.mul_near two speed (Number.near_refl _) (by decide)
    (turns.widen (by decide) (by decide))
  obtain ⟨U, quotient, near⟩ := Number.div_near twice posed.reads (near.div posed.acceleration.pos)
    (by decide) (ends.widen (by decide) (by decide))
  obtain ⟨_, above⟩ := near.factor_two ends.pos (by decide)
  have ends : U.value ≤ 2 ^ (34 : ℤ) := by
    rw [double, hz, mul_div_assoc] at above
    norm_num
    linarith
  have rest : Within 32 (Number.ofInt n - Number.ofInt v * Number.ofInt v / a) :=
    Number.sub_within count ramp (by norm_num; linarith) (by decide) (by decide)
  have middle := Number.div_within rest speed (hz ▸ one) (by decide) (by decide)
  have total := Number.add_within quotient ends (middle.mono (by decide)) (by decide) (by decide)
  unfold duration
  rw [if_neg (Number.not_le_zero_of_reads posed.reads), if_pos long]
  exact Number.mul_within total million (micro ▸ Number.spans_million.2) (by decide) (by decide)

end Cruise

end Profile

def slack : ℚ := 2 ^ (-49 : ℤ)

def Move.swing (m : Move) : ℚ := Profile.swing m.steps.natAbs (Number.rational m.acceleration)

/-- Whether a move ends before a clock of 64 bits does depends on the time to turn and on what is left of
the clock. The time that a move takes is cut to 64 bits, so that the first moment is early enough. -/
structure Move.Timely (m : Move) : Prop where
  counted : m.duration < 2 ^ 64
  early : m.start < 2 ^ 63 → m.swing * (1 + slack) ≤ (2 ^ 64 - 1 - m.start) ^ 2 → m.finish < 2 ^ 64
  late : 0 < m.start → m.start < 2 ^ 63 → (2 ^ 64 - 1 - m.start) ^ 2 < m.swing * (1 - slack) →
    2 ^ 64 ≤ m.finish

/-- An acceleration that is not extremely low is enough for every start in the first half of the clock. -/
theorem Move.Timely.finish_lt {m : Move} (timely : m.Timely) (half : m.start < 2 ^ 63)
    (few : m.steps.natAbs ≤ 2 ^ 31) (quick : 2 ^ (-52 : ℤ) ≤ Number.rational m.acceleration) :
    m.finish < 2 ^ 64 := by
  have few : (m.steps.natAbs : ℚ) ≤ 2 ^ 31 := by exact_mod_cast few
  have half' : (m.start : ℚ) ≤ 2 ^ 63 - 1 := by
    have half : (m.start : ℚ) + 1 ≤ 2 ^ 63 := by exact_mod_cast half
    linarith
  have pos : 0 < Number.rational m.acceleration := lt_of_lt_of_le (by positivity) quick
  have brief : m.swing ≤ 4 * 10 ^ 12 * 2 ^ 31 / 2 ^ (-52 : ℤ) := by
    unfold swing Profile.swing
    gcongr
  refine timely.early half ?_
  calc
    m.swing * (1 + slack) ≤ 4 * 10 ^ 12 * 2 ^ 31 / 2 ^ (-52 : ℤ) * (1 + slack) := by
      gcongr
      norm_num [slack]
    _ ≤ (2 ^ 63) ^ 2 := by norm_num [slack]
    _ ≤ (2 ^ 64 - 1 - m.start) ^ 2 := by
      gcongr
      linarith

namespace Engine

open Profile (Posed swing)

variable {e : Engine} {steps : ℤ} {v : ℕ} {A : Magnitude binary64} {k : ℕ}

def leg (steps : ℤ) (now : ℕ) (e : Engine) : Move :=
  ⟨now, e.physical, steps, e.speed, e.acceleration, e.moveDuration steps⟩

theorem started_motion (steps : ℤ) (now : ℕ) (e : Engine) :
    (e.started steps now).motion = .move (e.leg steps now) := rfl

private theorem moveDuration_lt (steps : ℤ) (e : Engine) : e.moveDuration steps < 2 ^ 64 := by
  have range : (0 : ℤ) ≤ UInt64.size - 1 := by decide
  have size : UInt64.size = 2 ^ 64 := rfl
  have top := Number.Whole.clamp_le range
    (Number.ceil (Profile.duration (Number.ofInt steps.natAbs) e.speed e.acceleration * 1000000))
  unfold moveDuration
  dsimp only
  omega

/-- The time that a move takes is that of turning, as far as it matters to a clock of 64 bits. -/
theorem moveDuration_bounds (posed : Posed steps.natAbs v e.acceleration A)
    (speed : e.speed = Number.ofInt v) (least : 2 ^ 55 ≤ k) (below : k < 2 ^ 64 - 1) :
    (swing steps.natAbs A.value * (1 + slack) ≤ k ^ 2 → e.moveDuration steps ≤ k) ∧
      (k ^ 2 < swing steps.natAbs A.value * (1 - slack) → k < e.moveDuration steps) := by
  have size : UInt64.size = 2 ^ 64 := rfl
  have long : (2 ^ 55 : ℚ) ≤ k := by exact_mod_cast least
  have pos : 0 < swing steps.natAbs A.value := by
    have some : (0 : ℚ) < steps.natAbs := by exact_mod_cast posed.steps.1
    exact div_pos (by positivity) posed.acceleration.pos
  unfold moveDuration
  dsimp only
  rw [speed]
  by_cases cruises : Number.ofInt v * Number.ofInt v / e.acceleration ≤ Number.ofInt steps.natAbs
  · have soon := Number.clamp_ceil_of_within (i := 55) (Profile.cruising_within posed cruises)
      (by decide : (0 : ℤ) ≤ UInt64.size - 1)
    obtain ⟨_, small⟩ := Profile.cruising_acceleration posed cruises
    refine ⟨fun _ => by omega, fun beyond => absurd beyond (not_lt.mpr ?_)⟩
    have part : swing steps.natAbs A.value * (1 - slack) ≤ swing steps.natAbs A.value := by
      refine mul_le_of_le_one_right pos.le ?_
      norm_num [slack]
    nlinarith
  · obtain ⟨D, read, low, high⟩ := Profile.turning_near posed cruises
    have value := Number.value_pos read
    have least : (1 - slack : ℚ) ≤ (1 - 2 ^ (-53 : ℤ)) ^ 10 := by norm_num [slack]
    have most : ((1 + 2 ^ (-53 : ℤ)) ^ 10 : ℚ) ≤ 1 + slack := by norm_num [slack]
    have reached := Number.clamp_ceil_le_iff read (by omega : (k : ℤ) < UInt64.size - 1)
    refine ⟨fun fits => ?_, fun beyond => ?_⟩
    · have square : D.value * D.value ≤ k * k := by
        rw [← pow_two (k : ℚ)]
        exact (high.trans (mul_le_mul_of_nonneg_left most pos.le)).trans fits
      have within := reached.mpr ((mul_self_le_mul_self_iff value.le k.cast_nonneg).mpr square)
      omega
    · have square : (k * k : ℚ) < D.value * D.value := by
        rw [← pow_two (k : ℚ)]
        exact beyond.trans_le ((mul_le_mul_of_nonneg_left least pos.le).trans low)
      have outside := (mul_self_lt_mul_self_iff k.cast_nonneg value.le).mpr square
      have more := mt reached.mp (not_le.mpr outside)
      omega

theorem leg_timely (posed : Posed steps.natAbs v e.acceleration A) (speed : e.speed = Number.ofInt v)
    (now : ℕ) : (e.leg steps now).Timely := by
  have counted := moveDuration_lt steps e
  have left (begun : 0 < now) (half : now < 2 ^ 63) : ∃ k : ℕ, now + k = 2 ^ 64 - 1 ∧
      (2 ^ 64 - 1 - now : ℚ) = k ∧ 2 ^ 55 ≤ k ∧ k < 2 ^ 64 - 1 := by
    obtain ⟨k, room⟩ := Nat.exists_eq_add_of_le (by omega : now ≤ 2 ^ 64 - 1)
    have whole : (2 ^ 64 : ℚ) = now + k + 1 := by exact_mod_cast (by omega : 2 ^ 64 = now + k + 1)
    exact ⟨k, room.symm, by rw [whole]; ring, by omega, by omega⟩
  have rational : (e.leg steps now).swing = swing steps.natAbs A.value :=
    congrArg (swing steps.natAbs) (Number.rational_of_reads posed.reads)
  have finish : (e.leg steps now).finish = now + e.moveDuration steps := rfl
  have start : (e.leg steps now).start = now := rfl
  refine ⟨counted, ?_, ?_⟩ <;> rw [rational, finish, start]
  · intro half fits
    rcases now.eq_zero_or_pos with none | begun
    · omega
    · obtain ⟨k, room, cast, least, below⟩ := left begun half
      have short := (moveDuration_bounds posed speed least below).1 (cast ▸ fits)
      omega
  · intro begun half beyond
    obtain ⟨k, room, cast, least, below⟩ := left begun half
    have long := (moveDuration_bounds posed speed least below).2 (cast ▸ beyond)
    omega

end Engine

end Hardware

namespace Drives

open Crawler.Action
open Hardware (Platform Engine)
open Hardware.Platform (Settled)
open Hardware.Profile (Posed)

variable {d d' : Drives} {a : Axis} {move : JointMove} {waiting : Waiting} {m : Hardware.Move}
  {store : Setting.Store} {course : Course} {position : Int} {mm feed : Float} {plan : Plan}

private theorem Course.plan_acceleration (made : course.plan store position mm feed = .ok plan)
    (some_steps : plan.move.steps.get a ≠ 0) :
    ∃ A, Reads (plan.move.acceleration.get a) A ∧ Spans (-300) 258 A.value := by
  cases course with
  | drive direction =>
    obtain ⟨settings, _, _, basis, rfl⟩ := Plan.ofDrive_ok made
    cases a with
    | left => exact Plan.stepAcceleration_reads basis.based .left
    | right => exact Plan.stepAcceleration_reads basis.based .right
    | z => exact absurd rfl some_steps
  | depth =>
    obtain ⟨settings, _, basis, rfl⟩ := Plan.ofDepth_ok made
    cases a with
    | left => exact absurd rfl some_steps
    | right => exact absurd rfl some_steps
    | z => exact Plan.stepAcceleration_reads basis.based .z

/-- The moves of a plan are such that the time they take is known. -/
theorem Course.plan_posed (made : course.plan store position mm feed = .ok plan)
    (some_steps : plan.move.steps.get a ≠ 0) :
    ∃ A, Posed (plan.move.steps.get a).natAbs (plan.move.hz.get a) (plan.move.acceleration.get a) A := by
  have size : UInt32.size = 2 ^ 32 := rfl
  have limit : Units.stepLimit = 2147483647 := rfl
  have executable := Course.plan_executable made
  have least := executable.some_hz a some_steps
  have below := executable.hz a
  have few := Course.plan_steps made a
  obtain ⟨A, read, spans⟩ := Course.plan_acceleration made some_steps
  exact ⟨A, ⟨by omega, by omega⟩, ⟨least, by omega⟩, read, spans⟩

/-- An axis that is launched is settled and prepared, and then it is given its move. -/
theorem launch_moved (some_steps : move.steps.get a ≠ 0)
    (ran : (launch move a waiting).run d = (.ok (), d')) :
    ∃ q, Settled a d.platform q ∧ (q.engine a).speed = Number.ofInt (move.hz.get a) ∧
      (q.engine a).acceleration = move.acceleration.get a ∧
      d'.platform = attend waiting a (moved a (move.steps.get a) q) := by
  unfold launch at ran
  rcases awaitRest_cases d a with ⟨bounded, waited⟩ | ⟨fault, refused⟩
  · rw [run_bind_ok waited] at ran
    obtain ⟨powered, enabled, settled, _⟩ :=
      enable_settled (d := { d with platform := d.platform.awaited a }) (Platform.awaited_settled bounded)
    rw [run_bind_ok enabled] at ran
    obtain ⟨_, d₁, accelerated, ran⟩ := run_bind_eq_ok.mp ran
    obtain ⟨settled, taken⟩ := prepare_settled settled accelerated
      (fun e => Engine.setAcceleration_sameMotion e _) (fun e => Engine.setAcceleration_uneventful e _)
      fun _ => rfl
    obtain ⟨fit, quickened⟩ := taken rfl
    obtain ⟨_, d₂, paced, ran⟩ := run_bind_eq_ok.mp ran
    obtain ⟨settled, taken⟩ := prepare_settled settled paced (fun e => Engine.setSpeed_sameMotion e _)
      (fun e => Engine.setSpeed_uneventful e _) fun _ => rfl
    obtain ⟨fit', set⟩ := taken rfl
    rw [(Engine.setSpeed_ok _ fit').2, quickened, (Engine.setAcceleration_ok _ fit).2] at set
    rcases startMove_cases settled.idle some_steps waiting with ⟨_, started⟩ | ⟨_, _, refused, _⟩
    · rw [started] at ran
      cases ran
      exact ⟨_, settled, by rw [set], by rw [set], rfl⟩
    · rw [refused] at ran
      cases ran
  · rw [run_bind_error refused] at ran
    cases ran

structure Given (move : JointMove) (a : Axis) (waiting : Waiting) (p q : Platform) (m : Hardware.Move) :
    Prop where
  start : m.start = max p.now (p.engine a).restTime
  origin : m.origin = (p.engine a).destination
  steps : m.steps = move.steps.get a
  hz : m.hz = Number.ofInt (move.hz.get a)
  acceleration : m.acceleration = move.acceleration.get a
  unattended : waiting = .unattended → (q.engine a).motion = .move m
  attended : waiting = .attended →
    q.now = m.finish ∧ (q.engine a).motion = .idle ∧ (q.engine a).physical = m.origin + m.steps

def Concludes (a : Axis) (m : Hardware.Move) (d : Drives) : Prop :=
  ∀ later : Drives, later.platform.engine a = d.platform.engine a → d.platform.now ≤ later.platform.now →
    ∃ rest, (awaitRest a).run later = (.ok (), rest) ∧
      rest.platform.now = max later.platform.now m.finish ∧
      (rest.platform.engine a).motion = .idle ∧
      (rest.platform.engine a).physical = m.origin + m.steps

private theorem given_concludes (given : Given move a waiting d.platform d'.platform m) :
    Concludes a m d' := by
  intro later same past
  obtain ⟨bounded, time, place⟩ : (later.platform.engine a).Bounded ∧
      max later.platform.now (later.platform.engine a).restTime = max later.platform.now m.finish ∧
      (later.platform.engine a).destination = m.origin + m.steps := by
    rw [same]
    cases waiting with
    | unattended =>
      have motion := given.unattended rfl
      refine ⟨Engine.bounded_of_move motion, ?_, ?_⟩
      · simp [Engine.restTime, motion]
      · simp [Engine.destination, motion]
    | attended =>
      obtain ⟨now, idle, physical⟩ := given.attended rfl
      refine ⟨Engine.bounded_of_idle idle, ?_, ?_⟩
      · rw [Engine.restTime_of_idle idle]
        omega
      · rw [Engine.destination_of_idle idle, physical]
  have settled := Platform.awaited_settled bounded
  exact ⟨_, run_awaitRest bounded, settled.now.trans time, settled.idle, settled.physical.trans place⟩

private theorem moved_given {p q : Platform} (settled : Settled a p q)
    (speed : (q.engine a).speed = Number.ofInt (move.hz.get a))
    (acceleration : (q.engine a).acceleration = move.acceleration.get a) (waiting : Waiting) :
    Given move a waiting p (attend waiting a (moved a (move.steps.get a) q))
      ((q.engine a).leg (move.steps.get a) q.now) := by
  have engine : (moved a (move.steps.get a) q).engine a = (q.engine a).started (move.steps.get a) q.now :=
    Platform.commit_engine _ _ _
  have motion := engine ▸ Engine.started_motion (move.steps.get a) q.now (q.engine a)
  refine ⟨settled.now, settled.physical, rfl, speed, acceleration, ?_, ?_⟩
  · rintro rfl
    exact motion
  · rintro rfl
    have awaited := Platform.awaited_settled (Engine.bounded_of_move motion)
    refine ⟨awaited.now.trans ?_, awaited.idle, awaited.physical.trans ?_⟩
    · have now : (moved a (move.steps.get a) q).now = q.now := Platform.commit_now _ _ _
      have time : ((moved a (move.steps.get a) q).engine a).restTime =
          ((q.engine a).leg (move.steps.get a) q.now).finish := by
        simp [Engine.restTime, motion]
      rw [now, time]
      exact max_eq_right (Nat.le_add_right _ _)
    · rw [engine]
      rfl

/-- Whatever the settings are, each move that a plan starts is waited for until its end, where it has made
all its steps. Whether that end is a time of 64 bits depends on the acceleration, which may be any number
above zero. -/
theorem planned_move_ends (made : course.plan store position mm feed = .ok plan)
    (some_steps : plan.move.steps.get a ≠ 0)
    (ran : (launch plan.move a waiting).run d = (.ok (), d')) :
    ∃ m, Given plan.move a waiting d.platform d'.platform m ∧ Concludes a m d' ∧ m.Timely ∧
      (m.start < 2 ^ 63 → 2 ^ (-52 : ℤ) ≤ Number.rational m.acceleration → m.finish < 2 ^ 64) := by
  obtain ⟨q, settled, speed, acceleration, left⟩ := launch_moved some_steps ran
  obtain ⟨A, posed⟩ := Course.plan_posed made some_steps
  have given := left ▸ moved_given settled speed acceleration waiting
  have timely := Engine.leg_timely (acceleration.symm ▸ posed) speed q.now
  exact ⟨_, given, given_concludes given, timely, fun half => timely.finish_lt half posed.steps.2⟩

def sluggish : Setting.Store := Machine.factory (.acceleration .left) "1e-30"

def creeping : Plan where
  move := ⟨⟨1250, 2500, 0⟩, ⟨417, 417, 0⟩, ⟨Units.stepAcceleration (Number.widen 1e-30) 250, 2500, 0⟩⟩
  feed := 100

def begun : Drives :=
  let d := fresh (.fresh ⟨26, 14, 17⟩ (-2000))
  { d with platform := d.platform.advance 1 }

def crept : Drives := ((launch creeping.move .left .unattended).run begun).2

def crawl : Hardware.Move :=
  ⟨1, 0, 1250, Number.ofInt 417, Units.stepAcceleration (Number.widen 1e-30) 250, 2 ^ 64 - 1⟩

private theorem creeping_planned : (Course.drive .forwardLeft).plan sluggish 0 10 100 = .ok creeping := by
  decide +kernel

private theorem creeping_ran : (launch creeping.move .left .unattended).run begun = (.ok (), crept) := by
  refine run_eq_of_result ?_
  decide +kernel

private theorem crept_motion : (crept.platform.engine .left).motion = .move crawl := by decide +kernel

theorem creeping_ends_late :
    creeping.move.steps.get .left ≠ 0 ∧ (crept.platform.engine .left).motion = .move crawl ∧
      crawl.start = 1 ∧ 2 ^ 64 ≤ crawl.finish := by
  have some_steps : creeping.move.steps.get .left ≠ 0 := by decide
  obtain ⟨m, given, _, timely, _⟩ := planned_move_ends creeping_planned some_steps creeping_ran
  obtain rfl : crawl = m := by
    have motion := given.unattended rfl
    rw [crept_motion] at motion
    exact Hardware.Motion.move.inj motion
  have low : Number.rational crawl.acceleration ≤ 1 / 10 ^ 27 := by decide +kernel
  have pos : 0 < Number.rational crawl.acceleration := by decide +kernel
  have slow : (4 * 10 ^ 12 * 1250 / (1 / 10 ^ 27) : ℚ) ≤ crawl.swing := by
    unfold Hardware.Move.swing Hardware.Profile.swing
    gcongr
    exact le_rfl
  refine ⟨some_steps, crept_motion, rfl, timely.late (by decide) (by decide) ?_⟩
  have start : ((crawl.start : ℕ) : ℚ) = 1 := Nat.cast_one
  rw [start]
  norm_num [Hardware.slack] at slow ⊢
  linarith

/-- The end of a move need not be a time of 64 bits, however soon after the clock began it started. -/
theorem planned_move_outlasts :
    ¬ ∀ (store : Setting.Store) (course : Course) (position : Int) (mm feed : Float) (plan : Plan)
      (a : Axis) (waiting : Waiting) (d d' : Drives) (m : Hardware.Move),
      course.plan store position mm feed = .ok plan →
      (launch plan.move a waiting).run d = (.ok (), d') →
      Given plan.move a waiting d.platform d'.platform m → m.start < 2 ^ 63 → m.finish < 2 ^ 64 := by
  intro ends
  have given : Given creeping.move .left .unattended begun.platform crept.platform crawl :=
    ⟨by decide +kernel, by decide +kernel, rfl, rfl, rfl, fun _ => crept_motion, nofun⟩
  have finish := ends _ _ _ _ _ _ _ _ _ _ _ creeping_planned creeping_ran given (by decide)
  exact absurd finish (by decide)

end Drives

end Crawler

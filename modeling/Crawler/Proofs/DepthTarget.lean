import Crawler.Proofs.Envelope
import Crawler.Proofs.Sequence

/-! Where a depth move ends that is commanded while another move of the depth axis is in flight. The
target is checked from the position at the time of planning, but the move starts only when the other
one is over, so it ends further by what that one had left. -/
namespace Crawler.Drives

open Crawler.Action
open Hardware (Platform Engine)

variable {store : Setting.Store} {mm feed : Float} {d d' : Drives} {receipt : Receipt}

private theorem position_of_over {a : Axis} (bounded : (d.platform.engine a).Bounded)
    (past : (d.platform.engine a).restTime ≤ d.platform.now) :
    d.position a = (d.platform.engine a).restPosition := by
  unfold position Platform.position Engine.positionAt Engine.restPosition
  rw [Engine.absoluteAt_of_over bounded past]

/-- A depth move is waited for, since no other axis has steps to make. -/
theorem depth_idle (commanded : (depth store mm feed).run d = (.ok receipt, d')) :
    (d'.platform.engine .z).motion = .idle := by
  obtain ⟨plan, _, made, _, carried⟩ := depth_carried commanded
  obtain ⟨settings, steps, basis, rfl⟩ := Plan.ofDepth_ok made
  obtain ⟨rfl, issued_all⟩ := carryOut_issued carried
  have led : leadAxis (Plan.ofHead settings feed steps).move.steps = .z := leadAxis_depth steps
  rw [← led]
  exact issuedAll_idle issued_all (issued_ordered _) (led ▸ mem_issued.mpr basis.some_steps)

/-- A depth move ends its steps beyond the place where the depth axis would have come to rest. With
soft limits it can miss the limit by no more than what the move in flight had left. -/
theorem depth_beyond_rest (bounded : Platform.Bounded d.platform)
    (commanded : (depth store mm feed).run d = (.ok receipt, d')) :
    (d'.platform.engine .z).motion = .idle ∧
      d'.position .z = (d.platform.engine .z).restPosition + receipt.move.steps.z ∧
      ((d.platform.engine .z).restTime ≤ d.platform.now →
        d'.position .z = d.position .z + receipt.move.steps.z) ∧
      (store.flag .softLimits = .ok true → ∃ travel scale, store.float (.maxTravel .z) = .ok travel ∧
        store.float (.stepsPerMm .z) = .ok scale ∧
        ((d'.position .z).natAbs : Int) ≤ Units.toSteps (Number.nearest (travel * scale)) +
          ((d.platform.engine .z).restPosition - d.position .z).natAbs) := by
  obtain ⟨plan, lead, made, same, carried⟩ := depth_carried commanded
  have idle := depth_idle commanded
  have reached : d'.position .z = (d.platform.engine .z).restPosition + receipt.move.steps.z := by
    rw [position_of_idle idle, same]
    exact carryOut_restPosition bounded carried .z
  refine ⟨idle, reached, fun past => ?_, fun limited => ?_⟩
  · rw [reached, position_of_over (bounded .z) past]
  · obtain ⟨travel, scale, travelled, scaled, within⟩ := Plan.ofDepth_within made limited
    refine ⟨travel, scale, travelled, scaled, ?_⟩
    rw [← same] at within
    omega

def plunge : JointMove := ⟨⟨45000, 0, 40000⟩, ⟨45000, 0, 1000⟩, ⟨0, 0, 0⟩⟩

def plunging : Drives := ((carryOut plunge).run (fresh (.fresh ⟨26, 14, 17⟩ (-2000)))).2

def limited : Setting.Store := Machine.factory .softLimits "1"

def plunged : Drives := ((depth limited 100 500).run plunging).2

private theorem plunging_bounded : Platform.Bounded plunging.platform := by
  intro a
  cases a <;> decide +kernel

private theorem plunging_accepted :
    ∃ receipt, (depth limited 100 500).run plunging = (.ok receipt, plunged) ∧
      receipt.move.steps.z = 25000 := by
  have accepted : ((depth limited 100 500).run plunging).1.map (·.move.steps.z) = .ok 25000 := by
    decide +kernel
  cases answered : ((depth limited 100 500).run plunging).1 with
  | error fault =>
    rw [answered] at accepted
    cases accepted
  | ok receipt =>
    rw [answered] at accepted
    exact ⟨receipt, run_eq_of_result answered, Except.ok.inj accepted⟩

/-- The target that is checked is 26000, and the limit is 50000. -/
theorem plunging_beyond_rest :
    plunging.position .z = 1000 ∧ (plunged.platform.engine .z).motion = .idle ∧
      plunged.position .z = 65000 ∧ limited.flag .softLimits = .ok true ∧
      limited.float (.maxTravel .z) = .ok 200 ∧ limited.float (.stepsPerMm .z) = .ok 250 := by
  obtain ⟨receipt, commanded, steps⟩ := plunging_accepted
  obtain ⟨idle, reached, _, _⟩ := depth_beyond_rest plunging_bounded commanded
  have rest : (plunging.platform.engine .z).restPosition = 40000 := by decide +kernel
  refine ⟨by decide +kernel, idle, ?_, by decide +kernel, by decide +kernel, by decide +kernel⟩
  rw [reached, rest, steps]
  rfl

/-- The target that is checked need not be the one that is reached. -/
theorem depth_target_missed :
    ¬ ∀ (store : Setting.Store) (mm feed : Float) (d d' : Drives) (receipt : Receipt),
      Platform.Bounded d.platform → (depth store mm feed).run d = (.ok receipt, d') →
      d'.position .z = d.position .z + receipt.move.steps.z := by
  intro reaches
  obtain ⟨receipt, commanded, steps⟩ := plunging_accepted
  have reached := reaches limited 100 500 plunging plunged receipt plunging_bounded commanded
  have before : plunging.position .z = 1000 := by decide +kernel
  have after : plunged.position .z = 65000 := by decide +kernel
  rw [before, after, steps] at reached
  omega

end Crawler.Drives

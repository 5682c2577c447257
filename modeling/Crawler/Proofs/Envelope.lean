import Crawler.Proofs.Run

/-! The soft limits of the depth axis. A depth move is checked against the position at which it is
planned; since the axis is at rest between any two commands, that is where the move starts, and the
move is waited for, so the axis is at the planned target when the command returns. -/
namespace Crawler

open Crawler.Action
open Hardware (Platform Engine)
open Hardware.Platform (Sound)

theorem Drives.depth_carried {store : Setting.Store} {mm feed : Float} {d d' : Drives} {receipt : Receipt}
    (commanded : (Drives.depth store mm feed).run d = (.ok receipt, d')) :
    ∃ plan lead, Plan.ofDepth store (d.position .z) mm feed = .ok plan ∧ receipt.move = plan.move ∧
      (Drives.carryOut plan.move).run d = (.ok lead, d') := by
  unfold Drives.depth at commanded
  rw [run_bind_ok (run_read d)] at commanded
  obtain ⟨plan, _, planned, carried⟩ := run_bind_eq_ok.mp commanded
  obtain ⟨made, rfl⟩ := run_ofExcept_eq_ok.mp planned
  obtain ⟨lead, _, carried, answered⟩ := run_bind_eq_ok.mp carried
  cases answered
  exact ⟨plan, lead, made, rfl, carried⟩

private theorem Drives.depth_ok {store : Setting.Store} {mm feed : Float} {d d' : Drives}
    {receipt : Receipt}
    (sound : Sound d.platform) (moved : (Drives.depth store mm feed).run d = (.ok receipt, d')) :
    ∃ plan, Plan.ofDepth store (d.position .z) mm feed = .ok plan ∧ receipt.move = plan.move ∧
      Sound d'.platform ∧ d'.position .z = d.position .z + receipt.move.steps.z := by
  have after := Drives.depth_sound store mm feed d sound
  rw [moved] at after
  obtain ⟨plan, lead, made, same, carried⟩ := Drives.depth_carried moved
  refine ⟨plan, made, same, after, ?_⟩
  rw [Drives.position_of_idle sound.rests, Drives.position_of_idle after.rests, same]
  exact Drives.carryOut_restPosition (Platform.sound_bounded sound) carried .z

namespace Machine

variable {m m' : Machine}

/-- What a command for a motion answers, the motion answered, and afterwards the drives were left alone
or waited for. -/
theorem motion_ok {command : Command} {motion : Action Drives MotionFault Receipt} {receipt : Receipt}
    (asked : command.motion? m.store = some motion)
    (moved : (execute command).run m = (.ok (.motion receipt), m')) :
    ∃ d, motion.run m.drives = (.ok receipt, d) ∧
      (m'.drives = d ∨ m'.drives = (Drives.awaitAll.run d).2) := by
  obtain ⟨console, answered⟩ := execute_motion asked
  rw [answered] at moved
  rcases run_gated motion m with ⟨fault, s, refused⟩ | ⟨result, d, d', outcome, s, ran, waited, ended, same⟩
  · rw [refused] at moved
    cases moved
  · rw [ended] at moved
    rcases same with same | ⟨_, fault, same⟩
    · rw [same] at moved
      cases result with
      | error fault => cases moved
      | ok other =>
        cases moved
        exact ⟨d, ran, waited⟩
    · rw [same] at moved
      cases moved

private theorem depth_ok {request : DepthRequest} {receipt : Receipt} (sound : Sound m.drives.platform)
    (moved : (execute (.depth request)).run m = (.ok (.motion receipt), m')) :
    ∃ plan, Plan.ofDepth m.store (m.drives.position .z) request.step request.speed = .ok plan ∧
      receipt.move = plan.move ∧ (m'.drives.platform.engine .z).motion = .idle ∧
      m'.drives.position .z = m.drives.position .z + receipt.move.steps.z := by
  obtain ⟨d, moved, waited⟩ := motion_ok rfl moved
  obtain ⟨plan, made, same, after, reached⟩ := Drives.depth_ok sound moved
  refine ⟨plan, made, same, ?_⟩
  rcases waited with alone | waited
  · rw [alone]
    exact ⟨after.rests, reached⟩
  · have bounded := Platform.sound_bounded after
    rw [Drives.run_awaitAll bounded] at waited
    have idle := Drives.atRest_idle bounded .z
    rw [waited, ← reached, Drives.position_of_idle after.rests, Drives.position_of_idle idle]
    exact ⟨idle, Drives.atRest_restPosition bounded .z⟩

/-- Whatever happened to a machine before, with soft limits a depth move ends at rest, exactly its
steps further and not beyond the travel that is set. -/
theorem depth_within_limits {store : Setting.Store} {pins : PerAxis Nat} {trigger : Int}
    {output : Hardware.SpindleOutput} {limits : Homing.Limits} {console : Console}
    {stimuli : List Stimulus} {request : DepthRequest} {receipt : Receipt}
    (reached : (run stimuli (fresh store (.fresh pins trigger) output limits console)).2 = m)
    (limited : m.store.flag .softLimits = .ok true)
    (moved : (execute (.depth request)).run m = (.ok (.motion receipt), m')) :
    (m'.drives.platform.engine .z).motion = .idle ∧
      m'.drives.position .z = m.drives.position .z + receipt.move.steps.z ∧
      ∃ travel scale, m.store.float (.maxTravel .z) = .ok travel ∧
        m.store.float (.stepsPerMm .z) = .ok scale ∧
        ((m'.drives.position .z).natAbs : Int) ≤
          Units.toSteps (Number.nearest (travel * scale)) := by
  have intact : Intact (fun _ => True) m := reached ▸ run_intact Spindle.true_kept trivial stimuli
  obtain ⟨plan, made, same, rests, moved⟩ := depth_ok intact.sound moved
  obtain ⟨travel, scale, travelled, scaled, within⟩ := Plan.ofDepth_within made limited
  refine ⟨rests, moved, travel, scale, travelled, scaled, ?_⟩
  rw [moved, same]
  exact within

def Response.isMotion : Except Fault Response → Bool
  | .ok (.motion _) => true
  | _ => false

private theorem Response.isMotion_iff {result : Except Fault Response} :
    isMotion result = true ↔ ∃ receipt, result = .ok (.motion receipt) := by
  constructor
  · intro moved
    unfold isMotion at moved
    split at moved
    · exact ⟨_, rfl⟩
    · cases moved
  · rintro ⟨receipt, rfl⟩
    rfl

def approach : List Stimulus :=
  [.command (.drive ⟨.forward, 300, 20⟩), .advance 1000, .command (.depth ⟨500, 150⟩)]

def lowered : Machine := (run approach bench).2

def further : DepthRequest := ⟨500, 50⟩

private theorem lowered_limited : lowered.store.flag .softLimits = .ok true := by decide +kernel

/-- The move that reaches the limit exactly is still carried out. -/
theorem further_within_limits :
    ∃ receipt m', (execute (.depth further)).run lowered = (.ok (.motion receipt), m') ∧
      (m'.drives.platform.engine .z).motion = .idle ∧
      m'.drives.position .z = lowered.drives.position .z + receipt.move.steps.z ∧
      ∃ travel scale, lowered.store.float (.maxTravel .z) = .ok travel ∧
        lowered.store.float (.stepsPerMm .z) = .ok scale ∧
        ((m'.drives.position .z).natAbs : Int) ≤
          Units.toSteps (Number.nearest (travel * scale)) := by
  have reached : (run approach bench).2 = lowered := rfl
  have answered : Response.isMotion ((execute (.depth further)).run lowered).1 = true := by
    decide +kernel
  obtain ⟨receipt, same⟩ := Response.isMotion_iff.mp answered
  have moved := run_eq_of_result same
  exact ⟨receipt, _, moved, depth_within_limits reached lowered_limited moved⟩

end Machine

end Crawler

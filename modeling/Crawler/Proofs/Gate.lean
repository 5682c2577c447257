import Crawler.Proofs.Legibility
import Crawler.Proofs.Stoppage

/-! The gate of a laser. A motion powers a laser before it starts, if the operator has switched it on, and
takes the power when no axis is in motion any more, whether the motion was carried out or refused. -/
namespace Crawler

open Crawler.Action

namespace Machine

open Hardware (Platform)
open Hardware.Platform (Sound)
open Spindle (InStep Dark)

variable {m : Machine} {motion : Action Drives MotionFault Receipt}
  {settings : Setting.SpindleSnapshot}

section Gated

def carryLit (motion : Action Drives MotionFault Receipt) :
    Action Machine Fault (Setting.SpindleSnapshot × Except MotionFault Receipt) := do
  let settings ← readStore Spindle.settings
  (onSpindle (Spindle.beforeMove settings)).mapError .motion
  let result ← (onDrives motion).attempt
  if settings.laserMode then
    let _ ← awaitRest.attempt
  return (settings, result)

def douse (settings : Setting.SpindleSnapshot) (result : Except MotionFault Receipt) :
    Action Machine Fault Receipt := do
  (onSpindle (Spindle.afterMove settings)).mapError .motion
  .ofExcept (result.mapError .motion)

private theorem gated_eq (motion : Action Drives MotionFault Receipt) :
    gated motion = carryLit motion >>= fun (settings, result) => douse settings result := by
  unfold gated carryLit
  simp only [bind_assoc]
  congr! 7 with settings _ result
  split <;> simp [douse]

/-- How things stand before the power is taken: no axis is in motion, each is where it was headed when the
motion ended, and the output was not switched off. -/
structure Carried (motion : Action Drives MotionFault Receipt) (m done : Machine) : Prop where
  idle : ∀ a, (done.drives.platform.engine a).motion = .idle
  arrived : ∀ a, (done.drives.platform.engine a).restPosition =
    ((motion.run m.drives).2.platform.engine a).restPosition
  lit : ∃ ons, done.spindle.output.switching = m.spindle.output.switching ++ ons ∧ ∀ on ∈ ons, on = true

private theorem beforeMove_lit {s lit : Spindle}
    (ran : (Spindle.beforeMove settings).run s = (.ok (), lit)) :
    ∃ ons, lit.output.switching = s.output.switching ++ ons ∧ ∀ on ∈ ons, on = true := by
  have powered := Spindle.beforeMove_ok ran
  split at powered
  · exact powered.switchings
  · rw [powered]
    exact ⟨[], (List.append_nil _).symm, nofun⟩

private theorem run_carryLit (intact : Intact InStep m)
    (sound : Preserves (fun d => Sound d.platform) motion)
    (asked : Spindle.settings m.store = .ok settings) (laser : settings.laserMode = true) :
    ∃ done, (carryLit motion).run m = (.ok (settings, (motion.run m.drives).1), done) ∧
      Carried motion m done ∧ done.spindle.InStep := by
  obtain ⟨lit, before, _⟩ := Spindle.beforeMove_reliable intact.spindle.reliable settings
  have inStep := Spindle.inStep_kept.beforeMove settings m.spindle intact.spindle
  rw [before] at inStep
  cases moved : motion.run m.drives with
  | mk result d =>
    have held := sound m.drives intact.sound
    rw [moved] at held
    have bounded := Platform.sound_bounded held
    let left : Machine := { m with drives := d, spindle := lit }
    let done : Machine := { left with drives := { d with platform := Drives.atRest d.platform } }
    have waited : (awaitRest.attempt : Action Machine Fault _).run left = (.ok (.ok ()), done) :=
      run_attempt_eq (run_mapError_eq_ok.mpr (run_onDrives (Drives.run_awaitAll bounded)))
    have carried := run_attempt_eq (δ := Fault) (run_onDrives (m := { m with spindle := lit }) moved)
    refine ⟨done, ?_, ⟨Drives.atRest_idle bounded, fun a => ?_, beforeMove_lit before⟩, inStep⟩
    · unfold carryLit
      rw [run_bind_ok (readStore_ok asked), run_bind_ok (run_onSpindle before), run_bind_ok carried]
      dsimp only
      rw [if_pos laser, run_bind_ok waited]
      rfl
    · rw [moved]
      exact Drives.atRest_restPosition bounded a

private theorem run_douse (inStep : m.spindle.InStep) (laser : settings.laserMode = true)
    (result : Except MotionFault Receipt) :
    ∃ s, (douse settings result).run m = (result.mapError .motion, { m with spindle := s }) ∧
      s.output.enabled = false := by
  obtain ⟨s, after, _⟩ := Spindle.afterMove_reliable inStep.reliable settings
  have taken := Spindle.afterMove_ok after
  rw [if_pos laser] at taken
  refine ⟨s, ?_, (Spindle.brought_inStep taken inStep.level).trans taken.level⟩
  unfold douse
  rw [run_bind_ok (run_onSpindle after)]
  rfl

end Gated

section Unread

structure Unmoved (m : Machine) : Prop where
  tracks : ∀ a ≠ .z, (m.drives.platform.engine a).motion = .idle
  dark : Dark (.fresh none) m.spindle

/-- As long as the settings of the spindle cannot be read, no command but homing moves anything. -/
theorem respond_unmoved {fault : Setting.Fault} {stimulus : Stimulus}
    (unread : Spindle.settings m.store = .error fault) (unmoved : Unmoved m) :
    Unmoved ((respond stimulus).run m).2 := by
  by_cases moving : ∃ command motion, stimulus = .command command ∧ command.motion? m.store = some motion
  · obtain ⟨command, motion, rfl, asked⟩ := moving
    obtain ⟨console, ran⟩ := execute_motion asked
    rw [respond_command, ran, gated_unread unread]
    exact ⟨unmoved.tracks, unmoved.dark⟩
  by_cases switched : ∃ request, stimulus = .command (.spindle request)
  · obtain ⟨request, rfl⟩ := switched
    rw [run_command .spindle rfl m]
    unfold useSpindle
    rw [run_bind_error (readStore_error unread)]
    exact unmoved
  refine ⟨fun a track => ?_,
    respond_dark (fun request same => absurd ⟨request, same⟩ switched) m unmoved.dark⟩
  by_cases homing : stimulus = .command .home
  · subst homing
    rw [run_command .homed rfl m, (home_elsewhere m a track).1]
    exact unmoved.tracks a track
  by_cases stopping : stimulus = .command .emergencyStop
  · subst stopping
    exact ((emergencyStop_halted m).axes a).idle
  exact respond_resting Hardware.Engine.idle_resting homing stopping
    (fun command motion same asked => moving ⟨command, motion, same, asked⟩) (unmoved.tracks a track)

def Guarded (m : Machine) : Prop := (∃ settings, Spindle.settings m.store = .ok settings) ∨ Unmoved m

private theorem respond_guarded {stimulus : Stimulus} (orderly : stimulus.Orderly m) (guarded : Guarded m) :
    Guarded ((respond stimulus).run m).2 := by
  cases asked : Spindle.settings m.store with
  | ok settings => exact .inl (respond_settings orderly ⟨settings, asked⟩)
  | error fault =>
    rcases guarded with ⟨_, read⟩ | unmoved
    · cases read.symm.trans asked
    · exact .inr (respond_unmoved asked unmoved)

private theorem run_guarded {stimuli : List Stimulus} (orderly : Orderly stimuli m) (guarded : Guarded m) :
    Guarded (run stimuli m).2 := by
  induction stimuli generalizing m with
  | nil => exact guarded
  | cons stimulus rest ih => exact ih orderly.2 (respond_guarded orderly.1 guarded)

private theorem fresh_unmoved (store : Setting.Store) (pins : PerAxis Nat) (trigger : Int)
    (limits : Homing.Limits)
    (console : Console) : Unmoved (fresh store (.fresh pins trigger) (.fresh none) limits console) where
  tracks a _ := by cases a <;> rfl
  dark := ⟨rfl, ⟨[], rfl, nofun⟩, id⟩

end Unread

section Brackets

variable {command : Command}

/-- What a motion of a laser comes to, whether it is carried out or refused. No axis is in motion
afterwards and the output has no power; it was not powered at all unless the operator had switched it on.
Either nothing was done, or the power was taken after every move was over. -/
structure Bracketed (motion : Action Drives MotionFault Receipt) (m m' : Machine) : Prop where
  idle : ∀ a, (m'.drives.platform.engine a).motion = .idle
  dark : m'.spindle.output.enabled = false
  unlit : m.spindle.enabled = false → ∃ offs,
    m'.spindle.output.switching = m.spindle.output.switching ++ offs ∧ ∀ on ∈ offs, on = false
  ordered : (m'.drives = m.drives ∧ m'.spindle = m.spindle) ∨ ∃ settings done s console,
    (carryLit motion).run m = (.ok (settings, (motion.run m.drives).1), done) ∧ Carried motion m done ∧
      (douse settings (motion.run m.drives).1).run done =
        ((motion.run m.drives).1.mapError .motion, { done with spindle := s }) ∧
      m' = { done with spindle := s, console }

/-- Behind a gate that opens, a motion of a laser is over before the power is taken. -/
theorem gated_bracketed (intact : Intact InStep m) (sound : Preserves (fun d => Sound d.platform) motion)
    (asked : Spindle.settings m.store = .ok settings) (laser : settings.laserMode = true) :
    ∃ done s, (carryLit motion).run m = (.ok (settings, (motion.run m.drives).1), done) ∧
      Carried motion m done ∧ s.output.enabled = false ∧
      (douse settings (motion.run m.drives).1).run done =
        ((motion.run m.drives).1.mapError .motion, { done with spindle := s }) ∧
      ((gated motion).run m).2 = { done with spindle := s } := by
  obtain ⟨done, ran, carried, inStep⟩ := run_carryLit intact sound asked laser
  obtain ⟨s, doused, dark⟩ := run_douse inStep laser (motion.run m.drives).1
  refine ⟨done, s, ran, carried, dark, doused, ?_⟩
  rw [gated_eq, run_bind_ok ran]
  dsimp only
  rw [doused]

private theorem motion_dark (asked : command.motion? m.store = some motion)
    (off : m.spindle.enabled = false) :
    Dark m.spindle.output ((execute command).run m).2.spindle := by
  refine execute_dark (fun request same => ?_) ⟨off, ⟨[], (List.append_nil _).symm, nofun⟩, id⟩
  subst same
  cases asked

/-- In every state that a machine comes to, whatever becomes of a command for a motion with a laser, no
axis is in motion when it returns and the power is off, and the power is taken only when every move is
over, its own and the earlier ones. -/
theorem laser_bracketed {store : Setting.Store} {pins : PerAxis Nat} {trigger : Int}
    {limits : Homing.Limits} {console : Console} {stimuli : List Stimulus}
    (orderly : Orderly stimuli (fresh store (.fresh pins trigger) (.fresh none) limits console))
    (reached : (run stimuli (fresh store (.fresh pins trigger) (.fresh none) limits console)).2 = m)
    (asked : command.motion? m.store = some motion) (laser : m.store.flag .laserMode = .ok true) :
    Bracketed motion m ((execute command).run m).2 := by
  have begun : InStep (.fresh (.fresh none)) := ⟨rfl, rfl⟩
  have intact : Intact InStep m := reached ▸ run_intact Spindle.inStep_kept begun stimuli
  have guarded : Guarded m :=
    reached ▸ run_guarded orderly (.inr (fresh_unmoved store pins trigger limits console))
  have unlit (off : m.spindle.enabled = false) := (motion_dark asked off).switching
  obtain ⟨console, ran⟩ := execute_motion asked
  have left := congrArg Prod.snd ran
  cases read : Spindle.settings m.store with
  | error fault =>
    rcases guarded with ⟨_, also⟩ | unmoved
    · cases also.symm.trans read
    · rw [gated_unread read] at left
      rw [left] at unlit ⊢
      refine ⟨fun a => ?_, ?_, unlit, .inl ⟨rfl, rfl⟩⟩
      · by_cases track : a = .z
        · rw [track]
          exact intact.sound.rests
        · exact unmoved.tracks a track
      · exact Bool.eq_false_iff.mpr fun on => nomatch unmoved.dark.output on
  | ok settings =>
    have mode : settings.laserMode = true := by
      rw [Spindle.settings_laser read] at laser
      exact Except.ok.inj laser
    obtain ⟨done, s, ran, carried, dark, doused, taken⟩ :=
      gated_bracketed intact (motion_driven Homing.Station.sound_kept.toDriven asked m.phase) read mode
    rw [taken] at left
    rw [left] at unlit ⊢
    exact ⟨carried.idle, dark, unlit, .inr ⟨settings, done, s, console, ran, carried, doused, rfl⟩⟩

def engraving : List Stimulus :=
  [.command (.drive ⟨.forward, 300, 2⟩), .command (.enterSetting .laserMode "1"),
    .command (.spindle ⟨some true, none⟩)]

def engraved : Machine := (run engraving bench).2

/-- The tool head takes less time than the tracks that are still on their way, and the laser has power
until they are there. -/
theorem engraved_bracketed :
    let m := ((execute (.depth ⟨200, 0.1⟩)).run engraved).2
    (engraved.drives.platform.engine .left).motion ≠ .idle ∧ engraved.spindle.output.switching = [] ∧
      (m.drives.platform.engine .left).motion = .idle ∧ m.drives.position .left = 500 ∧
      m.spindle.output.enabled = false ∧ m.spindle.output.switching = [true, false] := by
  intro m
  have orderly : Orderly engraving bench := ⟨trivial, trivial, trivial, trivial⟩
  have reached : (run engraving bench).2 = engraved := rfl
  have laser : engraved.store.flag .laserMode = .ok true := by decide +kernel
  have bracketed : Bracketed (Drives.depth engraved.store 0.1 200) engraved m :=
    laser_bracketed orderly reached rfl laser
  have before : (engraved.drives.platform.engine .left).motion ≠ .idle ∧
      engraved.spindle.output.switching = [] := by decide +kernel
  have after : m.drives.position .left = 500 ∧ m.spindle.output.switching = [true, false] := by
    decide +kernel
  exact ⟨before.1, before.2, bracketed.idle .left, after.1, bracketed.dark, after.2⟩

end Brackets

end Machine

end Crawler

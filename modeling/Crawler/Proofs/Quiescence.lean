import Crawler.Proofs.Frame

/-! Quiescence. Only homing watches the limit switch, and however it ends it hands the switch and the
homing flag back; a switch without a handler is served to nobody, whatever happens in between. -/
namespace Crawler.Hardware.Platform

open Crawler.Action

structure Unwatched (p : Platform) : Prop where
  disarmed : p.limit.armed = none
  lowered : p.homingSignal = false

variable {p : Platform}

private theorem advance_unwatched (unwatched : Unwatched p) (us : Nat) : Unwatched (p.advance us) := by
  rw [advance_unarmed us unwatched.disarmed]
  exact ⟨unwatched.disarmed, unwatched.lowered⟩

private theorem advanceUntil_unwatched (unwatched : Unwatched p) (us : Nat) :
    Unwatched (p.advanceUntil us) := by
  refine advanceUntil_keeps us (fun us _ unwatched => ?_) unwatched
  exact advance_unwatched unwatched us

private theorem retire_unwatched (unwatched : Unwatched p) (a : Axis) : Unwatched (p.retire a) := by
  exact ⟨unwatched.disarmed, unwatched.lowered⟩

private theorem engage_unwatched {α : Type} (a : Axis) (op : Nat → Engine → Engine.Outcome α) :
    Preserves Unwatched (engage a op) := by
  intro p unwatched
  rw [run_engage]
  refine ⟨?_, ?_⟩
  · rw [commit_limit]
    exact unwatched.disarmed
  · rw [commit_homingSignal]
    exact unwatched.lowered

theorem unwatched_impassive : Drives.Impassive Unwatched where
  engaged a op _ := engage_unwatched a op
  retired a _ unwatched := retire_unwatched unwatched a
  advanced us _ unwatched := advance_unwatched unwatched us

theorem disturbed_unwatched {f : Platform → Platform} (disturbance : Disturbance f)
    (unwatched : Unwatched p) : Unwatched (f p) := by
  cases disturbance with
  | advance us => exact advance_unwatched unwatched us
  | advanceUntil us => exact advanceUntil_unwatched unwatched us
  | failNext a reason => exact ⟨unwatched.disarmed, unwatched.lowered⟩
  | overrideLevel level => exact ⟨unwatched.disarmed, unwatched.lowered⟩
  | edge =>
    change Unwatched (p.serve true)
    rwa [serve_unarmed unwatched.disarmed]

end Crawler.Hardware.Platform

namespace Crawler.Homing

open Crawler.Action
open Hardware (Platform)
open Hardware.Platform (Unwatched)

def Phase.IsFinal (phase : Phase) : Prop := phase = .idle ∨ phase = .homed ∨ phase = .faulted

namespace Station

structure Concluded (s : Station) : Prop where
  unwatched : Unwatched s.drives.platform
  phase : s.phase.IsFinal

variable {s t : Station} {limits : Limits} {parameters : Parameters}

private theorem sequence_unwatched {report : Report}
    (ran : (sequence limits parameters).run s = (.ok report, t)) : Unwatched t.drives.platform := by
  obtain ⟨p, ended⟩ := sequence_ends ran
  rw [ended]
  exact ⟨rfl, rfl⟩

/-- However homing ends, nothing of it is left: a sequence that succeeds takes back the handler and the
flag at its end, and one that fails is abandoned, which does the same. -/
theorem home_concluded (limits : Limits) (store : Setting.Store) :
    Preserves Concluded (home limits store) := by
  have entered : Preserves Concluded (enter .idle) := fun _ concluded =>
    ⟨concluded.unwatched, .inl rfl⟩
  have lowered : Preserves Concluded (setFlag false) := fun _ concluded =>
    ⟨⟨concluded.unwatched.disarmed, rfl⟩, concluded.phase⟩
  refine preserves_bind entered fun _ => preserves_bind lowered fun _ => ?_
  intro s concluded
  cases Parameters.load store with
  | error fault => exact ⟨concluded.unwatched, .inr (.inr rfl)⟩
  | ok parameters =>
    cases ran : (sequence limits parameters).run s with
    | mk result t =>
      dsimp only
      rw [run_bind_ok (run_attempt_eq ran)]
      cases result with
      | ok report =>
        have unwatched := sequence_unwatched ran
        exact ⟨unwatched, .inr (.inl rfl)⟩
      | error fault =>
        dsimp only
        rw [run_bind_ok (run_abandon t)]
        exact ⟨⟨rfl, rfl⟩, .inr (.inr rfl)⟩

private theorem concluded_driven : Driven Concluded := by
  have parts : Concluded = fun s => Unwatched s.drives.platform ∧ s.phase.IsFinal :=
    funext fun _ => propext ⟨fun concluded => ⟨concluded.unwatched, concluded.phase⟩,
      fun concluded => ⟨concluded.1, concluded.2⟩⟩
  rw [parts]
  exact driven_of_impassive Platform.unwatched_impassive
    (fun _ disturbance _ _ => Platform.disturbed_unwatched disturbance) Phase.IsFinal

theorem concluded_kept : Kept Concluded where
  toDriven := concluded_driven
  forced _ level _ concluded :=
    ⟨Platform.disturbed_unwatched (.overrideLevel level) concluded.unwatched, concluded.phase⟩
  emergencyStop _ d concluded :=
    ⟨Drives.emergencyStop_frame Platform.unwatched_impassive.frame d concluded.unwatched, concluded.phase⟩
  released _ concluded := ⟨⟨rfl, concluded.unwatched.lowered⟩, .inl rfl⟩
  home := home_concluded

end Station

end Crawler.Homing

namespace Crawler.Machine

open Crawler.Action
open Hardware (Platform)
open Hardware.Platform (Sound)
open Homing (Station)

/-- The state between two commands: the depth axis is at rest, no axis runs without end, and homing is
not under way. -/
structure Quiescent (m : Machine) : Prop where
  rests : (m.drives.platform.engine .z).motion = .idle
  bounded : Platform.Bounded m.drives.platform
  disarmed : m.drives.platform.limit.armed = none
  lowered : m.drives.platform.homingSignal = false
  phase : m.phase = .idle ∨ m.phase = .homed ∨ m.phase = .faulted

/-- Whatever a machine was asked for and whatever disturbed its hardware, it is quiescent afterwards,
so that waiting for it succeeds and leaves no axis in motion. -/
theorem run_quiescent (store : Setting.Store) (pins : PerAxis Nat) (trigger : Int)
    (output : Hardware.SpindleOutput) (limits : Homing.Limits) (console : Console)
    (stimuli : List Stimulus) :
    let m := (run stimuli (fresh store (.fresh pins trigger) output limits console)).2
    Quiescent m ∧ ∃ m', awaitRest.run m = (.ok (), m') ∧
      ∀ a, (m'.drives.platform.engine a).motion = .idle := by
  intro m
  have intact : Intact (fun _ => True) m := run_intact Spindle.true_kept trivial stimuli
  have held : Held Station.Concluded (fun _ => True) m :=
    run_held Station.concluded_kept Spindle.true_kept ⟨⟨rfl, rfl⟩, .inl rfl⟩ trivial stimuli
  have bounded := Platform.sound_bounded intact.sound
  refine ⟨⟨intact.sound.rests, bounded, held.station.unwatched.disarmed,
    held.station.unwatched.lowered, held.station.phase⟩, ?_⟩
  have waited := run_onDrives (m := m) (Drives.run_awaitAll bounded)
  exact ⟨_, run_mapError_eq_ok.mpr waited, Drives.atRest_idle bounded⟩

end Crawler.Machine

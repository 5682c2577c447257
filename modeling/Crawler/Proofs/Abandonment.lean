import Crawler.Proofs.Departure

/-! How homing that fails leaves the machine. Settings that do not allow it are found out before anything
is touched. From then on, whatever goes wrong, the axis is stopped last, and the switch and the flag are
taken back. -/
namespace Crawler

def HomingFault.OfSettings : HomingFault → Prop
  | .invalid _ | .settings _ => True
  | .notReached _ | .stillActive _ | .actuation _ => False

namespace Homing

open Crawler.Action
open Hardware (Platform Engine)

variable {store : Setting.Store} {fault : HomingFault} {limits : Limits} {parameters : Parameters}
  {s t : Station}

section Load

private theorem positive_error {key : Setting.Key} (failed : Parameters.positive store key = .error fault) :
    fault.OfSettings := by
  rcases except_bind_eq_error.mp failed with unread | ⟨_, _, unfit⟩
  · obtain ⟨_, _, rfl⟩ := except_mapError_eq_error.mp unread
    trivial
  · split at unfit <;> cases unfit
    trivial

private theorem load_error (failed : Parameters.load store = .error fault) : fault.OfSettings := by
  rcases except_bind_eq_error.mp failed with unfit | ⟨_, _, failed⟩
  · exact positive_error unfit
  rcases except_bind_eq_error.mp failed with unfit | ⟨_, _, failed⟩
  · exact positive_error unfit
  rcases except_bind_eq_error.mp failed with unfit | ⟨_, _, failed⟩
  · exact positive_error unfit
  rcases except_bind_eq_error.mp failed with unfit | ⟨_, _, failed⟩
  · exact positive_error unfit
  rcases except_bind_eq_error.mp failed with unread | ⟨_, _, failed⟩
  · obtain ⟨_, _, rfl⟩ := except_mapError_eq_error.mp unread
    trivial
  rcases except_guard_eq_error failed with negative | failed
  · cases negative
    trivial
  rcases except_guard_eq_error failed with slow | failed
  · cases slow
    trivial
  · cases failed

end Load

section Sequence

abbrev Mechanical {σ α : Type} (action : Action σ HomingFault α) : Prop :=
  Fails (fun fault => ¬ fault.OfSettings) action

variable {α : Type}

private theorem mechanical_onDrives (action : Action Drives Hardware.Fault α) :
    Mechanical (Station.onDrives action) := by
  refine fails_on (fails_mapError ?_ action)
  exact fun _ => id

private theorem mechanical_onPlatform {action : Action Platform HomingFault α} (fails : Mechanical action) :
    Mechanical (Station.onPlatform action) := by
  refine fails_on ?_
  exact fails_on fails

private theorem mechanical_seek (limits : Limits) (polls elapsed : Nat) :
    Mechanical (seek limits polls elapsed) := by
  intro p fault failed
  induction polls generalizing elapsed p with
  | zero =>
    cases flag : p.homingSignal with
    | true =>
      rw [seek_up 0 elapsed flag] at failed
      cases failed
    | false =>
      rw [seek_late elapsed flag] at failed
      cases failed
      exact id
  | succ polls ih =>
    cases flag : p.homingSignal with
    | true =>
      rw [seek_up _ elapsed flag] at failed
      cases failed
    | false =>
      rw [seek_poll polls elapsed flag] at failed
      exact ih _ _ failed

private theorem mechanical_release (left made : Nat) : Mechanical (release left made) := by
  intro p fault failed
  induction left generalizing made p with
  | zero =>
    cases active : p.switchActive with
    | false =>
      rw [release_clear 0 made active] at failed
      cases failed
    | true =>
      rw [release_stuck made active] at failed
      cases failed
      exact id
  | succ left ih =>
    cases active : p.switchActive with
    | false =>
      rw [release_clear _ made active] at failed
      cases failed
    | true =>
      cases ran : (Platform.step .z .forward).run p with
      | mk result q =>
        cases result with
        | ok _ =>
          rw [release_active left made active ran] at failed
          exact ih _ _ failed
        | error cause =>
          rw [release_refused left made active ran] at failed
          cases failed
          exact id

private theorem mechanical_sequence (limits : Limits) (parameters : Parameters) :
    Mechanical (Station.sequence limits parameters) := by
  have seekSwitch : Mechanical (Station.seekSwitch limits parameters) := by
    refine fails_bind (fails_modify _) fun _ => ?_
    refine fails_bind (mechanical_onDrives _) fun _ => ?_
    refine fails_bind (mechanical_onDrives _) fun _ => ?_
    refine fails_bind (mechanical_onDrives _) fun _ => ?_
    refine fails_bind (mechanical_onDrives _) fun _ => ?_
    refine fails_bind (mechanical_onPlatform (fails_mapError (fun _ => id) _)) fun _ => ?_
    refine fails_bind (mechanical_onDrives _) fun _ => ?_
    exact mechanical_onPlatform (mechanical_seek _ _ _)
  have debounce : Mechanical (Station.debounce parameters) := by
    refine fails_bind (fails_modify _) fun _ => ?_
    refine fails_bind (mechanical_onDrives _) fun _ => ?_
    refine fails_bind (mechanical_onDrives _) fun _ => ?_
    refine fails_bind (mechanical_onPlatform (fails_modify _)) fun _ => ?_
    exact mechanical_onDrives _
  have pullOff : Mechanical (Station.pullOff limits parameters) := by
    refine fails_bind (fails_modify _) fun _ => ?_
    refine fails_bind (mechanical_onPlatform (mechanical_release _ _)) fun _ => ?_
    refine fails_bind (mechanical_onDrives _) fun _ => ?_
    refine fails_bind (mechanical_onDrives _) fun _ => ?_
    refine fails_bind (mechanical_onPlatform (fails_modify _)) fun _ => ?_
    refine fails_bind (mechanical_onPlatform (fails_modify _)) fun _ => ?_
    exact fails_pure _
  refine fails_bind seekSwitch fun _ => ?_
  refine fails_bind debounce fun _ => ?_
  refine fails_bind pullOff fun _ => ?_
  exact fails_pure _

end Sequence

section Home

/-- Homing that fails is refused for its settings, or begun and abandoned. -/
theorem home_error (failed : (Station.home limits store).run s = (.error fault, t)) :
    Parameters.load store = .error fault ∧ t = ⟨{ s.drives with platform :=
        { s.drives.platform with homingSignal := false } }, .faulted⟩ ∨
      ∃ parameters u v, Parameters.load store = .ok parameters ∧
        u.drives.platform = { s.drives.platform with homingSignal := false } ∧
        (Station.sequence limits parameters).run u = (.error fault, v) ∧
        t = ⟨(Station.abandon.run v).2.drives, .faulted⟩ := by
  have cleared : (Station.setFlag false).run { s with phase := .idle } = (.ok (),
      ⟨{ s.drives with platform := { s.drives.platform with homingSignal := false } }, .idle⟩) := rfl
  have entered : (Station.enter .idle).run s = (.ok (), { s with phase := .idle }) := rfl
  unfold Station.home at failed
  rw [run_bind_ok entered, run_bind_ok cleared] at failed
  cases loaded : Parameters.load store with
  | error cause =>
    rw [loaded] at failed
    cases failed
    exact .inl ⟨rfl, rfl⟩
  | ok parameters =>
    rw [loaded] at failed
    dsimp only at failed
    cases ran : (Station.sequence limits parameters).run
        ⟨{ s.drives with platform := { s.drives.platform with homingSignal := false } }, .idle⟩ with
    | mk result v =>
      rw [run_bind_ok (run_attempt_eq ran)] at failed
      cases result with
      | ok report => cases failed
      | error cause =>
        dsimp only at failed
        rw [run_bind_ok (Station.run_abandon v)] at failed
        cases failed
        exact .inr ⟨parameters, _, v, rfl, rfl, ran, rfl⟩

structure Secured (p q : Platform) : Prop where
  idle : (q.engine .z).motion = .idle
  disarmed : q.limit.armed = none
  stopped : ∃ added seq, (q.log .z).toList = (p.log .z).toList ++ added ++ [⟨seq, q.now, .stopped⟩]

private theorem abandon_secured {p : Platform} {v : Station} {added : List Hardware.Event}
    (log : (v.drives.platform.log .z).toList = (p.log .z).toList ++ added) :
    Secured p (Station.abandon.run v).2.drives.platform := by
  rw [Station.run_abandon]
  set q := v.drives.platform
  set stopped := q.commit .z (Engine.stop q.now (q.engine .z))
  have now : stopped.now = q.now := Platform.commit_now _ _ _
  refine ⟨?_, rfl, added, q.eventCount, ?_⟩
  · change (stopped.engine .z).motion = .idle
    rw [Platform.commit_engine]
    rfl
  · change (stopped.log .z).toList = _ ++ [⟨q.eventCount, stopped.now, .stopped⟩]
    rw [now, ← log]
    exact Platform.commit_log _ _ _

/-- Homing that fails leaves the phase faulted and the flag down. If the settings do not allow it, that is
all it does. If it fails later, it leaves the axis stopped and the switch free. -/
theorem home_abandoned (failed : (Station.home limits store).run s = (.error fault, t)) :
    t.phase = .faulted ∧ t.drives.platform.homingSignal = false ∧
      (fault.OfSettings ↔ Parameters.load store = .error fault) ∧
      (fault.OfSettings → t.drives = { s.drives with platform :=
        { s.drives.platform with homingSignal := false } }) ∧
      (¬ fault.OfSettings → Secured s.drives.platform t.drives.platform) := by
  rcases home_error failed with ⟨refused, rfl⟩ | ⟨parameters, u, v, loaded, lowered, ran, rfl⟩
  · have settings := load_error refused
    exact ⟨rfl, rfl, iff_of_true settings refused, fun _ => rfl, fun other => absurd settings other⟩
  · have hardware : ¬ fault.OfSettings :=
      mechanical_sequence limits parameters u fault (congrArg Prod.fst ran)
    have accepted : Parameters.load store ≠ .error fault := by
      rw [loaded]
      exact nofun
    obtain ⟨_, ⟨added, log, _⟩, _⟩ := sequence_error (load_moves loaded) ran
    rw [lowered] at log
    exact ⟨rfl, by rw [Station.run_abandon], iff_of_false hardware accepted,
      fun settings => absurd settings hardware, fun _ => abandon_secured log⟩

def unfed : Setting.Store := Machine.factory .homingFeed "0"

def jamming : Station :=
  ⟨{ waiting.drives with platform := waiting.drives.platform.failNext .z "jam" }, .homed⟩

theorem jamming_abandoned :
    (Station.home Machine.bench.limits unfed).run jamming =
        (.error (.invalid .homingFeed), { jamming with phase := .faulted }) ∧
      ∃ t, (Station.home Machine.bench.limits Machine.bench.store).run jamming =
          (.error (.actuation (.moveRejected "z@gpio17" "jam")), t) ∧
        Secured jamming.drives.platform t.drives.platform := by
  obtain ⟨t, refused⟩ : ∃ t, (Station.home Machine.bench.limits unfed).run jamming =
      (.error (.invalid .homingFeed), t) := ⟨_, run_eq_of_result (by decide +kernel)⟩
  obtain ⟨u, rejected⟩ : ∃ u, (Station.home Machine.bench.limits Machine.bench.store).run jamming =
      (.error (.actuation (.moveRejected "z@gpio17" "jam")), u) :=
    ⟨_, run_eq_of_result (by decide +kernel)⟩
  obtain ⟨phase, _, _, untouched, _⟩ := home_abandoned refused
  obtain ⟨_, _, _, _, secured⟩ := home_abandoned rejected
  have left : t = { jamming with phase := .faulted } :=
    congrArg₂ Station.mk (untouched trivial) phase
  exact ⟨left ▸ refused, u, rejected, secured id⟩

end Home

end Homing

end Crawler

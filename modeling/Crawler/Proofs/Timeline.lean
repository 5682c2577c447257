import Crawler.Proofs.Departure

/-! What a homing cycle that succeeds logs, and when. The time of each entry follows from the time of the
call, the end of the move that was still in flight, the polls and the rest of the driver. Only the last
entry depends on how long a move takes. -/
namespace Crawler.Hardware

namespace Engine

variable (e : Engine) (now : Nat)

theorem enable_powered : (enable e).engine = { e with enabled := true } := by
  unfold enable
  split
  · next powered =>
    cases e
    cases powered
    rfl
  · rfl

theorem enable_occurrence :
    (enable e).occurrence = if e.enabled then none else some .enabled := by
  unfold enable
  split <;> rfl

theorem disable_occurrence :
    (disable now e).occurrence = if e.enabled then some .disabled else none := by
  unfold disable
  dsimp only [freeze]
  split <;> rfl

theorem disable_unpowered :
    (disable now e).engine = { e.freeze now with enabled := false } := by
  unfold disable
  dsimp only
  split
  · rfl
  · next off =>
    have off : e.enabled = false := by simpa [freeze] using off
    unfold freeze
    rw [off]

variable {e now}

theorem step_ok {direction : Sense} (idle : e.motion = .idle)
    (stepped : (step direction now e).result = .ok ()) :
    step direction now e =
      ⟨{ e with physical := e.physical + direction.sign }, some (.stepped direction), .ok ()⟩ := by
  unfold step at stepped ⊢
  rw [retire_of_idle idle] at stepped ⊢
  dsimp only at stepped ⊢
  split at stepped
  · cases stepped
  · next powered =>
    split at stepped
    · cases stepped
    · next still => rw [if_neg powered, if_neg still]

private theorem moveDuration_pos (steps : Int) (e : Engine) : 0 < e.moveDuration steps := by
  unfold moveDuration
  exact Nat.lt_of_lt_of_le Nat.zero_lt_one (Nat.le_max_left _ _)

end Engine

namespace Platform

variable {a : Axis} {p q r : Platform} {entries later : List (Nat × Occurrence)}

def Logs (a : Axis) (p q : Platform) (entries : List (Nat × Occurrence)) : Prop :=
  ∃ added, (q.log a).toList = (p.log a).toList ++ added ∧
    added.map (fun event => (event.time, event.what)) = entries

private theorem logs_of_same (log : q.log a = p.log a) : Logs a p q [] := by
  refine ⟨[], ?_, rfl⟩
  rw [log, List.append_nil]

private theorem logs_trans (first : Logs a p q entries) (second : Logs a q r later) :
    Logs a p r (entries ++ later) := by
  obtain ⟨new₁, log₁, rfl⟩ := first
  obtain ⟨new₂, log₂, rfl⟩ := second
  exact ⟨new₁ ++ new₂, by rw [log₂, log₁, List.append_assoc], List.map_append⟩

private theorem logs_entry {what : Option Occurrence}
    (log : (q.log a).toList = (p.log a).toList ++ p.entry what) :
    Logs a p q (what.toList.map (p.now, ·)) := by
  refine ⟨_, log, ?_⟩
  cases what <;> rfl

theorem microseconds_of_lt {ms : Nat} (short : microseconds ms < UInt64.size - 1) :
    microseconds ms = ms * 1000 := by
  unfold microseconds at short ⊢
  omega

theorem mul_microseconds {n ms : Nat} (short : n * microseconds ms < UInt64.size - 1) :
    n * microseconds ms = n * ms * 1000 := by
  rcases Nat.eq_zero_or_pos n with rfl | some
  · rw [Nat.zero_mul, Nat.zero_mul, Nat.zero_mul]
  · have once := Nat.le_mul_of_pos_left (microseconds ms) some
    rw [microseconds_of_lt (by omega), Nat.mul_assoc]

end Platform

end Crawler.Hardware

namespace Crawler.Homing

open Crawler.Action
open Hardware (Platform Engine Occurrence)
open Hardware.Platform (Logs logs_of_same logs_trans logs_entry microseconds)

structure Since (p : Platform) (entries : List (Nat × Occurrence)) (e : Engine) (now : Nat)
    (q : Platform) : Prop where
  logs : Logs .z p q entries
  engine : q.engine .z = e
  now : q.now = now

variable {p q r : Platform} {entries : List (Nat × Occurrence)} {e : Engine} {now : Nat}
  {s t : Station} {limits : Limits} {parameters : Parameters}

section Steps

private theorem since_serve (since : Since p entries e now q) (edge : Bool) :
    Since p entries e now (q.serve edge) := by
  have log : (q.serve edge).log .z = q.log .z := congrArg (PerAxis.get · .z) (q.serve_logs edge)
  have engine : (q.serve edge).engine .z = q.engine .z :=
    congrArg (PerAxis.get · .z) (q.serve_engines edge)
  refine ⟨?_, engine.trans since.engine, (q.serve_now edge).trans since.now⟩
  exact List.append_nil entries ▸ logs_trans since.logs (logs_of_same log)

private theorem since_delay (since : Since p entries e now q) (ms : Nat) :
    Since p entries e (now + microseconds ms) (q.delay ms) := by
  have later : Since p entries e (now + microseconds ms) { q with now := q.now + microseconds ms } :=
    ⟨since.logs, since.engine, congrArg (· + _) since.now⟩
  exact since_serve later false

private theorem since_commit {α : Type} (since : Since p entries e now q) (outcome : Engine.Outcome α) :
    Since p (entries ++ outcome.occurrence.toList.map (now, ·)) outcome.engine now
      (q.commit .z outcome) := by
  refine ⟨?_, Platform.commit_engine _ _ _, (Platform.commit_now _ _ _).trans since.now⟩
  exact logs_trans since.logs (since.now ▸ logs_entry (q.commit_log .z outcome))

private theorem since_awaited (since : Since p entries e now q) (bounded : e.Bounded) :
    Since p (entries ++ if now < e.restTime then [(now, .waitedIdle)] else [])
      { e with physical := e.destination, motion := .idle } (max now e.restTime) (q.awaited .z) := by
  obtain ⟨logs, rfl, rfl⟩ := since
  have waited := logs_trans logs (logs_entry q.awaited_log)
  refine ⟨?_, Platform.awaited_engine bounded, Platform.awaited_now⟩
  split <;> rename_i busy <;> simpa [busy] using waited

private theorem engage_since {α : Type} {op : Nat → Engine → Engine.Outcome α} {answer : α}
    (ran : (Station.onDrives (Drives.onPlatform (Platform.engage .z op))).run s = (.ok answer, t))
    (since : Since p entries e now s.drives.platform) :
    (op now e).result = .ok answer ∧
      Since p (entries ++ (op now e).occurrence.toList.map (now, ·)) (op now e).engine now
        t.drives.platform := by
  obtain ⟨fit, same⟩ := run_engage_ok ran since.engine
  rw [since.now] at fit same
  exact ⟨fit, same ▸ since_commit since _⟩

private theorem prepare_since {op : Engine → Engine.Outcome Unit} {remember : Drives → Drives}
    (ran : (Station.onDrives (do
      Drives.onPlatform (Platform.engage .z fun _ => op)
      .modify remember)).run s = (.ok (), t)) (kept : ∀ d, (remember d).platform = d.platform)
    (since : Since p entries e now s.drives.platform) :
    (op e).result = .ok () ∧
      Since p (entries ++ (op e).occurrence.toList.map (now, ·)) (op e).engine now
        t.drives.platform := by
  obtain ⟨fit, left⟩ := run_prepare_ok ran since.engine kept
  exact ⟨fit, left ▸ since_commit since _⟩

private theorem setAcceleration_since {acceleration : Float}
    (ran : (Station.onDrives (Drives.setAcceleration .z acceleration)).run s = (.ok (), t))
    (since : Since p entries e now s.drives.platform) :
    Since p (entries ++ [(now, .accelerationSet acceleration)]) { e with acceleration } now
      t.drives.platform := by
  obtain ⟨fit, since⟩ := prepare_since ran (fun _ => rfl) since
  have set := (Engine.setAcceleration_ok e fit).1
  unfold Engine.setAcceleration at since
  rwa [if_pos set] at since

private theorem setSpeed_since {hz : Float}
    (ran : (Station.onDrives (Drives.setSpeed .z hz)).run s = (.ok (), t))
    (since : Since p entries e now s.drives.platform) :
    Since p (entries ++ [(now, .speedSet hz)]) { e with speed := hz } now t.drives.platform := by
  obtain ⟨fit, since⟩ := prepare_since ran (fun _ => rfl) since
  have set := (Engine.setSpeed_ok e fit).1
  unfold Engine.setSpeed at since
  rwa [if_pos set] at since

private theorem enable_since (ran : (Station.onDrives (Drives.enable .z)).run s = (.ok (), t))
    (since : Since p entries e now s.drives.platform) :
    Since p (entries ++ if e.enabled then [] else [(now, .enabled)]) { e with enabled := true } now
      t.drives.platform := by
  obtain ⟨_, since⟩ := engage_since ran since
  rw [Engine.enable_powered, Engine.enable_occurrence] at since
  split <;> rename_i on <;> simpa [on] using since

private theorem awaitRest_since (ran : (Station.onDrives (Drives.awaitRest .z)).run s = (.ok (), t))
    (since : Since p entries e now s.drives.platform) :
    Since p (entries ++ if now < e.restTime then [(now, .waitedIdle)] else [])
      { e with physical := e.destination, motion := .idle } (max now e.restTime)
      t.drives.platform := by
  obtain ⟨bounded, left⟩ := run_awaitRest_ok ran
  exact left ▸ since_awaited since (since.engine ▸ bounded)

private theorem attach_since {handler : Hardware.Handler}
    (ran : (Station.onPlatform ((Platform.attach handler).mapError .actuation)).run s = (.ok (), t))
    (since : Since p entries e now s.drives.platform) :
    Since p entries e now t.drives.platform := by
  have armed : Since p entries e now { s.drives.platform with
      limit := { s.drives.platform.limit with armed := some handler } } :=
    ⟨since.logs, since.engine, since.now⟩
  rw [run_attach_ok ran]
  exact since_serve armed false

/-- A search takes a whole number of polls, in the time that it answers and on the clock. -/
theorem seek_since {polls elapsed taken : Nat}
    (reached : (seek limits polls elapsed).run q = (.ok taken, r)) (since : Since p entries e now q) :
    ∃ n, taken = elapsed + n * limits.pollMs ∧
      Since p entries e (now + n * microseconds limits.pollMs) r := by
  have none : Since p entries e (now + 0 * microseconds limits.pollMs) q := by
    rwa [Nat.zero_mul, Nat.add_zero]
  induction polls generalizing q elapsed now with
  | zero =>
    cases flag : q.homingSignal with
    | true =>
      cases (seek_up 0 elapsed flag).symm.trans reached
      exact ⟨0, by omega, none⟩
    | false => cases (seek_late elapsed flag).symm.trans reached
  | succ polls ih =>
    cases flag : q.homingSignal with
    | true =>
      cases (seek_up _ elapsed flag).symm.trans reached
      exact ⟨0, by omega, none⟩
    | false =>
      rw [seek_poll polls elapsed flag] at reached
      have later := since_delay since limits.pollMs
      obtain ⟨n, taken, there⟩ := ih reached later (by rwa [Nat.zero_mul, Nat.add_zero])
      refine ⟨n + 1, by rw [taken, Nat.succ_mul]; omega, ?_⟩
      rwa [Nat.succ_mul, Nat.add_comm (n * _), ← Nat.add_assoc]

/-- Leaving the switch takes the steps that it answers, all at the same time. -/
theorem release_since {left made taken : Nat}
    (released : (release left made).run q = (.ok taken, r)) (since : Since p entries e now q)
    (idle : e.motion = .idle) :
    ∃ n ≤ left, taken = made + n ∧ ∃ e', e'.motion = .idle ∧ e'.speed = e.speed ∧
      Since p (entries ++ List.replicate n (now, .stepped .forward)) e' now r := by
  have none := (List.append_nil entries).symm ▸ since
  induction left generalizing q e entries made with
  | zero =>
    cases active : q.switchActive with
    | false =>
      cases (release_clear 0 made active).symm.trans released
      exact ⟨0, le_rfl, rfl, e, idle, rfl, none⟩
    | true => cases (release_stuck made active).symm.trans released
  | succ left ih =>
    cases active : q.switchActive with
    | false =>
      cases (release_clear _ made active).symm.trans released
      exact ⟨0, Nat.zero_le _, rfl, e, idle, rfl, none⟩
    | true =>
      cases ran : (Platform.step .z .forward).run q with
      | mk result q' =>
        cases result with
        | error cause => cases (release_refused left made active ran).symm.trans released
        | ok _ =>
          rw [release_active left made active ran] at released
          obtain ⟨fit, rfl⟩ := Prod.mk.inj ((Platform.run_engage q .z _).symm.trans ran)
          rw [since.engine, since.now] at fit released
          have later := since_commit since (Engine.step .forward now e)
          rw [Engine.step_ok idle fit] at later released
          obtain ⟨n, within, taken, e', idle', speed, there⟩ :=
            ih released later idle ((List.append_nil _).symm ▸ later)
          refine ⟨n + 1, by omega, by omega, e', idle', speed, ?_⟩
          rwa [List.append_assoc] at there

/-- An attended move ends later than it starts. -/
theorem startMove_since {steps : Int} (some_steps : steps ≠ 0)
    (ran : (Station.onDrives (Drives.startMove .z steps .attended)).run s = (.ok (), t))
    (since : Since p entries e now s.drives.platform) (idle : e.motion = .idle) :
    ∃ e', ∃ ended > now, Since p (entries ++
      [(now, .moveStarted steps e.speed), (now, .waitedIdle)]) e' ended t.drives.platform := by
  obtain ⟨logs, rfl, rfl⟩ := since
  set e := s.drives.platform.engine .z
  set now := s.drives.platform.now
  have begun : Since p (entries ++ [(now, .moveStarted steps e.speed)]) (e.started steps now) now
      (Drives.moved .z steps s.drives.platform) := since_commit ⟨logs, rfl, rfl⟩
        (⟨e.started steps now, some (.moveStarted steps e.speed), .ok ()⟩ : Engine.Outcome Unit)
  have later : now < (e.started steps now).restTime :=
    Nat.lt_add_of_pos_right (e.moveDuration_pos steps)
  have waited := since_awaited begun (Engine.started_bounded _ _ _)
  rw [if_pos later, List.append_assoc] at waited
  rw [run_startMove_ok some_steps ran idle]
  exact ⟨_, _, lt_max_of_lt_right later, waited⟩

end Steps

section Phases

def seeking (asked : Nat) (e : Engine) (acceleration hz : Float) : List (Nat × Occurrence) :=
  let begun := max asked e.restTime
  (if asked < e.restTime then [(asked, .waitedIdle)] else []) ++
    ((if e.enabled then [] else [(begun, .enabled)]) ++
    [(begun, .accelerationSet acceleration), (begun, .speedSet hz), (begun, .runStarted .reverse)])

def resting (stopped rested : Nat) : List (Nat × Occurrence) :=
  [(stopped, .stopped), (stopped, .disabled), (rested, .enabled)]

def leaving (rested ended releaseSteps : Nat) (pullOffSteps : Int) (hz : Float) :
    List (Nat × Occurrence) :=
  List.replicate releaseSteps (rested, .stepped .forward) ++
    [(rested, .moveStarted pullOffSteps hz), (rested, .waitedIdle), (ended, .positionReset 0)]

private theorem seekSwitch_since {ms : Nat}
    (ran : (Station.seekSwitch limits parameters).run s = (.ok ms, t))
    (since : Since p entries e now s.drives.platform) :
    ∃ n e', ms = n * limits.pollMs ∧
      Since p (entries ++ seeking now e parameters.acceleration (Number.ofInt parameters.hz)) e'
        (max now e.restTime + n * microseconds limits.pollMs) t.drives.platform ∧
      e'.enabled = true ∧ e'.speed = Number.ofInt parameters.hz := by
  obtain ⟨_, _, entered, ran⟩ := run_bind_eq_ok.mp ran
  cases entered
  obtain ⟨_, _, waited, ran⟩ := run_bind_eq_ok.mp ran
  have since := awaitRest_since waited since
  obtain ⟨_, _, enabled, ran⟩ := run_bind_eq_ok.mp ran
  have since := enable_since enabled since
  obtain ⟨_, _, accelerated, ran⟩ := run_bind_eq_ok.mp ran
  have since := setAcceleration_since accelerated since
  obtain ⟨_, _, quickened, ran⟩ := run_bind_eq_ok.mp ran
  have since := setSpeed_since quickened since
  obtain ⟨_, _, attached, ran⟩ := run_bind_eq_ok.mp ran
  have since := attach_since attached since
  obtain ⟨_, _, started, ran⟩ := run_bind_eq_ok.mp ran
  obtain ⟨fit, since⟩ := engage_since started since
  rw [Engine.startRun_ok fit] at since
  obtain ⟨q, reached, rfl⟩ := Station.run_onPlatform_eq_ok.mp ran
  obtain ⟨n, taken, since⟩ := seek_since reached since
  rw [Nat.zero_add] at taken
  simp only [List.append_assoc] at since
  exact ⟨n, _, taken, since, rfl, rfl⟩

private theorem debounce_since (ran : (Station.debounce parameters).run s = (.ok (), t))
    (since : Since p entries e now s.drives.platform) (powered : e.enabled = true) :
    ∃ e', Since p (entries ++ resting now (now + microseconds parameters.debounceMs)) e'
        (now + microseconds parameters.debounceMs) t.drives.platform ∧
      e'.motion = .idle ∧ e'.speed = e.speed := by
  obtain ⟨_, _, entered, ran⟩ := run_bind_eq_ok.mp ran
  cases entered
  obtain ⟨_, _, stopped, ran⟩ := run_bind_eq_ok.mp ran
  obtain ⟨_, since⟩ := engage_since stopped since
  obtain ⟨_, _, disabled, ran⟩ := run_bind_eq_ok.mp ran
  obtain ⟨_, since⟩ := engage_since disabled since
  have on : (Engine.stop now e).engine.enabled = true := powered
  rw [Engine.disable_occurrence, Engine.disable_unpowered, if_pos on] at since
  obtain ⟨_, _, delayed, ran⟩ := run_bind_eq_ok.mp ran
  cases delayed
  have since := enable_since ran (since_delay since parameters.debounceMs)
  rw [if_neg Bool.false_ne_true] at since
  simp only [List.append_assoc] at since
  exact ⟨_, since, rfl, rfl⟩

/-- The time of the origin is the last one. -/
theorem pullOff_since {made : Nat} (some_steps : parameters.pullOffSteps ≠ 0)
    (ran : (Station.pullOff limits parameters).run s = (.ok made, t))
    (since : Since p entries e now s.drives.platform) (idle : e.motion = .idle) :
    made ≤ limits.releaseSteps ∧ now < t.drives.platform.now ∧
      Logs .z p t.drives.platform
        (entries ++ leaving now t.drives.platform.now made parameters.pullOffSteps e.speed) := by
  obtain ⟨_, _, entered, ran⟩ := run_bind_eq_ok.mp ran
  cases entered
  obtain ⟨steps, _, released, ran⟩ := run_bind_eq_ok.mp ran
  obtain ⟨q, off, rfl⟩ := Station.run_onPlatform_eq_ok.mp released
  obtain ⟨n, within, counted, e', idle', speed, since⟩ := release_since off since idle
  obtain ⟨_, u, moved, ran⟩ := run_bind_eq_ok.mp ran
  obtain ⟨_, ended, later, since⟩ := startMove_since some_steps moved since idle'
  obtain ⟨_, v, origin, ran⟩ := run_bind_eq_ok.mp ran
  obtain ⟨_, since⟩ := engage_since origin since
  obtain ⟨_, _, cleared, ran⟩ := run_bind_eq_ok.mp ran
  obtain ⟨_, rfl⟩ := Prod.mk.inj cleared
  obtain ⟨_, _, detached, answered⟩ := run_bind_eq_ok.mp ran
  obtain ⟨_, rfl⟩ := Prod.mk.inj detached
  obtain ⟨same, rfl⟩ := Prod.mk.inj answered
  cases same
  rw [Nat.zero_add] at counted
  subst counted
  have last : v.drives.platform.now = ended := since.now
  subst last
  have logs := since.logs
  simp only [List.append_assoc, speed] at logs
  exact ⟨within, later, logs⟩

end Phases

section Cycle

def timeline (asked : Nat) (e : Engine) (acceleration : Float) (debounceMs ended : Nat)
    (report : Report) : List (Nat × Occurrence) :=
  let stopped := max asked e.restTime + report.seekMs * 1000
  let rested := stopped + debounceMs * 1000
  let hz := Number.ofInt report.hz
  seeking asked e acceleration hz ++ resting stopped rested ++
    leaving rested ended report.releaseSteps report.pullOffSteps hz

private theorem sequence_timeline {report : Report} (some_steps : parameters.pullOffSteps ≠ 0)
    (ran : (Station.sequence limits parameters).run s = (.ok report, t))
    (since : Since p entries e now s.drives.platform)
    (inRange : t.drives.platform.now < UInt64.size) :
    report.releaseSteps ≤ limits.releaseSteps ∧ Logs .z p t.drives.platform (entries ++
      timeline now e parameters.acceleration parameters.debounceMs t.drives.platform.now report) := by
  obtain ⟨ms, u, sought, ran⟩ := run_bind_eq_ok.mp ran
  obtain ⟨n, e₁, taken, since, powered, speed₁⟩ := seekSwitch_since sought since
  obtain ⟨_, v, rested, ran⟩ := run_bind_eq_ok.mp ran
  obtain ⟨e₂, since, idle, speed₂⟩ := debounce_since rested since powered
  obtain ⟨made, _, pulled, answered⟩ := run_bind_eq_ok.mp ran
  obtain ⟨same, rfl⟩ := Prod.mk.inj answered
  cases same
  obtain ⟨within, later, logs⟩ := pullOff_since some_steps pulled since idle
  rw [speed₂, speed₁] at logs
  have sought : n * microseconds limits.pollMs = ms * 1000 :=
    taken ▸ Platform.mul_microseconds (by omega)
  have paused : microseconds parameters.debounceMs = parameters.debounceMs * 1000 :=
    Platform.microseconds_of_lt (by omega)
  rw [sought, paused] at logs
  simp only [List.append_assoc] at logs
  unfold timeline
  simp only [List.append_assoc]
  exact ⟨within, logs⟩

/-- A cycle that succeeds shows in the log of the depth axis exactly its own steps. The search took the
time that is reported, the driver rested for the time that the settings give, and no more steps were made
to leave the switch than the limits allow. -/
theorem home_timeline {store : Setting.Store} {report : Report}
    (homed : (Station.home limits store).run s = (.ok report, t))
    (inRange : t.drives.platform.now < UInt64.size) :
    ∃ acceleration scale debounce, store.float (.acceleration .z) = .ok acceleration ∧
      store.float (.stepsPerMm .z) = .ok scale ∧ store.int .homingDebounce = .ok debounce ∧
      0 ≤ debounce.toInt ∧ report.releaseSteps ≤ limits.releaseSteps ∧
      Logs .z s.drives.platform t.drives.platform
        (timeline s.drives.platform.now (s.drives.platform.engine .z)
          (Units.stepAcceleration acceleration scale) debounce.toInt.toNat t.drives.platform.now
          report) := by
  obtain ⟨parameters, u, v, loaded, lowered, ran, same⟩ := home_ok homed
  have since : Since s.drives.platform [] (s.drives.platform.engine .z) s.drives.platform.now
      u.drives.platform := by
    rw [lowered]
    exact ⟨logs_of_same rfl, rfl, rfl⟩
  rw [← same] at inRange ⊢
  have logged := sequence_timeline (load_moves loaded) ran since inRange
  obtain ⟨_, scale, _, acceleration, debounce, _, scaled, _, accelerated, rested, kept, _, rfl⟩ :=
    load_ok loaded
  exact ⟨acceleration, scale, debounce, (positive_ok accelerated).1, (positive_ok scaled).1, rested,
    kept, logged⟩

theorem descending_timeline :
    Logs .z descending.drives.platform (homedFrom descending).drives.platform
      ([(0, .waitedIdle), (800000, .accelerationSet 2500), (800000, .speedSet 104),
          (800000, .runStarted .reverse), (1300000, .stopped), (1300000, .disabled),
          (1550000, .enabled)] ++ List.replicate 7 (1550000, .stepped .forward) ++
        [(1550000, .moveStarted 250 104), (1550000, .waitedIdle), (3995447, .positionReset 0)]) := by
  have ended : (homedFrom descending).drives.platform.now = 3995447 := by decide +kernel
  have inRange : (homedFrom descending).drives.platform.now < UInt64.size := by
    rw [ended]
    decide
  obtain ⟨acceleration, scale, debounce, accelerated, scaled, rested, _, _, logged⟩ :=
    home_timeline descending_homes inRange
  cases accelerated.symm.trans (by decide +kernel : _ = .ok 10)
  cases scaled.symm.trans (by decide +kernel : _ = .ok 250)
  cases rested.symm.trans (by decide +kernel : _ = .ok 250)
  rw [ended] at logged
  convert logged
  decide +kernel

end Cycle

end Crawler.Homing

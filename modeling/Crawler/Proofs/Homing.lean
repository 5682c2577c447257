import Crawler.Proofs.Run

/-! Where homing ends. While the switch is sought, the flag is up only if the axis stands at the switch
or beyond it, whoever raised it and however far the axis ran on. Stepping off the switch then cancels
the overshoot, so that the origin lies a fixed way from the switch. -/
namespace Crawler.Hardware

namespace Profile

private theorem runStepsAt_start {v a : Float} (speed : Engine.isSpeed v = true)
    (acceleration : Engine.isSpeed a = true) : Number.Nonnegative (runStepsAt v a (seconds 0)) := by
  have start : seconds 0 = 0 := by decide +kernel
  have zero : Number.Nonnegative 0 := by decide +kernel
  have half : Number.Nonnegative 0.5 := by decide +kernel
  have v_kept := Number.nonnegative_of_isSpeed speed
  have a_kept := Number.nonnegative_of_isSpeed acceleration
  rw [start]
  unfold runStepsAt
  split
  · exact Number.nonnegative_mul v_kept zero
  · next above =>
    have finite := (Bool.and_eq_true_iff.mp acceleration).1
    obtain ⟨_, _, _, divisor⟩ := Number.finite_pos_of_not_le finite above
    have ramp : Number.Nonnegative (v / a) := Number.nonnegative_div v_kept divisor
    dsimp only
    split
    · exact Number.nonnegative_mul (Number.nonnegative_mul (Number.nonnegative_mul half a_kept) zero)
        zero
    · next past =>
      exact Number.nonnegative_add (Number.nonnegative_mul (Number.nonnegative_mul half v_kept) ramp)
        (Number.nonnegative_mul v_kept (Number.nonnegative_zero_sub ramp past))

end Profile

namespace Engine

variable {e : Engine} {now : Nat}

theorem startRun_ok {direction : Sense} (started : (startRun direction now e).result = .ok ()) :
    startRun direction now e = ⟨{ e.freeze now with
      motion := .run ⟨now, e.absoluteAt now, direction, e.speed, e.acceleration⟩ },
      some (.runStarted direction), .ok ()⟩ := by
  unfold startRun at started ⊢
  dsimp only at started ⊢
  split at started
  · cases started
  · next powered =>
    split at started
    · cases started
    · next quick =>
      rw [if_neg powered, if_neg quick]
      rfl

theorem startRun_reverse (speed : isSpeed e.speed = true) (acceleration : isSpeed e.acceleration = true)
    (started : (startRun .reverse now e).result = .ok ()) :
    (startRun .reverse now e).engine.absoluteAt now ≤ e.absoluteAt now := by
  rw [startRun_ok started]
  have gone : 0 ≤ Units.toSteps (Number.floor
      (Profile.runStepsAt e.speed e.acceleration (Profile.seconds (now - now)))) := by
    rw [Nat.sub_self]
    exact Number.toSteps_roundBy_nonneg (Profile.runStepsAt_start speed acceleration) _ _
  change e.absoluteAt now + Units.toSteps (Number.floor
    (Profile.runStepsAt e.speed e.acceleration (Profile.seconds (now - now)))) * -1 ≤ e.absoluteAt now
  omega

end Engine

end Crawler.Hardware

namespace Crawler.Homing

open Crawler.Action
open Hardware (Platform Engine Handler)

structure Watch (place : Int) (e : Engine) (p : Platform) : Prop where
  engine : p.engine .z = e
  trigger : p.limit.trigger = place
  free : p.limit.levelOverride = none
  told : p.homingSignal = true → e.absoluteAt p.now ≤ place

variable {place : Int} {e : Engine} {p : Platform}

private theorem watch_active (watch : Watch place e p) :
    p.switchActive = decide (e.absoluteAt p.now ≤ place) := by
  unfold Platform.switchActive Platform.physical
  rw [watch.free, watch.engine, watch.trigger]
  rfl

private theorem watch_serve (watch : Watch place e p) : Watch place e (p.serve false) := by
  have active := watch_active watch
  unfold Platform.serve
  split
  · exact watch
  · next handler armed =>
    split
    · next served =>
      rw [Bool.false_or, active] at served
      have reached := of_decide_eq_true served
      cases handler with
      | homing => exact ⟨watch.engine, watch.trigger, watch.free, fun _ => reached⟩
      | observer id => exact ⟨watch.engine, watch.trigger, watch.free, watch.told⟩
    · exact watch

/-- Time may pass unless the flag is up while the axis goes on. -/
theorem watch_advance (watch : Watch place e p) (us : Nat)
    (calm : p.homingSignal = false ∨ e.motion = .idle) : Watch place e (p.advance us) := by
  have later : Watch place e { p with now := p.now + us } := by
    refine ⟨watch.engine, watch.trigger, watch.free, fun up => ?_⟩
    rcases calm with down | idle
    · rw [show p.homingSignal = true from up] at down
      cases down
    · have told := watch.told up
      rwa [Engine.absoluteAt_of_idle idle] at told ⊢
  exact watch_serve later

private theorem watch_commit {α : Type} (watch : Watch place e p) {outcome : Engine.Outcome α}
    (back : outcome.engine.absoluteAt p.now ≤ e.absoluteAt p.now) :
    Watch place outcome.engine (p.commit .z outcome) := by
  refine ⟨Platform.commit_engine _ _ _, ?_, ?_, ?_⟩
  · rw [Platform.commit_limit]
    exact watch.trigger
  · rw [Platform.commit_limit]
    exact watch.free
  · rw [Platform.commit_homingSignal, Platform.commit_now]
    intro up
    have told := watch.told up
    omega

private theorem watch_retire (watch : Watch place e p) : Watch place (e.retire p.now) (p.retire .z) := by
  refine ⟨?_, watch.trigger, watch.free, ?_⟩
  · rw [Platform.retire_engine, watch.engine]
  · rw [Platform.retire_now, Engine.absoluteAt_retire]
    exact watch.told

private theorem watch_awaited (watch : Watch place e p) (down : p.homingSignal = false) :
    ∃ e', Watch place e' (p.awaited .z) := by
  have noted : Watch place e (p.note .z .waitedIdle) :=
    ⟨watch.engine, watch.trigger, watch.free, watch.told⟩
  unfold Platform.awaited
  split
  · unfold Platform.advanceUntil
    split
    -- The flag was taken down before, so the axis may go on while time passes.
    · exact ⟨_, watch_retire (watch_advance noted _ (.inl down))⟩
    · exact ⟨_, watch_retire noted⟩
  · exact ⟨_, watch_retire watch⟩

private theorem watch_seek {limits : Limits} {polls elapsed taken : Nat} {q : Platform}
    (watch : Watch place e p) (reached : (seek limits polls elapsed).run p = (.ok taken, q)) :
    Watch place e q ∧ q.homingSignal = true := by
  induction polls generalizing p elapsed with
  | zero =>
    cases flag : p.homingSignal with
    | true =>
      cases (seek_up 0 elapsed flag).symm.trans reached
      exact ⟨watch, flag⟩
    | false => cases (seek_late elapsed flag).symm.trans reached
  | succ polls ih =>
    cases flag : p.homingSignal with
    | true =>
      cases (seek_up _ elapsed flag).symm.trans reached
      exact ⟨watch, flag⟩
    | false =>
      rw [seek_poll polls elapsed flag] at reached
      exact ih (watch_advance watch _ (.inl flag)) reached

structure Parked (place : Int) (e : Engine) (p : Platform) : Prop where
  engine : p.engine .z = e
  idle : e.motion = .idle
  trigger : p.limit.trigger = place
  free : p.limit.levelOverride = none

private theorem parked_physical (parked : Parked place e p) : p.physical .z = e.physical := by
  unfold Platform.physical
  rw [parked.engine, Engine.absoluteAt_of_idle parked.idle]

private theorem parked_active (parked : Parked place e p) :
    p.switchActive = decide (e.physical ≤ place) := by
  unfold Platform.switchActive
  rw [parked.free, parked_physical parked, parked.trigger]
  rfl

private theorem parked_commit {α : Type} (trigger : p.limit.trigger = place)
    (free : p.limit.levelOverride = none) (outcome : Engine.Outcome α)
    (idle : outcome.engine.motion = .idle) : Parked place outcome.engine (p.commit .z outcome) := by
  refine ⟨Platform.commit_engine _ _ _, idle, ?_, ?_⟩
  · rw [Platform.commit_limit, trigger]
  · rw [Platform.commit_limit, free]

private theorem parked_delay (parked : Parked place e p) (ms : Nat) : Parked place e (p.delay ms) := by
  refine ⟨?_, parked.idle, ?_, ?_⟩
  · unfold Platform.engine Platform.delay
    rw [Platform.advance_engines]
    exact parked.engine
  · exact (p.advance_trigger _).trans parked.trigger
  · exact (p.advance_levelOverride _).trans parked.free

private theorem run_step {p : Platform} (parked : Parked place e p) (powered : e.enabled = true) :
    ∃ q, (Platform.step .z .forward).run p = (.ok (), q) ∧
      Parked place { e with physical := e.physical + 1 } q := by
  unfold Platform.step
  rw [Platform.run_engage, parked.engine]
  have stepped : Engine.step .forward p.now e =
      ⟨{ e with physical := e.physical + 1 }, some (.stepped .forward), .ok ()⟩ := by
    have still : e.isMoving = false := Engine.isMoving_eq_false.mpr parked.idle
    unfold Engine.step
    rw [Engine.retire_of_idle parked.idle]
    simp only [powered, still, Bool.not_true, Bool.false_eq_true, if_false, Sense.sign]
  rw [stepped]
  exact ⟨_, rfl, parked_commit parked.trigger parked.free ⟨_, _, _⟩ parked.idle⟩

private theorem release_ends {left made taken : Nat} {q : Platform} (parked : Parked place e p)
    (below : e.physical ≤ place + 1) (clear : p.switchActive = false)
    (released : (release left made).run p = (.ok taken, q)) :
    Parked place { e with physical := place + 1 } q ∧
      (taken : Int) = made + (place + 1 - e.physical) := by
  rw [release_clear left made clear] at released
  cases released
  have above := of_decide_eq_false ((parked_active parked).symm.trans clear)
  have there : e.physical = place + 1 := by omega
  rw [← there]
  exact ⟨parked, by omega⟩

/-- Stepping off the switch ends one step above it, from wherever below it began. -/
theorem release_ok {left made taken : Nat} {q : Platform} (parked : Parked place e p)
    (powered : e.enabled = true) (below : e.physical ≤ place + 1)
    (released : (release left made).run p = (.ok taken, q)) :
    Parked place { e with physical := place + 1 } q ∧
      (taken : Int) = made + (place + 1 - e.physical) := by
  induction left generalizing e p made with
  | zero =>
    cases active : p.switchActive with
    | true => cases (release_stuck made active).symm.trans released
    | false => exact release_ends parked below active released
  | succ left ih =>
    cases active : p.switchActive with
    | true =>
      have under := of_decide_eq_true ((parked_active parked).symm.trans active)
      obtain ⟨r, stepped, further⟩ := run_step parked powered
      rw [release_active left made active stepped] at released
      obtain ⟨there, count⟩ := ih further powered (by dsimp only; omega) released
      exact ⟨there, by dsimp only at count; omega⟩
    | false => exact release_ends parked below active released

section Phases

variable {s t : Station} {limits : Limits} {parameters : Parameters}

theorem run_engage_ok {α : Type} {op : Nat → Engine → Engine.Outcome α} {a : α}
    (ran : (Station.onDrives (Drives.onPlatform (Platform.engage .z op))).run s = (.ok a, t))
    (engine : s.drives.platform.engine .z = e) :
    (op s.drives.platform.now e).result = .ok a ∧
      t.drives.platform = s.drives.platform.commit .z (op s.drives.platform.now e) := by
  obtain ⟨d, made, rfl⟩ := Station.run_onDrives_eq_ok.mp ran
  rw [← engine]
  exact Drives.engage_ok made

theorem run_prepare_ok {op : Engine → Engine.Outcome Unit} {remember : Drives → Drives}
    (ran : (Station.onDrives (do
      Drives.onPlatform (Platform.engage .z fun _ => op)
      .modify remember)).run s = (.ok (), t))
    (engine : s.drives.platform.engine .z = e) (kept : ∀ d, (remember d).platform = d.platform) :
    (op e).result = .ok () ∧ t.drives.platform = s.drives.platform.commit .z (op e) := by
  obtain ⟨d, set, rfl⟩ := Station.run_onDrives_eq_ok.mp ran
  obtain ⟨_, d', made, remembered⟩ := run_bind_eq_ok.mp set
  cases remembered
  rw [← engine]
  obtain ⟨fit, engaged⟩ := Drives.engage_ok made
  exact ⟨fit, (kept d').trans engaged⟩

theorem run_awaitRest_ok (ran : (Station.onDrives (Drives.awaitRest .z)).run s = (.ok (), t)) :
    (s.drives.platform.engine .z).Bounded ∧ t.drives.platform = s.drives.platform.awaited .z := by
  obtain ⟨d, waited, rfl⟩ := Station.run_onDrives_eq_ok.mp ran
  rcases Drives.awaitRest_cases s.drives .z with ⟨bounded, past⟩ | ⟨fault, refused⟩
  · cases past.symm.trans waited
    exact ⟨bounded, rfl⟩
  · cases refused.symm.trans waited

theorem run_attach_ok {handler : Handler}
    (ran : (Station.onPlatform ((Platform.attach handler).mapError .actuation)).run s = (.ok (), t)) :
    t.drives.platform = Platform.serve false { s.drives.platform with
      limit := { s.drives.platform.limit with armed := some handler } } := by
  obtain ⟨p, attached, rfl⟩ := Station.run_onPlatform_eq_ok.mp ran
  have attached := run_mapError_eq_ok.mp attached
  change Platform.attach handler s.drives.platform = _ at attached
  unfold Platform.attach at attached
  split at attached <;> cases attached
  rfl

theorem run_startMove_ok {steps : Int} (some_steps : steps ≠ 0)
    (ran : (Station.onDrives (Drives.startMove .z steps .attended)).run s = (.ok (), t))
    (idle : (s.drives.platform.engine .z).motion = .idle) :
    t.drives.platform = (Drives.moved .z steps s.drives.platform).awaited .z := by
  obtain ⟨d, moved, rfl⟩ := Station.run_onDrives_eq_ok.mp ran
  rcases Drives.startMove_cases idle some_steps .attended with ⟨_, started⟩ | ⟨_, _, refused, _⟩
  · cases started.symm.trans moved
    rfl
  · cases refused.symm.trans moved

private theorem watch_sameMotion {α : Type} (watch : Watch place e p) (outcome : Engine.Outcome α)
    (same : Engine.SameMotion e outcome.engine) : Watch place outcome.engine (p.commit .z outcome) := by
  have place := Engine.absoluteAt_of_sameMotion same p.now
  exact watch_commit watch (Int.le_of_eq place)

private theorem prepare_ok {op : Engine → Engine.Outcome Unit} {remember : Drives → Drives}
    (watch : Watch place e s.drives.platform)
    (ran : (Station.onDrives (do
      Drives.onPlatform (Platform.engage .z fun _ => op)
      .modify remember)).run s = (.ok (), t))
    (same : Engine.SameMotion e (op e).engine) (kept : ∀ d, (remember d).platform = d.platform) :
    (op e).result = .ok () ∧ Watch place (op e).engine t.drives.platform := by
  obtain ⟨fit, left⟩ := run_prepare_ok ran watch.engine kept
  exact ⟨fit, left ▸ watch_sameMotion watch (op e) same⟩

private theorem setAcceleration_ok {acceleration : Float} (watch : Watch place e s.drives.platform)
    (ran : (Station.onDrives (Drives.setAcceleration .z acceleration)).run s = (.ok (), t)) :
    Engine.isSpeed acceleration = true ∧ Watch place { e with acceleration } t.drives.platform := by
  obtain ⟨fit, watched⟩ :=
    prepare_ok watch ran (Engine.setAcceleration_sameMotion e acceleration) fun _ => rfl
  obtain ⟨speed, engine⟩ := Engine.setAcceleration_ok e fit
  exact ⟨speed, engine ▸ watched⟩

private theorem setSpeed_ok {hz : Float} (watch : Watch place e s.drives.platform)
    (ran : (Station.onDrives (Drives.setSpeed .z hz)).run s = (.ok (), t)) :
    Engine.isSpeed hz = true ∧ Watch place { e with speed := hz } t.drives.platform := by
  obtain ⟨fit, watched⟩ := prepare_ok watch ran (Engine.setSpeed_sameMotion e hz) fun _ => rfl
  obtain ⟨speed, engine⟩ := Engine.setSpeed_ok e fit
  exact ⟨speed, engine ▸ watched⟩

private theorem awaitRest_ok (ran : (Station.onDrives (Drives.awaitRest .z)).run s = (.ok (), t))
    (watch : Watch place e s.drives.platform) (down : s.drives.platform.homingSignal = false) :
    ∃ e', Watch place e' t.drives.platform := by
  rw [(run_awaitRest_ok ran).2]
  exact watch_awaited watch down

private theorem attach_ok {handler : Handler} (watch : Watch place e s.drives.platform)
    (ran : (Station.onPlatform ((Platform.attach handler).mapError .actuation)).run s = (.ok (), t)) :
    Watch place e t.drives.platform := by
  have armed : Watch place e { s.drives.platform with
      limit := { s.drives.platform.limit with armed := some handler } } :=
    ⟨watch.engine, watch.trigger, watch.free, watch.told⟩
  rw [run_attach_ok ran]
  exact watch_serve armed

/-- A search that succeeds ends with the axis at the trigger position or beyond. -/
theorem seekSwitch_ok {ms : Nat} (ran : (Station.seekSwitch limits parameters).run s = (.ok ms, t))
    (watch : Watch place e s.drives.platform) (down : s.drives.platform.homingSignal = false) :
    ∃ e', Watch place e' t.drives.platform ∧ e'.absoluteAt t.drives.platform.now ≤ place := by
  obtain ⟨_, _, entered, ran⟩ := run_bind_eq_ok.mp ran
  cases entered
  obtain ⟨_, _, waited, ran⟩ := run_bind_eq_ok.mp ran
  obtain ⟨e₁, watch⟩ := awaitRest_ok waited watch down
  obtain ⟨_, _, enabled, ran⟩ := run_bind_eq_ok.mp ran
  obtain ⟨_, same⟩ := run_engage_ok enabled watch.engine
  have watch := same ▸ watch_sameMotion watch (Engine.enable e₁) (Engine.enable_sameMotion e₁)
  obtain ⟨_, _, accelerated, ran⟩ := run_bind_eq_ok.mp ran
  obtain ⟨acceleration, watch⟩ := setAcceleration_ok watch accelerated
  obtain ⟨_, _, quickened, ran⟩ := run_bind_eq_ok.mp ran
  obtain ⟨speed, watch⟩ := setSpeed_ok watch quickened
  obtain ⟨_, _, attached, ran⟩ := run_bind_eq_ok.mp ran
  have watch := attach_ok watch attached
  obtain ⟨_, _, started, ran⟩ := run_bind_eq_ok.mp ran
  obtain ⟨begun, same⟩ := run_engage_ok started watch.engine
  have watch := same ▸ watch_commit watch (Engine.startRun_reverse speed acceleration begun)
  obtain ⟨p, reached, rfl⟩ := Station.run_onPlatform_eq_ok.mp ran
  obtain ⟨watch, up⟩ := watch_seek watch reached
  exact ⟨_, watch, watch.told up⟩

private theorem parked_engage {α : Type} {op : Nat → Engine → Engine.Outcome α} {a : α}
    (ran : (Station.onDrives (Drives.onPlatform (Platform.engage .z op))).run s = (.ok a, t))
    (engine : s.drives.platform.engine .z = e) (trigger : s.drives.platform.limit.trigger = place)
    (free : s.drives.platform.limit.levelOverride = none)
    (idle : (op s.drives.platform.now e).engine.motion = .idle) :
    Parked place (op s.drives.platform.now e).engine t.drives.platform := by
  obtain ⟨_, same⟩ := run_engage_ok ran engine
  rw [same]
  exact parked_commit trigger free _ idle

private theorem debounce_ok (ran : (Station.debounce parameters).run s = (.ok (), t))
    (watch : Watch place e s.drives.platform) :
    ∃ e', Parked place e' t.drives.platform ∧ e'.enabled = true ∧
      e'.physical = e.absoluteAt s.drives.platform.now := by
  obtain ⟨_, _, entered, ran⟩ := run_bind_eq_ok.mp ran
  cases entered
  obtain ⟨_, _, stopped, ran⟩ := run_bind_eq_ok.mp ran
  have parked := parked_engage stopped watch.engine watch.trigger watch.free rfl
  obtain ⟨_, _, disabled, ran⟩ := run_bind_eq_ok.mp ran
  have parked := parked_engage disabled parked.engine parked.trigger parked.free
    (Drives.disable_idle _ _)
  obtain ⟨_, _, delayed, ran⟩ := run_bind_eq_ok.mp ran
  cases delayed
  have parked := parked_delay parked parameters.debounceMs
  have powered := parked_engage ran parked.engine parked.trigger parked.free
    ((Engine.enable_sameMotion _).1.trans parked.idle)
  refine ⟨_, powered, Engine.enable_enabled _, ?_⟩
  rw [(Engine.enable_sameMotion _).2.1, Engine.disable_physical]
  rfl

private theorem startMove_ok {steps : Int} (some_steps : steps ≠ 0)
    (ran : (Station.onDrives (Drives.startMove .z steps .attended)).run s = (.ok (), t))
    (parked : Parked place e s.drives.platform) :
    Parked place { e with physical := e.physical + steps } t.drives.platform := by
  have engine : (Drives.moved .z steps s.drives.platform).engine .z =
      e.started steps s.drives.platform.now := by
    unfold Drives.moved
    rw [Platform.commit_engine, parked.engine]
  have bounded : ((Drives.moved .z steps s.drives.platform).engine .z).Bounded :=
    engine ▸ Engine.started_bounded _ _ _
  rw [run_startMove_ok some_steps ran (parked.engine ▸ parked.idle)]
  refine ⟨?_, parked.idle, ?_, ?_⟩
  · rw [Platform.awaited_engine bounded, engine, Engine.started_destination]
    unfold Engine.started
    rw [parked.idle]
  · exact Platform.awaited_trigger.trans parked.trigger
  · exact Platform.awaited_levelOverride.trans parked.free

private theorem setOrigin_ok (ran : (Station.onDrives (Drives.setOrigin .z)).run s = (.ok (), t))
    (parked : Parked place e s.drives.platform) :
    ∃ e', Parked place e' t.drives.platform ∧ e'.physical = e.physical ∧ e'.offset = e.physical ∧
      e'.enabled = e.enabled := by
  have there := Engine.absoluteAt_of_idle parked.idle s.drives.platform.now
  have settled := parked_engage ran parked.engine parked.trigger parked.free rfl
  exact ⟨_, settled, there, by change e.absoluteAt _ - 0 = _; omega, rfl⟩

structure Homed (place : Int) (report : Report) (p : Platform) : Prop where
  physical : p.physical .z = place + 1 + report.pullOffSteps
  position : p.position .z = 0
  idle : (p.engine .z).motion = .idle
  powered : (p.engine .z).enabled = true
  inactive : p.switchActive = false
  disarmed : p.limit.armed = none
  cleared : p.homingSignal = false
  released : 1 ≤ report.releaseSteps

private theorem pullOff_ok {made : Nat} {report : Report}
    (ran : (Station.pullOff limits parameters).run s = (.ok made, t))
    (parked : Parked place e s.drives.platform) (powered : e.enabled = true)
    (below : e.physical ≤ place) (some_steps : 1 ≤ report.pullOffSteps)
    (pulled : parameters.pullOffSteps = report.pullOffSteps) (counted : report.releaseSteps = made) :
    Homed place report t.drives.platform := by
  obtain ⟨_, _, entered, ran⟩ := run_bind_eq_ok.mp ran
  cases entered
  obtain ⟨steps, _, released, ran⟩ := run_bind_eq_ok.mp ran
  obtain ⟨p, off, rfl⟩ := Station.run_onPlatform_eq_ok.mp released
  obtain ⟨parked, count⟩ := release_ok parked powered (by omega) off
  obtain ⟨_, u, moved, ran⟩ := run_bind_eq_ok.mp ran
  have there := startMove_ok (by omega) moved parked
  obtain ⟨_, v, origin, ran⟩ := run_bind_eq_ok.mp ran
  obtain ⟨e', settled, physical, offset, enabled⟩ := setOrigin_ok origin there
  obtain ⟨_, _, cleared, ran⟩ := run_bind_eq_ok.mp ran
  obtain ⟨_, rfl⟩ := Prod.mk.inj cleared
  obtain ⟨_, _, detached, answered⟩ := run_bind_eq_ok.mp ran
  obtain ⟨_, rfl⟩ := Prod.mk.inj detached
  obtain ⟨same, rfl⟩ := Prod.mk.inj answered
  cases same
  have kept : Parked place e' ({ v.drives.platform with homingSignal := false }).detach :=
    ⟨settled.engine, settled.idle, settled.trigger, settled.free⟩
  dsimp only at physical offset enabled
  rw [pulled] at physical offset
  have origin : e'.positionAt v.drives.platform.now = 0 := by
    unfold Engine.positionAt
    rw [Engine.absoluteAt_of_idle settled.idle]
    omega
  have inactive := parked_active kept
  rw [decide_eq_false (by omega)] at inactive
  refine ⟨(parked_physical kept).trans physical, ?_, ?_, ?_, inactive, rfl, rfl, by omega⟩
  · change (v.drives.platform.engine .z).positionAt v.drives.platform.now = 0
    rw [settled.engine]
    exact origin
  · exact kept.engine ▸ kept.idle
  · exact kept.engine ▸ enabled.trans powered

theorem positive_ok {store : Setting.Store} {key : Setting.Key} {x : Float}
    (passed : Parameters.positive store key = .ok x) :
    store.float key = .ok x ∧ Number.isPositive x = true := by
  obtain ⟨_, read, passed⟩ := except_bind_eq_ok.mp passed
  split at passed
  · cases passed
    exact ⟨except_mapError_eq_ok.mp read, ‹_›⟩
  · cases passed

/-- The settings that the parameters of a cycle are computed from. -/
theorem load_ok {store : Setting.Store} (loaded : Parameters.load store = .ok parameters) :
    ∃ feed scale mm acceleration debounce, Parameters.positive store .homingFeed = .ok feed ∧
      Parameters.positive store (.stepsPerMm .z) = .ok scale ∧
      Parameters.positive store .homingPullOff = .ok mm ∧
      Parameters.positive store (.acceleration .z) = .ok acceleration ∧
      store.int .homingDebounce = .ok debounce ∧ 0 ≤ debounce.toInt ∧
      Units.frequency feed scale ≠ 0 ∧
      parameters = ⟨Units.frequency feed scale, Units.stepAcceleration acceleration scale,
        debounce.toInt.toNat, max 1 (Units.steps mm scale)⟩ := by
  obtain ⟨feed, fed, loaded⟩ := except_bind_eq_ok.mp loaded
  obtain ⟨scale, scaled, loaded⟩ := except_bind_eq_ok.mp loaded
  obtain ⟨mm, pulled, loaded⟩ := except_bind_eq_ok.mp loaded
  obtain ⟨acceleration, accelerated, loaded⟩ := except_bind_eq_ok.mp loaded
  obtain ⟨debounce, rested, loaded⟩ := except_bind_eq_ok.mp loaded
  obtain ⟨passed, loaded⟩ := except_guard_eq_ok.mp loaded
  obtain ⟨some, loaded⟩ := except_guard_eq_ok.mp loaded
  cases loaded
  exact ⟨feed, scale, mm, acceleration, debounce, fed, scaled, pulled, accelerated,
    except_mapError_eq_ok.mp rested, Int.not_lt.mp fun below => (nomatch passed below),
    fun none => (nomatch some none), rfl⟩

theorem load_pullOff {store : Setting.Store} (loaded : Parameters.load store = .ok parameters) :
    1 ≤ parameters.pullOffSteps := by
  obtain ⟨_, _, _, _, _, _, _, _, _, _, _, _, rfl⟩ := load_ok loaded
  exact Int.le_max_left _ _

theorem load_moves {store : Setting.Store} (loaded : Parameters.load store = .ok parameters) :
    parameters.pullOffSteps ≠ 0 := by
  have := load_pullOff loaded
  omega

/-- Homing that succeeds is the whole sequence, begun with the flag down. -/
theorem home_ok {store : Setting.Store} {report : Report}
    (homed : (Station.home limits store).run s = (.ok report, t)) :
    ∃ parameters u v, Parameters.load store = .ok parameters ∧
      u.drives.platform = { s.drives.platform with homingSignal := false } ∧
      (Station.sequence limits parameters).run u = (.ok report, v) ∧ v.drives = t.drives := by
  unfold Station.home at homed
  obtain ⟨_, _, entered, homed⟩ := run_bind_eq_ok.mp homed
  cases entered
  obtain ⟨_, u, lowered, homed⟩ := run_bind_eq_ok.mp homed
  obtain ⟨_, rfl⟩ := Prod.mk.inj lowered
  cases loaded : Parameters.load store with
  | error fault =>
    rw [loaded] at homed
    obtain ⟨_, _, _, failed⟩ := run_bind_eq_ok.mp homed
    cases failed
  | ok parameters =>
    rw [loaded] at homed
    obtain ⟨result, v, tried, homed⟩ := run_bind_eq_ok.mp homed
    cases result with
    | error fault =>
      obtain ⟨_, _, _, failed⟩ := run_bind_eq_ok.mp homed
      obtain ⟨_, _, _, failed⟩ := run_bind_eq_ok.mp failed
      cases failed
    | ok told =>
      obtain ⟨_, _, entered, answered⟩ := run_bind_eq_ok.mp homed
      cases entered
      obtain ⟨same, rfl⟩ := Prod.mk.inj answered
      cases same
      rw [run_attempt] at tried
      obtain ⟨same, rfl⟩ := Prod.mk.inj tried
      exact ⟨parameters, _, _, rfl, rfl, Prod.ext (Except.ok.inj same) rfl, rfl⟩

private theorem sequence_ok {report : Report} {e : Engine}
    (ran : (Station.sequence limits parameters).run s = (.ok report, t))
    (watch : Watch place e s.drives.platform) (down : s.drives.platform.homingSignal = false)
    (some_steps : 1 ≤ parameters.pullOffSteps) : Homed place report t.drives.platform := by
  obtain ⟨_, u, sought, ran⟩ := run_bind_eq_ok.mp ran
  obtain ⟨e₁, watch, reached⟩ := seekSwitch_ok sought watch down
  obtain ⟨_, v, rested, ran⟩ := run_bind_eq_ok.mp ran
  obtain ⟨e₂, parked, powered, physical⟩ := debounce_ok rested watch
  obtain ⟨_, _, pulled, answered⟩ := run_bind_eq_ok.mp ran
  obtain ⟨same, rfl⟩ := Prod.mk.inj answered
  cases same
  exact pullOff_ok pulled parked powered (by omega) some_steps rfl rfl

theorem home_homed {store : Setting.Store} {report : Report}
    (free : s.drives.platform.limit.levelOverride = none)
    (homed : (Station.home limits store).run s = (.ok report, t)) :
    Homed s.drives.platform.limit.trigger report t.drives.platform := by
  obtain ⟨parameters, u, v, loaded, lowered, ran, same⟩ := home_ok homed
  have down : u.drives.platform.homingSignal = false := by rw [lowered]
  have watch : Watch s.drives.platform.limit.trigger (u.drives.platform.engine .z)
      u.drives.platform := by
    refine ⟨rfl, ?_, ?_, fun up => ?_⟩
    · rw [lowered]
    · rw [lowered]
      exact free
    · rw [down] at up
      cases up
  rw [← same]
  exact sequence_ok ran watch down (load_pullOff loaded)

/-- Wherever it begins, homing ends at the same place: one step and the pull-off above the switch. -/
theorem home_origin {store : Setting.Store} {report : Report}
    (free : s.drives.platform.limit.levelOverride = none)
    (homed : (Station.home limits store).run s = (.ok report, t)) :
    Homed s.drives.platform.limit.trigger report t.drives.platform ∧
      ∀ {s' t' : Station} {limits' : Limits} {store' : Setting.Store} {report' : Report},
        s'.drives.platform.limit.levelOverride = none →
        s'.drives.platform.limit.trigger = s.drives.platform.limit.trigger →
        (Station.home limits' store').run s' = (.ok report', t') →
        report'.pullOffSteps = report.pullOffSteps →
        t'.drives.platform.physical .z = t.drives.platform.physical .z := by
  have here := home_homed free homed
  refine ⟨here, fun {s' t' _ _ _} free' switch homed' pulled => ?_⟩
  have there := home_homed free' homed'
  rw [there.physical, here.physical, switch, pulled]

end Phases

def waiting : Station := ⟨Machine.bench.drives, .idle⟩

def descending : Station :=
  ⟨((Drives.launch ⟨⟨0, 0, 40⟩, ⟨0, 0, 50⟩, ⟨0, 0, 0⟩⟩ .z .unattended).run Machine.bench.drives).2,
    .faulted⟩

def homedFrom (s : Station) : Station :=
  ((Station.home Machine.bench.limits Machine.bench.store).run s).2

theorem waiting_homes : (Station.home Machine.bench.limits Machine.bench.store).run waiting =
    (.ok ⟨104, 100, 6, 250⟩, homedFrom waiting) := by
  refine run_eq_of_result ?_
  decide +kernel

theorem descending_homes : (Station.home Machine.bench.limits Machine.bench.store).run descending =
    (.ok ⟨104, 500, 7, 250⟩, homedFrom descending) := by
  refine run_eq_of_result ?_
  decide +kernel

theorem descending_home_origin :
    Homed (-3) ⟨104, 100, 6, 250⟩ (homedFrom waiting).drives.platform ∧
      (homedFrom descending).drives.platform.physical .z =
        (homedFrom waiting).drives.platform.physical .z := by
  have free : waiting.drives.platform.limit.levelOverride = none := rfl
  have free' : descending.drives.platform.limit.levelOverride = none := by decide +kernel
  have switch : waiting.drives.platform.limit.trigger = -3 := rfl
  have switch' : descending.drives.platform.limit.trigger = waiting.drives.platform.limit.trigger := by
    decide +kernel
  obtain ⟨homed, again⟩ := home_origin free waiting_homes
  rw [switch] at homed
  exact ⟨homed, again free' switch' descending_homes rfl⟩

end Crawler.Homing

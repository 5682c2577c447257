import Crawler.Proofs.Run
import Crawler.Proofs.Store

/-! Refused requests. A request is refused for a fault of its own before anything is done for it, with
one exception: a laser is brought to power, and afterwards the machine is waited for, around the
planning of a motion and not only around the motion. -/
namespace Crawler

open Crawler.Action

namespace Hardware

private theorem Engine.retire_restTime_le (e : Engine) (now : Nat) :
    (e.retire now).restTime ≤ e.restTime := by
  cases motion : e.motion with
  | idle => exact Nat.le_of_eq (congrArg restTime (retire_of_idle motion now))
  | run r => exact Nat.le_of_eq (congrArg restTime (retire_of_run motion now))
  | move m =>
    rcases retire_cases (bounded_of_move motion) now with ⟨_, retired⟩ | ⟨_, same⟩
    · rw [retired]
      exact Nat.zero_le _
    · exact Nat.le_of_eq (congrArg restTime same)

namespace Platform

def settle (p : Platform) : Platform := { p with engines := p.engines.map (·.retire p.now) }

variable {p q : Platform} {a : Axis}

private theorem settle_engine (p : Platform) (a : Axis) :
    p.settle.engine a = (p.engine a).retire p.now := by
  exact PerAxis.get_map _ _ _

theorem settle_retire (p : Platform) (a : Axis) : (p.retire a).settle = p.settle := by
  have engines : (p.engines.modify a (·.retire p.now)).map (·.retire p.now) =
      p.engines.map (·.retire p.now) := by
    apply PerAxis.ext_get
    intro b
    rw [PerAxis.get_map, PerAxis.get_map]
    by_cases same : b = a
    · subst same
      rw [PerAxis.get_modify_self, Engine.retire_retire]
    · rw [PerAxis.get_modify_of_ne _ _ same]
  exact congrArg (fun engines => { p with engines }) engines

def Over (p : Platform) : Prop := ∀ a, (p.engine a).restTime ≤ p.now

private theorem awaited_of_over (ended : Over p) (a : Axis) : p.awaited a = p.retire a := by
  have past := ended a
  unfold awaited
  rw [if_neg (by omega)]

private theorem retire_over (ended : Over p) (a : Axis) : Over (p.retire a) := by
  intro b
  rw [retire_now]
  rcases p.retire_engine_cases a b with same | retired
  · rw [same]
    exact ended b
  · rw [retired]
    exact Nat.le_trans (Engine.retire_restTime_le _ _) (ended b)

private theorem settle_atRest (ended : Over p) : (Drives.atRest p).settle = p.settle := by
  have second := retire_over ended .left
  have third := retire_over second .right
  unfold Drives.atRest
  rw [awaited_of_over ended, awaited_of_over second, awaited_of_over third]
  rw [settle_retire, settle_retire, settle_retire]

private theorem restTime_le_atRest (p : Platform) (a : Axis) :
    (p.engine a).restTime ≤ (Drives.atRest p).now := by
  have left : (p.awaited .left).now = max p.now (p.engine .left).restTime := awaited_now
  have right : ((p.awaited .left).awaited .right).now =
      max (p.awaited .left).now (p.engine .right).restTime := by
    rw [awaited_now, awaited_engine_of_ne (by decide)]
  have depth : (Drives.atRest p).now =
      max ((p.awaited .left).awaited .right).now (p.engine .z).restTime := by
    unfold Drives.atRest
    rw [awaited_now, awaited_engine_of_ne (by decide), awaited_engine_of_ne (by decide)]
  cases a <;> omega

theorem settle_atRest_iff : (Drives.atRest p).settle = p.settle ↔ Over p := by
  constructor
  · intro same a
    have now : (Drives.atRest p).settle.now = p.settle.now := by rw [same]
    change (Drives.atRest p).now = p.now at now
    exact now ▸ restTime_le_atRest p a
  · exact settle_atRest

theorem settle_restPosition (same : q.settle = p.settle) (a : Axis) :
    (q.engine a).restPosition = (p.engine a).restPosition := by
  have engines : (q.settle.engine a).restPosition = (p.settle.engine a).restPosition := by rw [same]
  rwa [settle_engine, settle_engine, Engine.retire_restPosition, Engine.retire_restPosition] at engines

private theorem awaited_quiet_of_any (p : Platform) (a b : Axis) : Quiet a p (p.awaited b) := by
  by_cases same : a = b
  · subst same
    exact awaited_quiet
  · exact ⟨[], by rw [awaited_log_of_ne same, List.append_nil], nofun⟩

theorem atRest_quiet (p : Platform) (a : Axis) : Quiet a p (Drives.atRest p) := by
  have left := awaited_quiet_of_any p a .left
  have right := awaited_quiet_of_any (p.awaited .left) a .right
  have depth := awaited_quiet_of_any ((p.awaited .left).awaited .right) a .z
  exact quiet_trans left (quiet_trans right depth)

end Platform

end Hardware

namespace Spindle

variable {s t : Spindle} {on : Bool} {settings : Setting.SpindleSnapshot} {fault : MotionFault}

private theorem bring_unclient (ran : (bring on).run s = (.error fault, t)) : fault.isClient = false := by
  rw [(bring_error ran).1]
  rfl

private theorem beforeMove_error (ran : (beforeMove settings).run s = (.error fault, t)) :
    fault.isClient = false := by
  unfold beforeMove at ran
  rw [run_bind_ok (run_read s)] at ran
  split at ran
  · exact bring_unclient ran
  · cases ran

private theorem afterMove_error (ran : (afterMove settings).run s = (.error fault, t)) :
    fault.isClient = false := by
  unfold afterMove at ran
  split at ran
  · exact bring_unclient ran
  · cases ran

private theorem switch_error (ran : (switch on settings).run s = (.error fault, t)) :
    fault.isClient = false := by
  rcases run_bind_eq_error.mp ran with noted | ⟨_, _, _, failed⟩
  · cases noted
  · exact bring_unclient failed

/-- A percentage that is out of range is refused before the output is called. -/
theorem setPercent_error {percent : Float} (client : fault.isClient = true)
    (ran : (setPercent percent settings).run s = (.error fault, t)) : t = s := by
  unfold setPercent at ran
  split at ran
  · cases ran
    rfl
  · rcases run_bind_eq_error.mp ran with failed | ⟨_, _, _, ended⟩
    · obtain ⟨_, failed, _⟩ := run_on_eq_error.mp failed
      obtain ⟨cause, _, rfl⟩ := run_mapError_eq_error.mp failed
      cases client
    · cases ended

private theorem switchings_le (brought : Brought on s t) :
    s.output.switching.length ≤ t.output.switching.length := by
  obtain ⟨_, made, _⟩ := brought.switchings
  rw [made, List.length_append]
  exact Nat.le_add_right _ _

private theorem switchings_lt (brought : Brought on s t) (other : s.level ≠ on) :
    s.output.switching.length < t.output.switching.length := by
  rw [(brought.switched other).2, List.length_append]
  exact Nat.lt_succ_self _

/-- A motion leaves the spindle alone exactly if it does not bring it to power and back, or off. -/
theorem moved_unchanged_iff {lit : Spindle} (before : (beforeMove settings).run s = (.ok (), lit))
    (after : (afterMove settings).run lit = (.ok (), t)) :
    t = s ↔ ¬ (settings.laserMode = true ∧ (s.enabled = true ∨ s.level = true)) := by
  have powered := beforeMove_ok before
  have unpowered := afterMove_ok after
  cases laser : settings.laserMode with
  | false =>
    simp only [laser, Bool.false_and, Bool.false_eq_true, if_false] at powered unpowered
    simp [unpowered, powered]
  | true =>
    simp only [laser, Bool.true_and, if_true] at powered unpowered
    cases enabled : s.enabled with
    | true =>
      rw [enabled, if_pos rfl] at powered
      have lit_grown := switchings_le powered
      have unlit_grown := switchings_lt unpowered (by rw [powered.level]; decide)
      refine iff_of_false (fun same => ?_) (by simp)
      rw [same] at unlit_grown
      omega
    | false =>
      rw [enabled, if_neg (by decide)] at powered
      subst powered
      cases level : lit.level with
      | true =>
        refine iff_of_false (fun same => ?_) (by simp)
        have dark := unpowered.level
        rw [same, level] at dark
        cases dark
      | false => simp [unpowered.kept level]

private theorem moved_switch {lit : Spindle} (before : (beforeMove settings).run s = (.ok (), lit))
    (after : (afterMove settings).run lit = (.ok (), t)) :
    t.enabled = s.enabled ∧ t.percent = s.percent := by
  have powered : lit.enabled = s.enabled ∧ lit.percent = s.percent := by
    have powered := beforeMove_ok before
    split at powered
    · exact ⟨powered.enabled, powered.percent⟩
    · rw [powered]
      exact ⟨rfl, rfl⟩
  have unpowered := afterMove_ok after
  split at unpowered
  · exact ⟨unpowered.enabled.trans powered.1, unpowered.percent.trans powered.2⟩
  · rw [unpowered]
    exact powered

end Spindle

namespace Drives

variable {d d' : Drives} {store : Setting.Store} {mm feed : Float} {fault : MotionFault}

private theorem dispatch_error {plan : Plan} (failed : (dispatch plan).run d = (.error fault, d')) :
    fault.isClient = false := by
  rcases run_bind_eq_error.mp failed with failed | ⟨_, _, _, answered⟩
  · obtain ⟨_, _, rfl⟩ := carryOut_error failed
    rfl
  · cases answered

/-- A motion that its request rules out is ruled out by its plan. -/
theorem drive_refused {direction : Direction} (client : fault.isClient = true)
    (refused : (drive store direction mm feed).run d = (.error fault, d')) : d' = d := by
  rcases run_bind_eq_error.mp refused with unplanned | ⟨_, _, _, failed⟩
  · exact (congrArg Prod.snd unplanned).symm
  · rw [dispatch_error failed] at client
    cases client

private theorem depth_refused (client : fault.isClient = true)
    (refused : (depth store mm feed).run d = (.error fault, d')) : d' = d := by
  unfold depth at refused
  rw [run_bind_ok (run_read d)] at refused
  rcases run_bind_eq_error.mp refused with unplanned | ⟨_, _, _, failed⟩
  · exact (congrArg Prod.snd unplanned).symm
  · rw [dispatch_error failed] at client
    cases client

end Drives

namespace Machine

open Hardware (Platform)
open Hardware.Platform (Over)
open Homing (Station)

def seen (m : Machine) : Machine :=
  { m with drives := { m.drives with platform := m.drives.platform.settle } }

def Unchanged (m m' : Machine) : Prop := ∃ console, m'.seen = { m.seen with console }

variable {m m' : Machine} {fault : Fault}

private theorem unchanged_refl (m : Machine) : Unchanged m m := by
  exact ⟨m.console, rfl⟩

private theorem unchanged_told (console : Console) (unchanged : Unchanged m m') :
    Unchanged m { m' with console } := by
  obtain ⟨_, same⟩ := unchanged
  refine ⟨console, ?_⟩
  change { m'.seen with console } = _
  rw [same]

private theorem status_unchanged : Preserves (Unchanged m) status := by
  refine preserves_status fun m' held => ?_
  have asked (a : Axis) : Preserves (fun d => Unchanged m { m' with drives := d })
      (Drives.isMoving a : Action Drives Fault Bool) := by
    rintro d ⟨console, same⟩
    refine ⟨console, ?_⟩
    rw [Drives.run_isMoving]
    unfold seen at same ⊢
    dsimp only at same ⊢
    rw [Platform.settle_retire]
    exact same
  exact Drives.preserves_readings asked m'.drives held

private theorem reporting_error {α : Type} {action : Action Machine Fault α} {success : α → String}
    {failure : Fault → String} (failed : (reporting action success failure).run m = (.error fault, m')) :
    ∃ next console, action.run m = (.error fault, next) ∧ { next with console } = m' := by
  obtain ⟨console, told⟩ := run_reporting action success failure m
  rw [told] at failed
  obtain ⟨same, rfl⟩ := Prod.mk.inj failed
  exact ⟨_, console, run_eq_of_result same, rfl⟩

private theorem readStore_refused {α : Type} {query : Setting.Store → Except Setting.Fault α}
    (refused : (readStore query).run m = (.error fault, m')) : Unchanged m m' := by
  obtain ⟨_, rfl⟩ := Prod.mk.inj refused
  exact unchanged_refl m

/-- Homing has no faults of the request, but the switch for it may be unreadable. -/
theorem home_refused (client : fault.isClient = true) (refused : home.run m = (.error fault, m')) :
    Unchanged m m' := by
  unfold home at refused
  rw [run_bind_ok (run_read m)] at refused
  rcases run_bind_eq_error.mp refused with unread | ⟨enabled, _, _, refused⟩
  · exact readStore_refused unread
  · split at refused
    · rcases run_bind_eq_error.mp refused with told | ⟨_, _, _, failed⟩
      · cases told
      · obtain ⟨_, _, failed, _⟩ := reporting_error failed
        obtain ⟨cause, _, rfl⟩ := run_mapError_eq_error.mp failed
        cases client
    · rcases run_bind_eq_error.mp refused with told | ⟨_, _, _, disabled⟩
      · cases told
      · cases disabled
        cases client

private theorem onSpindle_error {α : Type} {action : Action Spindle MotionFault α}
    (failed : ((onSpindle action).mapError Fault.motion).run m = (.error fault, m')) :
    ∃ cause s, action.run m.spindle = (.error cause, s) ∧ fault = .motion cause ∧
      m' = { m with spindle := s } := by
  obtain ⟨cause, ran, same⟩ := run_mapError_eq_error.mp failed
  unfold onSpindle at ran
  obtain ⟨s, stopped, left⟩ := run_on_eq_error.mp ran
  exact ⟨cause, s, stopped, same.symm, left.symm⟩

/-- Once a spindle is being switched, a request fails for its output alone. -/
theorem switch_refused {on : Bool} {settings : Setting.SpindleSnapshot}
    {next : Unit → Action Machine Fault SpindleReading}
    (answers : ∀ u m₁, ∃ reading, ((next u).run m₁).1 = .ok reading)
    (refused : ((onSpindle (Spindle.switch on settings)).mapError Fault.motion >>= next).run m =
      (.error fault, m')) : fault.isClient = false := by
  rcases run_bind_eq_error.mp refused with failed | ⟨u, m₁, _, failed⟩
  · obtain ⟨cause, _, ran, same, _⟩ := onSpindle_error failed
    rw [same]
    exact Spindle.switch_error ran
  · obtain ⟨reading, answered⟩ := answers u m₁
    rw [failed] at answered
    cases answered

/-- A spindle request is refused for its speed, which comes first, and for nothing later. -/
theorem useSpindle_refused {request : SpindleRequest} (client : fault.isClient = true)
    (refused : (useSpindle request).run m = (.error fault, m')) : Unchanged m m' := by
  obtain ⟨enable, speed⟩ := request
  rcases run_bind_eq_error.mp refused with unread | ⟨settings, m₁, read, refused⟩
  · exact readStore_refused unread
  have same : m = m₁ := congrArg Prod.snd read
  subst same
  have switching {on : Bool} {m₁ : Machine} {next : Unit → Action Machine Fault SpindleReading}
      (answers : ∀ u m₁, ∃ reading, ((next u).run m₁).1 = .ok reading)
      (refused : ((onSpindle (Spindle.switch on settings)).mapError Fault.motion >>= next).run m₁ =
        (.error fault, m')) : Unchanged m m' := by
    rw [switch_refused answers refused] at client
    cases client
  cases speed with
  | none =>
    cases enable with
    | none => cases congrArg Prod.fst refused
    | some on => exact switching (fun _ _ => ⟨_, rfl⟩) refused
  | some percent =>
    rcases run_bind_eq_error.mp refused with failed | ⟨_, m₁, _, refused⟩
    · obtain ⟨cause, s, ran, same, left⟩ := onSpindle_error failed
      rw [same] at client
      rw [left, Spindle.setPercent_error client ran]
      exact unchanged_refl m
    · cases enable with
      | none => cases congrArg Prod.fst refused
      | some on => exact switching (fun _ _ => ⟨_, rfl⟩) refused

private theorem run_onStore {α : Type} {action : Action Setting.Store Setting.Fault α}
    {result : Except Setting.Fault α} {store : Setting.Store} (ran : action.run m.store = (result, store)) :
    (onStore action).run m = (result.mapError .settings, { m with store }) := by
  unfold onStore
  rw [run_on, run_mapError, ran]

private theorem reporting_then_error {α β : Type} {action : Action Machine Fault α} {success : α → String}
    {failure : Fault → String} {next : α → Action Machine Fault β}
    (failed : (reporting action success failure >>= next).run m = (.error fault, m')) :
    (∃ m₁ console, action.run m = (.error fault, m₁) ∧ { m₁ with console } = m') ∨
      ∃ a m₁ console, action.run m = (.ok a, m₁) ∧
        (next a).run { m₁ with console } = (.error fault, m') := by
  rcases run_bind_eq_error.mp failed with failed | ⟨a, _, ran, failed⟩
  · exact .inl (reporting_error failed)
  · obtain ⟨console, told⟩ := run_reporting action success failure m
    rw [told] at ran
    obtain ⟨same, rfl⟩ := Prod.mk.inj ran
    exact .inr ⟨a, _, console, run_eq_of_result same, failed⟩

/-- A setting is refused before it is written, and one that was written can be read. -/
theorem enterSetting_refused {key : Setting.Key} {text : String} (client : fault.isClient = true)
    (refused : (enterSetting key text).run m = (.error fault, m')) : Unchanged m m' := by
  rcases Setting.Store.setText_cases key text m.store with
    ⟨value, store, stored, readable⟩ | ⟨cause, failed⟩ | ⟨cause, store, failed⟩
  · have ran := run_onStore stored
    rcases reporting_then_error refused with ⟨_, _, failed, _⟩ | ⟨_, m₁, console, entered, unread⟩
    · rw [ran] at failed
      cases failed
    · rw [ran] at entered
      obtain ⟨_, rfl⟩ := Prod.mk.inj entered
      have asked : (store.value key).map (Setting.Entry.mk key) = .ok ⟨key, value⟩ := by
        rw [readable]
        rfl
      have answered : (setting key).run { m with store, console } = (.ok ⟨key, value⟩, _) :=
        readStore_ok asked
      cases congrArg Prod.fst (answered.symm.trans unread)
  · have ran := run_onStore failed
    rcases reporting_then_error refused with ⟨_, _, failed, left⟩ | ⟨_, _, _, entered, _⟩
    · rw [ran] at failed
      obtain ⟨_, rfl⟩ := Prod.mk.inj failed
      rw [← left]
      exact unchanged_told _ (unchanged_refl m)
    · rw [ran] at entered
      cases entered
  · have ran := run_onStore failed
    rcases reporting_then_error refused with ⟨_, _, failed, _⟩ | ⟨_, _, _, entered, _⟩
    · rw [ran] at failed
      cases failed
      cases client
    · rw [ran] at entered
      cases entered

/-- Restoring the defaults fails for the medium alone. -/
theorem restoreSettings_refused (client : fault.isClient = true) :
    restoreSettings.run m ≠ (.error fault, m') := by
  intro refused
  rcases Setting.Store.restoreDefaults_cases m.store with
    ⟨store, entries, restored, listed⟩ | ⟨cause, store, failed⟩
  · have ran := run_onStore restored
    rcases run_bind_eq_error.mp refused with failed | ⟨_, m₁, written, unread⟩
    · rw [ran] at failed
      cases failed
    · rw [ran] at written
      obtain ⟨_, rfl⟩ := Prod.mk.inj written
      rcases run_bind_eq_error.mp unread with failed | ⟨_, m₂, told, unread⟩
      · cases failed
      · obtain ⟨_, rfl⟩ := Prod.mk.inj told
        have answered := readStore_ok (m := { m with
          store, console := m.console.tell .info "Settings reset to defaults" }) listed
        cases congrArg Prod.fst (answered.symm.trans unread)
  · have ran := run_onStore failed
    rcases run_bind_eq_error.mp refused with failed | ⟨_, _, written, _⟩
    · rw [ran] at failed
      cases failed
      cases client
    · rw [ran] at written
      cases written

structure Spared (m m' : Machine) : Prop where
  store : m'.store = m.store
  phase : m'.phase = m.phase
  limits : m'.limits = m.limits
  cruise : m'.drives.cruise = m.drives.cruise
  enabled : m'.spindle.enabled = m.spindle.enabled
  percent : m'.spindle.percent = m.spindle.percent
  rests : ∀ a, (m'.drives.platform.engine a).restPosition = (m.drives.platform.engine a).restPosition
  quiet : ∀ a, Platform.Quiet a m.drives.platform m'.drives.platform

private theorem unchanged_spared (unchanged : Unchanged m m') : Spared m m' := by
  obtain ⟨console, same⟩ := unchanged
  have drives : m'.seen.drives = m.seen.drives := by rw [same]
  have settled : m'.drives.platform.settle = m.drives.platform.settle :=
    congrArg Drives.platform drives
  have cruise : m'.drives.cruise = m.drives.cruise := by
    change m'.seen.drives.cruise = m.seen.drives.cruise
    rw [drives]
  have spindle : m'.spindle = m.spindle := by
    change m'.seen.spindle = m.seen.spindle
    rw [same]
  have log (a : Axis) : m'.drives.platform.log a = m.drives.platform.log a := by
    change m'.drives.platform.settle.log a = m.drives.platform.settle.log a
    rw [settled]
  refine ⟨?_, ?_, ?_, cruise, by rw [spindle], by rw [spindle],
    Platform.settle_restPosition settled, fun a => ⟨[], by rw [log, List.append_nil], nofun⟩⟩
  · change m'.seen.store = m.seen.store
    rw [same]
  · change m'.seen.phase = m.seen.phase
    rw [same]
  · change m'.seen.limits = m.seen.limits
    rw [same]

/-- In laser mode something is left to do around a motion: a spindle is switched on or has power, or an
axis is still in a move. -/
def Stirred (m : Machine) : Prop :=
  ∃ settings, Spindle.settings m.store = .ok settings ∧ settings.laserMode = true ∧
    (m.spindle.enabled = true ∨ m.spindle.level = true ∨ ¬ Over m.drives.platform)

private theorem unchanged_iff {platform : Platform} {spindle : Spindle} :
    Unchanged m { m with drives := { m.drives with platform }, spindle } ↔
      platform.settle = m.drives.platform.settle ∧ spindle = m.spindle := by
  constructor
  · rintro ⟨console, same⟩
    have drives := congrArg Machine.drives same
    exact ⟨congrArg Drives.platform drives, congrArg Machine.spindle same⟩
  · rintro ⟨settled, rfl⟩
    refine ⟨m.console, ?_⟩
    unfold seen
    dsimp only
    rw [settled]

/-- What a motion leaves that was powered and waited for, but never started. -/
theorem moved_refused {settings : Setting.SpindleSnapshot} {lit s : Spindle}
    (bounded : Platform.Bounded m.drives.platform) (asked : Spindle.settings m.store = .ok settings)
    (before : (Spindle.beforeMove settings).run m.spindle = (.ok (), lit))
    (after : (Spindle.afterMove settings).run lit = (.ok (), s)) :
    let m' := { m with drives := afterMotion settings m.drives, spindle := s }
    Spared m m' ∧ (Unchanged m m' ↔ ¬ Stirred m) := by
  have left_alone := Spindle.moved_unchanged_iff before after
  have stirred : Stirred m ↔ settings.laserMode = true ∧
      (m.spindle.enabled = true ∨ m.spindle.level = true ∨ ¬ Over m.drives.platform) := by
    unfold Stirred
    simp [asked]
  unfold afterMotion
  cases laser : settings.laserMode with
  | false =>
    have same : s = m.spindle := left_alone.mpr (by simp [laser])
    rw [stirred, laser, same]
    exact ⟨unchanged_spared (unchanged_refl m), by simp [unchanged_refl]⟩
  | true =>
    obtain ⟨enabled, percent⟩ := Spindle.moved_switch before after
    rw [if_pos rfl, Drives.run_awaitAll bounded]
    refine ⟨⟨rfl, rfl, rfl, rfl, enabled, percent, Drives.atRest_restPosition bounded,
      Platform.atRest_quiet _⟩, ?_⟩
    change Unchanged m { m with
      drives := { m.drives with platform := Drives.atRest m.drives.platform }, spindle := s } ↔ _
    rw [unchanged_iff, Platform.settle_atRest_iff, left_alone, stirred, laser]
    grind

/-- A motion that is refused for its request has been planned with the laser under power, and the
machine is waited for although nothing was started. -/
theorem gated_refused {motion : Action Drives MotionFault Receipt}
    (bounded : Platform.Bounded m.drives.platform)
    (planned : ∀ cause d, cause.isClient = true → motion.run m.drives = (.error cause, d) →
      d = m.drives)
    (client : fault.isClient = true) (refused : (gated motion).run m = (.error fault, m')) :
    Spared m m' ∧ (Unchanged m m' ↔ ¬ Stirred m) := by
  cases asked : Spindle.settings m.store with
  | error cause =>
    rw [gated_unread asked] at refused
    obtain ⟨_, rfl⟩ := Prod.mk.inj refused
    refine ⟨unchanged_spared (unchanged_refl m), iff_of_true (unchanged_refl m) ?_⟩
    rintro ⟨settings, read, _⟩
    rw [asked] at read
    cases read
  | ok settings =>
    cases before : (Spindle.beforeMove settings).run m.spindle with
    | mk powered lit =>
      cases powered with
      | error cause =>
        rw [gated_unlit asked before] at refused
        cases refused
        rw [show Fault.isClient (.motion cause) = cause.isClient from rfl,
          Spindle.beforeMove_error before] at client
        cases client
      | ok u =>
        cases moved : motion.run m.drives with
        | mk result d =>
          cases after : (Spindle.afterMove settings).run lit with
          | mk unpowered s =>
            rw [gated_lit asked before moved after] at refused
            obtain ⟨failed, rfl⟩ := Prod.mk.inj refused
            cases unpowered with
            | error cause =>
              cases failed
              rw [show Fault.isClient (.motion cause) = cause.isClient from rfl,
                Spindle.afterMove_error after] at client
              cases client
            | ok u =>
              cases result with
              | ok receipt => cases failed
              | error cause =>
                cases failed
                rw [planned cause d client moved]
                exact moved_refused bounded asked before after

private theorem motion_unplanned {command : Command} {motion : Action Drives MotionFault Receipt}
    (asked : command.motion? m.store = some motion) (cause : MotionFault) (d : Drives)
    (client : cause.isClient = true) (refused : motion.run m.drives = (.error cause, d)) :
    d = m.drives := by
  cases command with
  | drive request =>
    cases asked
    exact Drives.drive_refused client refused
  | depth request =>
    cases asked
    exact Drives.depth_refused client refused
  | _ => cases asked

private theorem motion_refused {command : Command} {motion : Action Drives MotionFault Receipt}
    (asked : command.motion? m.store = some motion) (bounded : Platform.Bounded m.drives.platform)
    (client : fault.isClient = true) (refused : (execute command).run m = (.error fault, m')) :
    Spared m m' ∧ (Unchanged m m' ↔ ¬ Stirred m) := by
  obtain ⟨console, ran⟩ := execute_motion asked
  rw [ran] at refused
  cases gone : (gated motion).run m with
  | mk result next =>
    rw [gone] at refused
    cases result with
    | ok receipt => cases refused
    | error cause =>
      cases refused
      obtain ⟨spared, unchanged⟩ := gated_refused bounded (motion_unplanned asked) client gone
      have told : Unchanged m { next with console } ↔ Unchanged m next := by
        constructor
        · intro same
          have restored := unchanged_told next.console same
          exact restored
        · exact unchanged_told console
      exact ⟨⟨spared.store, spared.phase, spared.limits, spared.cruise, spared.enabled, spared.percent,
        spared.rests, spared.quiet⟩, told.trans unchanged⟩

def Command.isMotion : Command → Bool
  | .drive _ | .depth _ => true
  | _ => false

private theorem answer_refused {α β : Type} {action : Action Machine Fault α} {answer : α → β}
    (refused : (action >>= fun a => pure (answer a)).run m = (.error fault, m')) :
    action.run m = (.error fault, m') := by
  rcases run_bind_eq_error.mp refused with failed | ⟨_, _, _, answered⟩
  · exact failed
  · cases answered

private theorem execute_refused {command : Command} (bounded : Platform.Bounded m.drives.platform)
    (client : fault.isClient = true) (refused : (execute command).run m = (.error fault, m')) :
    Spared m m' ∧ (Unchanged m m' ↔ ¬ (command.isMotion = true ∧ Stirred m)) := by
  have aside (still : command.isMotion = false) (unchanged : Unchanged m m') :
      Spared m m' ∧ (Unchanged m m' ↔ ¬ (command.isMotion = true ∧ Stirred m)) :=
    ⟨unchanged_spared unchanged, iff_of_true unchanged (by simp [still])⟩
  have moving (moves : command.isMotion = true)
      (refused : Spared m m' ∧ (Unchanged m m' ↔ ¬ Stirred m)) :
      Spared m m' ∧ (Unchanged m m' ↔ ¬ (command.isMotion = true ∧ Stirred m)) := by
    simpa [moves] using refused
  cases command with
  | drive request => exact moving rfl (motion_refused rfl bounded client refused)
  | depth request => exact moving rfl (motion_refused rfl bounded client refused)
  | home => exact aside rfl (home_refused client (answer_refused refused))
  | status =>
    have kept := status_unchanged m (unchanged_refl m)
    rw [answer_refused refused] at kept
    exact aside rfl kept
  | emergencyStop => cases congrArg Prod.fst refused
  | spindle request => exact aside rfl (useSpindle_refused client (answer_refused refused))
  | showSettings => exact aside rfl (readStore_refused (answer_refused refused))
  | showSetting key => exact aside rfl (readStore_refused (answer_refused refused))
  | enterSetting key text => exact aside rfl (enterSetting_refused client (answer_refused refused))
  | restoreSettings => exact absurd (answer_refused refused) (restoreSettings_refused client)

/-- A command that fails for a fault of its request changes no setting and no position and starts no
move. It changes nothing at all, unless it is a motion and laser mode has something to do around it:
then the laser is switched and moves in flight are waited for, although the motion is refused. -/
theorem refused_unchanged_iff {store : Setting.Store} {pins : PerAxis Nat} {trigger : Int}
    {output : Hardware.SpindleOutput} {limits : Homing.Limits} {console : Console}
    {stimuli : List Stimulus} {command : Command}
    (reached : (run stimuli (fresh store (.fresh pins trigger) output limits console)).2 = m)
    (refused : (execute command).run m = (.error fault, m')) (client : fault.isClient = true) :
    Spared m m' ∧ (Unchanged m m' ↔ ¬ (command.isMotion = true ∧ Stirred m)) := by
  have intact : Intact (fun _ => True) m := reached ▸ run_intact Spindle.true_kept trivial stimuli
  exact execute_refused (Platform.sound_bounded intact.sound) client refused

def armed : Machine :=
  (run [.command (.enterSetting .laserMode "1"), .command (.spindle ⟨some true, none⟩)] bench).2

def nowhere : Command := .drive ⟨.forward, 100, 0⟩

private theorem nowhere_refused :
    (execute nowhere).run armed =
      (.error (.motion (.notPositive .distance 0)), ((execute nowhere).run armed).2) := by
  refine run_eq_of_result ?_
  decide +kernel

theorem nowhere_changes :
    Spared armed ((execute nowhere).run armed).2 ∧
      ¬ Unchanged armed ((execute nowhere).run armed).2 := by
  obtain ⟨spared, unchanged⟩ := refused_unchanged_iff rfl nowhere_refused rfl
  have stirred : Stirred armed := by
    have asked : Spindle.settings armed.store = .ok ⟨1000, 0, true⟩ := by decide +kernel
    exact ⟨_, asked, rfl, .inl (by decide +kernel)⟩
  exact ⟨spared, fun same => unchanged.mp same ⟨rfl, stirred⟩⟩

/-- A drive of no distance is refused, and the laser has been on and off. -/
theorem refused_in_light :
    Fault.isClient (.motion (.notPositive .distance 0)) = true ∧
      ((execute nowhere).run armed).1 = .error (.motion (.notPositive .distance 0)) ∧
      armed.spindle.output.switching = [] ∧
      ((execute nowhere).run armed).2.spindle.output.switching = [true, false] := by
  decide +kernel

end Machine

end Crawler

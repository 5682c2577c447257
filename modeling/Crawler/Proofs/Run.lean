import Crawler.Machine.Basic
import Crawler.Proofs.Sound
import Crawler.Proofs.Spindle

/-! Runs of a machine: commands one after another, and between them time that passes, settings that
change and hardware that is disturbed. Whatever happens, the drives are sound after each step. -/
namespace Crawler

inductive Hardware.Platform.Disturbance : (Hardware.Platform → Hardware.Platform) → Prop
  | advance (us : Nat) : Disturbance (Platform.advance us)
  | advanceUntil (us : Nat) : Disturbance (Platform.advanceUntil us)
  | failNext (a : Axis) (reason : String) : Disturbance (Platform.failNext a reason)
  | overrideLevel (level : Option Bool) : Disturbance (Platform.overrideLevel level)
  | edge : Disturbance Platform.trigger

namespace Hardware.Platform

variable {f : Platform → Platform}

/-- A disturbance makes the next call of a driver fail, and does nothing else to an axis. -/
theorem Disturbance.engine_cases (disturbance : Disturbance f) (p : Platform) (a : Axis) :
    (f p).engine a = p.engine a ∨
      ∃ reason, (f p).engine a = { p.engine a with nextFault := some reason } := by
  cases disturbance with
  | advance us => exact .inl (congrArg (PerAxis.get · a) (p.advance_engines us))
  | advanceUntil us => exact .inl (congrArg (PerAxis.get · a) (p.advanceUntil_engines us))
  | failNext b reason =>
    by_cases same : a = b
    · subst same
      exact .inr ⟨reason, failNext_engine p a reason⟩
    · obtain ⟨engine, _⟩ := failNext_elsewhere p b reason a same
      exact .inl engine
  | overrideLevel level => exact .inl rfl
  | edge => exact .inl (congrArg (PerAxis.get · a) (p.serve_engines true))

theorem Disturbance.logs (disturbance : Disturbance f) (p : Platform) : (f p).logs = p.logs := by
  cases disturbance with
  | advance us => exact p.advance_logs us
  | advanceUntil us => exact p.advanceUntil_logs us
  | failNext a reason => rfl
  | overrideLevel level => rfl
  | edge => exact p.serve_logs true

private theorem sound_disturbed {p : Platform} (disturbance : Disturbance f) (sound : Sound p) :
    Sound (f p) := by
  have log (a : Axis) : (f p).log a = p.log a := congrArg (PerAxis.get · a) (disturbance.logs p)
  refine ⟨⟨fun a track => ?_, fun a => ?_⟩, ?_⟩
  · rcases disturbance.engine_cases p a with same | ⟨reason, faulted⟩
    · rw [same]
      exact sound.tracks a track
    · rw [faulted]
      exact sound.tracks a track
  · rw [log]
    exact sound.undropped a
  · rcases disturbance.engine_cases p .z with same | ⟨reason, faulted⟩
    · rw [same]
      exact sound.rests
    · rw [faulted]
      exact sound.rests

end Hardware.Platform

namespace Homing.Station

open Crawler.Action
open Hardware (Platform)
open Hardware.Platform (Sound Disturbance)

structure Watched (Q : Station → Prop) : Prop where
  readings : ∀ phase, Preserves (fun d => Q ⟨d, phase⟩)
    (Drives.readings : Action Drives Machine.Fault (PerAxis AxisReading))
  awaitAll : ∀ phase, Preserves (fun d => Q ⟨d, phase⟩) Drives.awaitAll
  disturbed : ∀ phase f, Disturbance f → (∀ p, (f p).limit.levelOverride = p.limit.levelOverride) →
    Preserves (fun d => Q ⟨d, phase⟩) (Drives.onPlatform (.modify f) : Action Drives Machine.Fault Unit)

structure Driven (Q : Station → Prop) : Prop extends Watched Q where
  drive : ∀ phase store direction mm feed,
    Preserves (fun d => Q ⟨d, phase⟩) (Drives.drive store direction mm feed)
  depth : ∀ phase store mm feed, Preserves (fun d => Q ⟨d, phase⟩) (Drives.depth store mm feed)

structure Stopped (Q : Station → Prop) : Prop extends Driven Q where
  forced : ∀ phase level, Preserves (fun d => Q ⟨d, phase⟩)
    (Drives.onPlatform (.modify (Platform.overrideLevel level)) : Action Drives Machine.Fault Unit)
  emergencyStop : ∀ phase, Preserves (fun d => Q ⟨d, phase⟩) Drives.emergencyStop
  released : ∀ s : Station, Q s →
    Q ⟨{ s.drives with platform := s.drives.platform.detach }, .idle⟩

structure Kept (Q : Station → Prop) : Prop extends Stopped Q where
  home : ∀ limits store, Preserves Q (home limits store)

theorem sound_kept : Kept fun s => Sound s.drives.platform where
  drive _ := Drives.drive_sound
  depth _ := Drives.depth_sound
  readings _ := Drives.preserves_readings Drives.isMoving_sound
  awaitAll _ := Drives.awaitAll_sound
  emergencyStop _ := Drives.emergencyStop_sound
  released _ sound := Platform.sound_same sound rfl rfl
  home := home_sound
  forced _ _ _ sound := Platform.sound_same sound rfl rfl
  disturbed _ _ disturbance _ _ sound := Hardware.Platform.sound_disturbed disturbance sound

theorem true_kept : Kept fun _ => True where
  drive _ _ _ _ _ _ _ := trivial
  depth _ _ _ _ _ _ := trivial
  readings _ _ _ := trivial
  awaitAll _ _ _ := trivial
  emergencyStop _ _ _ := trivial
  released _ _ := trivial
  home _ _ _ _ := trivial
  forced _ _ _ _ := trivial
  disturbed _ _ _ _ _ _ := trivial

end Homing.Station

namespace Machine

open Crawler.Action
open Hardware (Platform)
open Hardware.Platform (Sound Disturbance)
open Homing (Station)

inductive Stimulus where
  | command (command : Command)
  | wait
  | advance (us : Nat)
  | advanceUntil (us : Nat)
  /-- The next move of an axis will be rejected. -/
  | failNext (a : Axis) (reason : String)
  /-- The limit switch shows a level whatever the position is. -/
  | overrideLevel (level : Option Bool)
  | edge
  /-- Someone else changes the settings. -/
  | reconfigure (store : Setting.Store)

def onPlatform (f : Platform → Platform) : Action Machine Fault Unit :=
  onDrives (Drives.onPlatform (.modify f))

def respond : Stimulus → Action Machine Fault (Option Response)
  | .command command => do
    let response ← execute command
    return some response
  | .wait => do
    awaitRest
    return none
  | .advance us => do
    onPlatform (Platform.advance us)
    return none
  | .advanceUntil us => do
    onPlatform (Platform.advanceUntil us)
    return none
  | .failNext a reason => do
    onPlatform (Platform.failNext a reason)
    return none
  | .overrideLevel level => do
    onPlatform (Platform.overrideLevel level)
    return none
  | .edge => do
    onPlatform Platform.trigger
    return none
  | .reconfigure store => do
    .modify fun machine => { machine with store }
    return none

abbrev Outcome := Except Fault (Option Response)

def run : List Stimulus → Machine → List Outcome × Machine
  | [], machine => ([], machine)
  | stimulus :: rest, machine =>
    let (outcome, machine) := (respond stimulus).run machine
    let (outcomes, machine) := run rest machine
    (outcome :: outcomes, machine)

variable {P : Machine → Prop} {stimuli : List Stimulus} {m : Machine}

theorem run_execute {α : Type} {command : Command} {action : Action Machine Fault α}
    (answer : α → Response) (defined : execute command = action >>= fun x => pure (answer x))
    (m : Machine) :
    (execute command).run m = ((action.run m).1.map answer, (action.run m).2) := by
  rw [defined, run_bind]
  cases action.run m with
  | mk result m' => cases result <;> rfl

theorem respond_command (command : Command) (m : Machine) :
    (respond (.command command)).run m =
      (((execute command).run m).1.map some, ((execute command).run m).2) := by
  change (execute command >>= fun response => pure (some response)).run m = _
  rw [run_bind]
  cases (execute command).run m with
  | mk result m' => cases result <;> rfl

theorem run_command {α : Type} {command : Command} {action : Action Machine Fault α}
    (answer : α → Response) (defined : execute command = action >>= fun x => pure (answer x))
    (m : Machine) :
    (respond (.command command)).run m =
      ((action.run m).1.map fun x => some (answer x), (action.run m).2) := by
  rw [respond_command, run_execute answer defined]
  cases (action.run m).1 <;> rfl

theorem run_preserves (kept : ∀ stimulus ∈ stimuli, Preserves P (respond stimulus)) (held : P m) :
    P (run stimuli m).2 := by
  induction stimuli generalizing m with
  | nil => exact held
  | cons stimulus rest ih =>
    have here := kept stimulus List.mem_cons_self m held
    exact ih (fun later inside => kept later (List.mem_cons_of_mem stimulus inside)) here

theorem readStore_ok {α : Type} {query : Setting.Store → Except Setting.Fault α} {a : α}
    (asked : query m.store = .ok a) : (readStore query).run m = (.ok a, m) := by
  change ((query m.store).mapError Fault.settings, m) = _
  rw [asked]
  rfl

theorem readStore_error {α : Type} {query : Setting.Store → Except Setting.Fault α}
    {fault : Setting.Fault} (asked : query m.store = .error fault) :
    (readStore query).run m = (.error (.settings fault), m) := by
  change ((query m.store).mapError Fault.settings, m) = _
  rw [asked]
  rfl

section Preserves

variable (told : ∀ severity text, Preserves P (tell severity text))

include told in
theorem preserves_reporting {α : Type} {action : Action Machine Fault α} {success : α → String}
    {failure : Fault → String} (kept : Preserves P action) :
    Preserves P (reporting action success failure) := by
  refine preserves_bind (preserves_attempt kept) fun result => ?_
  cases result with
  | ok a => exact preserves_map (told _ _)
  | error fault =>
    refine preserves_bind (told _ _) fun _ => ?_
    exact preserves_fail fault

theorem preserves_readStore {α : Type} (query : Setting.Store → Except Setting.Fault α) :
    Preserves P (readStore query) := by
  intro m held
  exact held

include told in
theorem useSpindle_keeps {request : SpindleRequest}
    (switched : ∀ on ∈ request.enable, ∀ settings, Spindle.settings m.store = .ok settings →
      Preserves P (onSpindle (Spindle.switch on settings)))
    (set : ∀ percent settings, Spindle.settings m.store = .ok settings →
      Preserves P (onSpindle (Spindle.setPercent percent settings)))
    (held : P m) : P ((useSpindle request).run m).2 := by
  obtain ⟨enable, speed⟩ := request
  unfold useSpindle
  cases asked : Spindle.settings m.store with
  | error fault =>
    rw [run_bind_error (readStore_error asked)]
    exact held
  | ok settings =>
    rw [run_bind_ok (readStore_ok asked)]
    have ended : Preserves P (do
        let machine ← Action.read
        return machine.spindle.state settings : Action Machine Fault SpindleReading) :=
      preserves_map preserves_read
    have switching (on : Bool) (inside : on ∈ enable) : Preserves P (do
        (onSpindle (Spindle.switch on settings)).mapError .motion
        tell .info (if on then "Spindle on" else "Spindle off")
        let machine ← Action.read
        return machine.spindle.state settings : Action Machine Fault SpindleReading) := by
      refine preserves_bind (preserves_mapError (switched on inside settings asked)) fun _ => ?_
      refine preserves_bind (told _ _) fun _ => ?_
      exact ended
    have setting (percent : Float) :=
      preserves_mapError (f := Fault.motion) (set percent settings asked)
    cases speed with
    | none =>
      cases enable with
      | none => exact held
      | some on => exact switching on rfl m held
    | some percent =>
      refine preserves_bind (setting percent) (fun _ => ?_) m held
      cases enable with
      | none => exact ended
      | some on => exact switching on rfl

theorem preserves_gated {motion : Action Drives MotionFault Receipt}
    (before : ∀ settings, Preserves P (onSpindle (Spindle.beforeMove settings)))
    (after : ∀ settings, Preserves P (onSpindle (Spindle.afterMove settings)))
    (moved : Preserves P (onDrives motion)) (waited : Preserves P awaitRest) :
    Preserves P (gated motion) := by
  refine preserves_bind (preserves_readStore _) fun settings => ?_
  refine preserves_bind (preserves_mapError (before settings)) fun _ => ?_
  refine preserves_bind (preserves_attempt moved) fun result => ?_
  have rest : Preserves P (do
      (onSpindle (Spindle.afterMove settings)).mapError .motion
      .ofExcept (result.mapError .motion) : Action Machine Fault Receipt) := by
    refine preserves_bind (preserves_mapError (after settings)) fun _ => ?_
    exact preserves_ofExcept _
  dsimp only
  split
  · refine preserves_bind (preserves_attempt waited) fun _ => ?_
    exact rest
  · exact rest

include told in
theorem preserves_home
    (homed : ∀ limits store, Preserves P (onStation (Station.home limits store))) :
    Preserves P home := by
  intro m held
  unfold home
  rw [run_bind_ok (run_read m)]
  refine preserves_bind (preserves_readStore _) (fun enabled => ?_) m held
  split
  · refine preserves_bind (told _ _) fun _ => ?_
    exact preserves_reporting told (preserves_mapError (homed _ _))
  · refine preserves_bind (told _ _) fun _ => ?_
    exact preserves_fail _

include told in
theorem preserves_enterSetting {key : Setting.Key} {text : String}
    (entered : Preserves P (onStore (Setting.Store.setText key text))) :
    Preserves P (enterSetting key text) := by
  refine preserves_bind (preserves_reporting told entered) fun _ => ?_
  exact preserves_readStore _

include told in
theorem preserves_restoreSettings (restored : Preserves P (onStore Setting.Store.restoreDefaults)) :
    Preserves P restoreSettings := by
  refine preserves_bind restored fun _ => ?_
  refine preserves_bind (told _ _) fun _ => ?_
  exact preserves_readStore _

theorem preserves_status
    (asked : Preserves P (onDrives Drives.readings : Action Machine Fault (PerAxis AxisReading))) :
    Preserves P status := by
  refine preserves_bind (preserves_readStore _) fun _ => ?_
  refine preserves_bind asked fun _ => ?_
  refine preserves_bind (preserves_readStore _) fun _ => ?_
  refine preserves_bind (preserves_readStore _) fun _ => ?_
  refine preserves_bind (preserves_readStore _) fun _ => ?_
  exact preserves_map preserves_read

end Preserves

section Gated

theorem run_onSpindle {α : Type} {action : Action Spindle MotionFault α} {s : Spindle}
    {result : Except MotionFault α} (ran : action.run m.spindle = (result, s)) :
    ((onSpindle action).mapError Fault.motion).run m =
      (result.mapError .motion, { m with spindle := s }) := by
  rw [run_mapError]
  unfold onSpindle
  rw [run_on, ran]

theorem run_onDrives {ε α : Type} {action : Action Drives ε α} {d : Drives} {result : Except ε α}
    (ran : action.run m.drives = (result, d)) :
    (onDrives action).run m = (result, { m with drives := d }) := by
  unfold onDrives
  rw [run_on, ran]

theorem gated_unread {motion : Action Drives MotionFault Receipt} {fault : Setting.Fault}
    (asked : Spindle.settings m.store = .error fault) :
    (gated motion).run m = (.error (.settings fault), m) := by
  unfold gated
  rw [run_bind_error (readStore_error asked)]

section Lit

variable {motion : Action Drives MotionFault Receipt} {settings : Setting.SpindleSnapshot}
  {lit s : Spindle} {d : Drives}

theorem gated_unlit {fault : MotionFault} (asked : Spindle.settings m.store = .ok settings)
    (before : (Spindle.beforeMove settings).run m.spindle = (.error fault, lit)) :
    (gated motion).run m = (.error (.motion fault), { m with spindle := lit }) := by
  unfold gated
  rw [run_bind_ok (readStore_ok asked), run_bind_error (run_onSpindle before)]

def afterMotion (settings : Setting.SpindleSnapshot) (d : Drives) : Drives :=
  if settings.laserMode then (Drives.awaitAll.run d).2 else d

theorem gated_lit {powered : Except MotionFault Unit} {result : Except MotionFault Receipt}
    (asked : Spindle.settings m.store = .ok settings)
    (before : (Spindle.beforeMove settings).run m.spindle = (.ok (), lit))
    (moved : motion.run m.drives = (result, d))
    (after : (Spindle.afterMove settings).run lit = (powered, s)) :
    (gated motion).run m = ((powered >>= fun _ => result).mapError .motion,
      { m with drives := afterMotion settings d, spindle := s }) := by
  have ran := run_onDrives (m := { m with spindle := lit }) moved
  have ended (waited : Drives) : (do
      (onSpindle (Spindle.afterMove settings)).mapError .motion
      .ofExcept (result.mapError .motion) : Action Machine Fault Receipt).run
        { m with spindle := lit, drives := waited } =
      ((powered >>= fun _ => result).mapError .motion,
        { m with spindle := s, drives := waited }) := by
    have unlit := run_onSpindle (m := { m with spindle := lit, drives := waited }) after
    cases powered with
    | error fault =>
      rw [run_bind_error unlit]
      rfl
    | ok u =>
      rw [run_bind_ok unlit]
      rfl
  unfold gated afterMotion
  rw [run_bind_ok (readStore_ok asked), run_bind_ok (run_onSpindle before),
    run_bind_ok (run_attempt_eq ran)]
  dsimp only
  split
  · exact ended _
  · exact ended _

end Lit

/-- A gated motion is refused before anything moves, or carried out; then its outcome is told, unless
the line to the output is down. -/
theorem run_gated (motion : Action Drives MotionFault Receipt) (m : Machine) :
    (∃ fault s, (gated motion).run m = (.error fault, { m with spindle := s })) ∨
      ∃ result d d' outcome s, motion.run m.drives = (result, d) ∧
        (d' = d ∨ d' = (Drives.awaitAll.run d).2) ∧
        (gated motion).run m = (outcome, { m with drives := d', spindle := s }) ∧
        (outcome = result.mapError .motion ∨
          ¬ m.spindle.Reliable ∧ ∃ fault, outcome = .error fault) := by
  cases asked : Spindle.settings m.store with
  | error fault => exact .inl ⟨_, m.spindle, gated_unread asked⟩
  | ok settings =>
    cases before : (Spindle.beforeMove settings).run m.spindle with
    | mk powered lit =>
      cases powered with
      | error fault => exact .inl ⟨_, lit, gated_unlit asked before⟩
      | ok u =>
        cases moved : motion.run m.drives with
        | mk result d =>
          have waited : afterMotion settings d = d ∨
              afterMotion settings d = (Drives.awaitAll.run d).2 := by
            unfold afterMotion
            split
            · exact .inr rfl
            · exact .inl rfl
          cases after : (Spindle.afterMove settings).run lit with
          | mk unpowered s =>
            refine .inr ⟨result, d, _, _, s, rfl, waited, gated_lit asked before moved after, ?_⟩
            cases unpowered with
            | ok u => exact .inl rfl
            | error fault =>
              refine .inr ⟨fun reliable => ?_, _, rfl⟩
              obtain ⟨_, same, kept⟩ := Spindle.beforeMove_reliable reliable settings
              rw [same] at before
              cases before
              obtain ⟨_, ran, _⟩ := Spindle.afterMove_reliable kept settings
              rw [ran] at after
              cases after

theorem run_reporting {α : Type} (action : Action Machine Fault α) (success : α → String)
    (failure : Fault → String) (m : Machine) :
    ∃ console, (reporting action success failure).run m =
      ((action.run m).1, { (action.run m).2 with console }) := by
  cases ran : action.run m with
  | mk result m' =>
    unfold reporting
    rw [run_bind_ok (run_attempt_eq ran)]
    cases result with
    | ok a => exact ⟨_, rfl⟩
    | error fault => exact ⟨_, rfl⟩

def Command.motion? (store : Setting.Store) : Command → Option (Action Drives MotionFault Receipt)
  | .drive request => some (Drives.drive store request.direction request.step request.speed)
  | .depth request => some (Drives.depth store request.step request.speed)
  | _ => none

/-- A command for a motion carries it out behind the gate, tells of it and answers with its receipt. -/
theorem execute_motion {command : Command} {motion : Action Drives MotionFault Receipt}
    (asked : command.motion? m.store = some motion) :
    ∃ console, (execute command).run m =
      (((gated motion).run m).1.map .motion, { ((gated motion).run m).2 with console }) := by
  cases command with
  | drive request =>
    cases asked
    rw [run_execute .motion rfl]
    unfold drive
    rw [run_bind_ok (run_read m)]
    obtain ⟨console, told⟩ := run_reporting (gated _) _ _ m
    exact ⟨console, by rw [told]⟩
  | depth request =>
    cases asked
    rw [run_execute .motion rfl]
    unfold depth
    rw [run_bind_ok (run_read m)]
    obtain ⟨console, told⟩ := run_reporting (gated _) _ _ m
    exact ⟨console, by rw [told]⟩
  | _ => cases asked

/-- A home command that the settings do not allow does nothing but to say so. -/
theorem home_cases (m : Machine) :
    (m.store.flag .homingEnable ≠ .ok true ∧
        ∃ fault console, home.run m = (.error fault, { m with console })) ∨
      m.store.flag .homingEnable = .ok true ∧ ∃ result s console,
        (Station.home m.limits m.store).run ⟨m.drives, m.phase⟩ = (result, s) ∧
        home.run m = (result.mapError .homing,
          { m with drives := s.drives, phase := s.phase, console }) := by
  unfold home
  rw [run_bind_ok (run_read m)]
  cases asked : m.store.flag .homingEnable with
  | error fault =>
    rw [run_bind_error (readStore_error asked)]
    exact .inl ⟨nofun, _, m.console, rfl⟩
  | ok enabled =>
    rw [run_bind_ok (readStore_ok asked)]
    cases enabled with
    | false => exact .inl ⟨nofun, _, _, rfl⟩
    | true =>
      let told : Machine := { m with console := m.console.tell .info "Homing Z axis" }
      have spoken : (tell .info "Homing Z axis").run m = (.ok (), told) := rfl
      rw [if_pos rfl, run_bind_ok spoken]
      obtain ⟨console, ran⟩ := run_reporting
        ((onStation (Station.home m.limits m.store)).mapError Fault.homing) (fun _ => "Z axis homed")
        (fun fault => s!"Homing failed: {fault.message}") told
      exact .inr ⟨rfl, _, _, console, rfl, ran⟩

end Gated

section Held

structure Held (Q : Station → Prop) (B : Spindle → Prop) (m : Machine) : Prop where
  station : Q ⟨m.drives, m.phase⟩
  spindle : B m.spindle

variable {Q : Station → Prop} {B : Spindle → Prop}

private theorem tell_held (severity : Severity) (text : String) :
    Preserves (Held Q B) (tell severity text) := by
  intro m held
  exact ⟨held.station, held.spindle⟩

private theorem onStore_held {α : Type} (action : Action Setting.Store Setting.Fault α) :
    Preserves (Held Q B) (onStore action) := by
  intro m held
  exact ⟨held.station, held.spindle⟩

private theorem onDrives_held {ε α : Type} {action : Action Drives ε α}
    (kept : ∀ phase, Preserves (fun d => Q ⟨d, phase⟩) action) :
    Preserves (Held Q B) (onDrives action) := by
  intro m held
  exact ⟨kept m.phase m.drives held.station, held.spindle⟩

private theorem onSpindle_held {α : Type} {action : Action Spindle MotionFault α}
    (kept : Preserves B action) : Preserves (Held Q B) (onSpindle action) := by
  intro m held
  exact ⟨held.station, kept m.spindle held.spindle⟩

section Watched

variable (station : Station.Watched Q) (spindle : Spindle.Tended B)

include station

private theorem awaitRest_held : Preserves (Held Q B) awaitRest := by
  refine preserves_mapError ?_
  exact onDrives_held station.awaitAll

private theorem status_held : Preserves (Held Q B) status := by
  refine preserves_status ?_
  exact onDrives_held station.readings

include spindle

private theorem gated_held {motion : Action Drives MotionFault Receipt}
    (moved : ∀ phase, Preserves (fun d => Q ⟨d, phase⟩) motion) : Preserves (Held Q B) (gated motion) := by
  refine preserves_gated (fun settings => ?_) (fun settings => ?_) ?_ (awaitRest_held station)
  · exact onSpindle_held (spindle.beforeMove settings)
  · exact onSpindle_held (spindle.afterMove settings)
  · exact onDrives_held moved

/-- Whatever a machine is asked for but to home or to stop, if the motion or the switching that it is
asked for is harmless. -/
theorem execute_watched {command : Command} (homeless : command ≠ .home)
    (going : command ≠ .emergencyStop)
    (moved : ∀ motion, command.motion? m.store = some motion →
      ∀ phase, Preserves (fun d => Q ⟨d, phase⟩) motion)
    (switched : ∀ request, command = .spindle request → ∀ on ∈ request.enable, ∀ settings,
      Preserves B (Spindle.switch on settings)) (held : Held Q B m) :
    Held Q B ((execute command).run m).2 := by
  have driven {motion : Action Drives MotionFault Receipt}
      (asked : command.motion? m.store = some motion) : Held Q B ((execute command).run m).2 := by
    obtain ⟨console, ran⟩ := execute_motion asked
    have gone := gated_held station spindle (moved motion asked) m held
    rw [ran]
    exact ⟨gone.station, gone.spindle⟩
  cases command with
  | drive request => exact driven rfl
  | depth request => exact driven rfl
  | home => exact absurd rfl homeless
  | status =>
    rw [run_execute .status rfl]
    exact status_held station m held
  | emergencyStop => exact absurd rfl going
  | spindle request =>
    rw [run_execute .spindle rfl]
    exact useSpindle_keeps tell_held
      (fun on inside settings _ => onSpindle_held (switched request rfl on inside settings))
      (fun percent settings _ => onSpindle_held (spindle.setPercent percent settings)) held
  | showSettings =>
    rw [run_execute .settings rfl]
    exact held
  | showSetting key =>
    rw [run_execute .setting rfl]
    exact held
  | enterSetting key text =>
    rw [run_execute .setting rfl]
    exact preserves_enterSetting tell_held (onStore_held _) m held
  | restoreSettings =>
    rw [run_execute .settings rfl]
    exact preserves_restoreSettings tell_held (onStore_held _) m held

omit spindle in
theorem respond_watched {stimulus : Stimulus}
    (commanded : ∀ command, stimulus = .command command → Held Q B ((execute command).run m).2)
    (free : ∀ level, stimulus ≠ .overrideLevel level) (held : Held Q B m) :
    Held Q B ((respond stimulus).run m).2 := by
  have changed {f : Platform → Platform} (disturbance : Disturbance f)
      (same : ∀ p, (f p).limit.levelOverride = p.limit.levelOverride) : Preserves (Held Q B) (do
        onPlatform f
        return none : Action Machine Fault (Option Response)) :=
    preserves_map (onDrives_held fun phase => station.disturbed phase f disturbance same)
  cases stimulus with
  | command command =>
    rw [respond_command]
    exact commanded command rfl
  | wait => exact preserves_map (awaitRest_held station) m held
  | advance us => exact changed (.advance us) (fun p => p.advance_levelOverride us) m held
  | advanceUntil us =>
    exact changed (.advanceUntil us) (fun p => p.advanceUntil_levelOverride us) m held
  | failNext a reason => exact changed (.failNext a reason) (fun _ => rfl) m held
  | overrideLevel level => exact absurd rfl (free level)
  | edge => exact changed .edge (fun p => p.serve_levelOverride true) m held
  | reconfigure store => exact ⟨held.station, held.spindle⟩

end Watched

theorem motion_driven {command : Command} {motion : Action Drives MotionFault Receipt}
    (station : Station.Driven Q) (asked : command.motion? m.store = some motion)
    (phase : Homing.Phase) : Preserves (fun d => Q ⟨d, phase⟩) motion := by
  cases command with
  | drive request =>
    cases asked
    exact station.drive phase _ _ _ _
  | depth request =>
    cases asked
    exact station.depth phase _ _ _
  | _ => cases asked

theorem respond_driven (station : Station.Driven Q) (spindle : Spindle.Kept B) {stimulus : Stimulus}
    (homeless : stimulus ≠ .command .home) (going : stimulus ≠ .command .emergencyStop)
    (free : ∀ level, stimulus ≠ .overrideLevel level) : Preserves (Held Q B) (respond stimulus) := by
  refine fun m held => respond_watched station.toWatched (fun command same => ?_) free held
  exact execute_watched station.toWatched spindle.toTended (fun home => homeless (home ▸ same))
    (fun stop => going (stop ▸ same)) (fun motion => motion_driven station)
    (fun request _ on _ settings => spindle.switch on settings) held

section Stopped

variable (station : Station.Stopped Q) (spindle : Spindle.Kept B)

include station spindle

private theorem emergencyStop_held : Preserves (Held Q B) emergencyStop := by
  refine preserves_bind (preserves_attempt (onDrives_held station.emergencyStop)) fun _ => ?_
  refine preserves_bind (preserves_attempt (onSpindle_held spindle.stop)) fun _ => ?_
  refine preserves_bind (preserves_modify fun m held => ?_) fun _ => tell_held _ _
  exact ⟨station.released _ held.station, held.spindle⟩

theorem respond_stopped {stimulus : Stimulus} (homeless : stimulus ≠ .command .home) :
    Preserves (Held Q B) (respond stimulus) := by
  by_cases going : stimulus = .command .emergencyStop
  · subst going
    exact preserves_map (preserves_map (emergencyStop_held station spindle))
  by_cases forced : ∃ level, stimulus = .overrideLevel level
  · obtain ⟨level, rfl⟩ := forced
    exact preserves_map (onDrives_held fun phase => station.forced phase level)
  · exact respond_driven station.toDriven spindle homeless going fun level same => forced ⟨level, same⟩

end Stopped

variable (station : Station.Kept Q) (spindle : Spindle.Kept B)

include station in
private theorem home_held : Preserves (Held Q B) home := by
  refine preserves_home tell_held fun limits store m held => ?_
  exact ⟨station.home limits store ⟨m.drives, m.phase⟩ held.station, held.spindle⟩

include station spindle

/-- Whatever happens to a machine, it keeps what its drives, its homing and its spindle keep. -/
theorem respond_held (stimulus : Stimulus) : Preserves (Held Q B) (respond stimulus) := by
  by_cases homeless : stimulus = .command .home
  · subst homeless
    exact preserves_map (preserves_map (home_held station))
  · exact respond_stopped station.toStopped spindle homeless

theorem run_held {store : Setting.Store} {pins : PerAxis Nat} {trigger : Int}
    {output : Hardware.SpindleOutput} {limits : Homing.Limits} {console : Console}
    (begun : Q ⟨.fresh (.fresh pins trigger), .idle⟩) (still : B (.fresh output))
    (stimuli : List Stimulus) :
    Held Q B (run stimuli (fresh store (.fresh pins trigger) output limits console)).2 := by
  refine run_preserves (fun stimulus _ => ?_) ⟨begun, still⟩
  exact respond_held station spindle stimulus

end Held

section Intact

structure Intact (B : Spindle → Prop) (m : Machine) : Prop where
  sound : Sound m.drives.platform
  spindle : B m.spindle

variable {B : Spindle → Prop}

theorem respond_intact (kept : Spindle.Kept B) (stimulus : Stimulus) :
    Preserves (Intact B) (respond stimulus) := by
  intro m intact
  have held := respond_held Station.sound_kept kept stimulus m ⟨intact.sound, intact.spindle⟩
  exact ⟨held.station, held.spindle⟩

end Intact

theorem run_intact {B : Spindle → Prop} (kept : Spindle.Kept B) {store : Setting.Store}
    {pins : PerAxis Nat} {trigger : Int} {output : Hardware.SpindleOutput} {limits : Homing.Limits}
    {console : Console} (spindle : B (.fresh output)) (stimuli : List Stimulus) :
    Intact B (run stimuli (fresh store (.fresh pins trigger) output limits console)).2 := by
  have held : Held (fun s => Sound s.drives.platform) B
      (run stimuli (fresh store (.fresh pins trigger) output limits console)).2 :=
    run_held Station.sound_kept kept (Platform.sound_fresh pins trigger) spindle stimuli
  exact ⟨held.station, held.spindle⟩

def factory (key : Setting.Key) (text : String) : Setting.Store :=
  let filled := (Setting.Store.restoreDefaults.run ⟨.fresh, .memory none, .empty⟩).2
  ((Setting.Store.setText key text).run filled).2

def bench : Machine :=
  fresh (factory .softLimits "1") (.fresh ⟨26, 14, 17⟩ (-3)) (.fresh none) ⟨100, 10, 2000⟩ .log

end Machine

end Crawler

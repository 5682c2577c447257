import Crawler.Proofs.Exact
import Crawler.Proofs.Frame
import Crawler.Proofs.Homing

/-! What homing starts, and how fast. The log does not tell the frequency of a run, but it tells every
speed that was set before, and an engine runs and moves at the last of them. -/
namespace Crawler.Hardware

inductive Departure where
  | run (direction : Sense) (hz : Float)
  | move (steps : Int) (hz : Float)
deriving DecidableEq, Repr

def Departure.hz : Departure → Float
  | run _ hz => hz
  | move _ hz => hz

def Departure.move? : Departure → Option (Int × Float)
  | run _ _ => none
  | move steps hz => some (steps, hz)

namespace Occurrence

def speedAfter (speed : Float) : Occurrence → Float
  | speedSet hz => hz
  | _ => speed

def departure? (speed : Float) : Occurrence → Option Departure
  | runStarted direction => some (.run direction speed)
  | moveStarted steps hz => some (.move steps hz)
  | _ => none

end Occurrence

def speedAfter (speed : Float) (events : List Event) : Float :=
  events.foldl (fun speed event => event.what.speedAfter speed) speed

def departures (speed : Float) : List Event → List Departure
  | [] => []
  | event :: rest =>
    (event.what.departure? speed).toList ++ departures (event.what.speedAfter speed) rest

private theorem departures_append (speed : Float) (before after : List Event) :
    departures speed (before ++ after) =
      departures speed before ++ departures (speedAfter speed before) after := by
  induction before generalizing speed with
  | nil => rfl
  | cons event rest ih =>
    change (event.what.departure? speed).toList ++ departures _ (rest ++ after) = _ ++ _ ++ _
    rw [ih, List.append_assoc]
    rfl

namespace Engine

variable {α : Type} {e : Engine}

def departure? (e : Engine) : Option Departure :=
  match e.motion with
  | .idle => none
  | .run r => some (.run r.direction r.hz)
  | .move m => some (.move m.steps m.hz)

structure Tells (e : Engine) (outcome : Outcome α) (made : Option Departure) : Prop where
  speed : outcome.engine.speed = outcome.occurrence.elim e.speed (·.speedAfter e.speed)
  told : outcome.occurrence.bind (·.departure? e.speed) = made
  begun : ∀ departure ∈ made, outcome.engine.departure? = some departure

theorem kept_of_tells {outcome : Outcome α} {departure : Departure}
    (tells : Tells e outcome (some departure)) : outcome.engine.speed = e.speed := by
  have told := tells.told
  rw [tells.speed]
  match outcome.occurrence, told with
  | some (.runStarted _), _ | some (.moveStarted _ _), _ => rfl

structure Still (e : Engine) (outcome : Outcome α) : Prop extends Tells e outcome none where
  kept : outcome.engine.speed = e.speed

section Tells

variable (e : Engine) (now : Nat)

theorem setSpeed_tells (hz : Float) : Tells e (setSpeed hz e) none := by
  unfold setSpeed
  split <;> exact ⟨rfl, rfl, nofun⟩

theorem setAcceleration_still (acceleration : Float) : Still e (setAcceleration acceleration e) := by
  unfold setAcceleration
  split <;> exact ⟨⟨rfl, rfl, nofun⟩, rfl⟩

theorem enable_still : Still e (enable e) := by
  unfold enable
  split <;> exact ⟨⟨rfl, rfl, nofun⟩, rfl⟩

theorem disable_still : Still e (disable now e) := by
  unfold disable
  dsimp only
  split <;> exact ⟨⟨rfl, rfl, nofun⟩, rfl⟩

theorem stop_still : Still e (stop now e) := by
  exact ⟨⟨rfl, rfl, nofun⟩, rfl⟩

theorem setPosition_still (position : Int) : Still e (setPosition position now e) := by
  exact ⟨⟨rfl, rfl, nofun⟩, rfl⟩

theorem step_still (direction : Sense) : Still e (step direction now e) := by
  have kept := retire_speed e now
  unfold step
  dsimp only
  split
  · exact ⟨⟨kept, rfl, nofun⟩, kept⟩
  · split <;> exact ⟨⟨kept, rfl, nofun⟩, kept⟩

theorem startRun_tells (direction : Sense) :
    ((startRun direction now e).result = .ok () ∧
        Tells e (startRun direction now e) (some (.run direction e.speed))) ∨
      ∃ fault, (startRun direction now e).result = .error fault ∧
        Tells e (startRun direction now e) none := by
  unfold startRun
  dsimp only
  split
  · exact .inr ⟨_, rfl, rfl, rfl, nofun⟩
  · split
    · exact .inr ⟨_, rfl, rfl, rfl, nofun⟩
    · refine .inl ⟨rfl, rfl, rfl, ?_⟩
      rintro departure ⟨⟩
      rfl

variable {e} in
theorem startMove_tells (idle : e.motion = .idle) {steps : Int} (some_steps : steps ≠ 0) :
    ((startMove steps now e).result = .ok () ∧
        Tells e (startMove steps now e) (some (.move steps e.speed)) ∧
        (startMove steps now e).engine.Bounded) ∨
      ∃ fault, (startMove steps now e).result = .error fault ∧
        Tells e (startMove steps now e) none := by
  have still : e.isMoving = false := isMoving_eq_false.mpr idle
  unfold startMove
  rw [retire_of_idle idle]
  dsimp only
  split
  · exact .inr ⟨_, rfl, rfl, rfl, nofun⟩
  · split
    · exact .inr ⟨_, rfl, rfl, rfl, nofun⟩
    · rw [still, if_neg Bool.false_ne_true]
      split
      · exact .inr ⟨_, rfl, rfl, rfl, nofun⟩
      · refine .inl ⟨rfl, ⟨rfl, rfl, ?_⟩, bounded_of_move rfl⟩
        rintro departure ⟨⟩
        rfl

end Tells

end Engine

namespace Platform

def Departs (a : Axis) (p q : Platform) (made : List Departure) : Prop :=
  ∃ added, (q.log a).toList = (p.log a).toList ++ added ∧
    departures (p.engine a).speed added = made ∧
    (q.engine a).speed = speedAfter (p.engine a).speed added

variable {a : Axis} {p q r : Platform} {made later : List Departure}

theorem departs_of_same (speed : (q.engine a).speed = (p.engine a).speed) (log : q.log a = p.log a) :
    Departs a p q [] := by
  refine ⟨[], ?_, rfl, speed⟩
  rw [log, List.append_nil]

theorem departs_trans (first : Departs a p q made) (second : Departs a q r later) :
    Departs a p r (made ++ later) := by
  obtain ⟨new₁, log₁, rfl, speed₁⟩ := first
  obtain ⟨new₂, log₂, rfl, speed₂⟩ := second
  refine ⟨new₁ ++ new₂, by rw [log₂, log₁, List.append_assoc], ?_, ?_⟩
  · rw [departures_append, speed₁]
  · rw [speed₂, speed₁]
    exact List.foldl_append.symm

private theorem departs_entry {what : Option Occurrence} (made : Option Departure)
    (log : (q.log a).toList = (p.log a).toList ++ p.entry what)
    (speed : (q.engine a).speed = what.elim (p.engine a).speed (·.speedAfter (p.engine a).speed))
    (told : what.bind (·.departure? (p.engine a).speed) = made) : Departs a p q made.toList := by
  subst told
  refine ⟨_, log, ?_, ?_⟩
  · cases what with
    | none => rfl
    | some what => exact List.append_nil _
  · cases what <;> exact speed

theorem departs_commit {α : Type} {outcome : Engine.Outcome α} {made : Option Departure}
    (tells : Engine.Tells (p.engine a) outcome made) :
    Departs a p (p.commit a outcome) made.toList := by
  refine departs_entry made (p.commit_log a outcome) ?_ tells.told
  rw [commit_engine, tells.speed]

theorem departs_awaited (bounded : (p.engine a).Bounded) : Departs a p (p.awaited a) [] := by
  refine departs_entry none awaited_log ?_ ?_
  · rw [awaited_engine bounded]
    split <;> rfl
  · split <;> rfl

def departuresSince (p q : Platform) (a : Axis) : List Departure :=
  departures (p.engine a).speed ((q.log a).toList.drop (p.log a).size)

theorem departuresSince_eq (departs : Departs a p q made) : departuresSince p q a = made := by
  obtain ⟨added, log, same, _⟩ := departs
  unfold departuresSince
  rw [log, ← Array.length_toList, List.drop_left, same]

end Platform

end Crawler.Hardware

namespace Crawler.Homing

open Crawler.Action
open Hardware (Platform Engine Departure)
open Hardware.Platform (Departs)

section Makes

variable {σ τ ε δ α β : Type} {platform : σ → Platform} {v w x : Float}
  {due later : List Departure}

/-- From a speed, the depth axis makes some of the departures that are due, in their order; an action
that succeeds makes all of them and leaves a speed. -/
def Makes (platform : σ → Platform) (v : Float) (due : List Departure) (w : Float)
    (action : Action σ ε α) : Prop :=
  ∀ s, ((platform s).engine .z).speed = v →
    ∃ made, Departs .z (platform s) (platform (action.run s).2) made ∧ made <+: due ∧
      ∀ answer, (action.run s).1 = .ok answer →
        made = due ∧ ((platform (action.run s).2).engine .z).speed = w

private theorem makes_bind {first : Action σ ε α} {next : α → Action σ ε β}
    (before : Makes platform v due w first) (after : ∀ answer, Makes platform w later x (next answer)) :
    Makes platform v (due ++ later) x (first >>= next) := by
  intro s speed
  obtain ⟨made, departs, among, all⟩ := before s speed
  cases ran : first.run s with
  | mk result t =>
    rw [ran] at departs all
    cases result with
    | error e =>
      rw [run_bind_error ran]
      exact ⟨made, departs, among.trans (List.prefix_append due later), nofun⟩
    | ok answer =>
      obtain ⟨rfl, set⟩ := all answer rfl
      obtain ⟨made', departs', among', all'⟩ := after answer t set
      rw [run_bind_ok ran]
      refine ⟨_, Platform.departs_trans departs departs', (List.prefix_append_right_inj _).mpr among',
        fun answer answered => ?_⟩
      obtain ⟨rfl, set⟩ := all' answer answered
      exact ⟨rfl, set⟩

private theorem makes_after {first : Action σ ε α} {next : α → Action σ ε β}
    (before : Makes platform v [] w first) (after : ∀ answer, Makes platform w later x (next answer)) :
    Makes platform v later x (first >>= next) := by
  exact makes_bind before after

private theorem makes_before {first : Action σ ε α} {next : α → Action σ ε β}
    (before : Makes platform v due w first) (after : ∀ answer, Makes platform w [] x (next answer)) :
    Makes platform v due x (first >>= next) := by
  have both := makes_bind before after
  rwa [List.append_nil] at both

private theorem makes_mapError {f : ε → δ} {action : Action σ ε α} (makes : Makes platform v due w action) :
    Makes platform v due w (mapError f action) := by
  intro s speed
  obtain ⟨made, departs, among, all⟩ := makes s speed
  exact ⟨made, departs, among, fun answer answered => all answer (except_mapError_eq_ok.mp answered)⟩

/-- An action that sets no speed and starts nothing. -/
theorem makes_none {action : Action σ ε α}
    (still : ∀ s, Departs .z (platform s) (platform (action.run s).2) [])
    (kept : ∀ s, ((platform (action.run s).2).engine .z).speed = ((platform s).engine .z).speed) :
    Makes platform v [] v action := by
  intro s speed
  refine ⟨[], still s, List.nil_prefix, fun _ _ => ⟨rfl, ?_⟩⟩
  exact (kept s).trans speed

private theorem makes_same {action : Action σ ε α}
    (engines : ∀ s, (platform (action.run s).2).engines = (platform s).engines)
    (logs : ∀ s, (platform (action.run s).2).logs = (platform s).logs) :
    Makes platform v [] v action := by
  have speed (s : σ) : ((platform (action.run s).2).engine .z).speed =
      ((platform s).engine .z).speed := by
    unfold Platform.engine
    rw [engines]
  refine makes_none (fun s => Platform.departs_of_same (speed s) ?_) speed
  unfold Platform.log
  rw [logs]

end Makes

section Engage

variable {v w : Float} {α : Type}

private theorem makes_engage {op : Nat → Engine → Engine.Outcome α} (departure : Option Departure)
    (tells : ∀ now e, e.speed = v → ∃ made, Engine.Tells e (op now e) made ∧
      (made = departure ∧ (op now e).engine.speed = w ∨
        made = none ∧ ∃ fault, (op now e).result = .error fault)) :
    Makes id v departure.toList w (Platform.engage .z op) := by
  intro p speed
  obtain ⟨made, tells, ended⟩ := tells p.now (p.engine .z) speed
  have departs := Platform.departs_commit tells
  rw [Platform.run_engage]
  rcases ended with ⟨rfl, left⟩ | ⟨rfl, fault, failed⟩
  · refine ⟨_, departs, List.prefix_rfl, fun _ _ => ⟨rfl, ?_⟩⟩
    exact (congrArg Engine.speed (Platform.commit_engine _ _ _)).trans left
  · refine ⟨_, departs, List.nil_prefix, fun _ answered => ?_⟩
    rw [failed] at answered
    cases answered

private theorem makes_still {op : Nat → Engine → Engine.Outcome α}
    (still : ∀ now e, Engine.Still e (op now e)) : Makes id v [] v (Platform.engage .z op) := by
  refine makes_engage none fun now e speed => ?_
  have same := still now e
  exact ⟨none, same.toTells, .inl ⟨rfl, same.kept.trans speed⟩⟩

end Engage

section Drives

variable {v w : Float} {due : List Departure} {ε α : Type}

private theorem makes_onPlatform {action : Action Platform ε α} (makes : Makes id v due w action) :
    Makes Drives.platform v due w (Drives.onPlatform action) := by
  intro d speed
  exact makes d.platform speed

private theorem makes_modify {f : Drives → Drives} (same : ∀ d, (f d).platform = d.platform) :
    Makes Drives.platform v [] v (modify f : Action Drives ε Unit) := by
  refine makes_same (fun d => ?_) fun d => ?_
  · exact congrArg Platform.engines (same d)
  · exact congrArg Platform.logs (same d)

private theorem makes_setSpeed (hz : Float) : Makes Drives.platform v [] hz (Drives.setSpeed .z hz) := by
  refine makes_after (makes_onPlatform (makes_engage none ?_)) fun _ =>
    makes_modify fun _ => rfl
  intro now e _
  refine ⟨none, Engine.setSpeed_tells e hz, ?_⟩
  unfold Engine.setSpeed
  split
  · exact .inl ⟨rfl, rfl⟩
  · exact .inr ⟨rfl, _, rfl⟩

private theorem makes_setAcceleration (acceleration : Float) :
    Makes Drives.platform v [] v (Drives.setAcceleration .z acceleration) := by
  refine makes_after (makes_onPlatform (makes_still fun _ e => ?_)) fun _ => ?_
  · exact Engine.setAcceleration_still e acceleration
  · exact makes_modify fun _ => rfl

private theorem awaitRest_departs (d : Drives) :
    Departs .z d.platform ((Drives.awaitRest .z).run d).2.platform [] ∧
      ((((Drives.awaitRest .z).run d).2.platform).engine .z).speed = (d.platform.engine .z).speed := by
  rcases Drives.awaitRest_cases d .z with ⟨bounded, waited⟩ | ⟨fault, refused⟩
  · rw [waited]
    exact ⟨Platform.departs_awaited bounded, by rw [Platform.awaited_engine bounded]⟩
  · rw [refused]
    exact ⟨Platform.departs_of_same rfl rfl, rfl⟩

private theorem makes_awaitRest : Makes Drives.platform v [] v (Drives.awaitRest .z) := by
  refine makes_none (fun d => ?_) fun d => ?_
  · exact (awaitRest_departs d).1
  · exact (awaitRest_departs d).2

private theorem makes_startRun (direction : Sense) :
    Makes Drives.platform v [.run direction v] v (Drives.startRun .z direction) := by
  refine makes_onPlatform (makes_engage (some (.run direction v)) fun now e speed => ?_)
  subst speed
  rcases Engine.startRun_tells e now direction with ⟨answered, tells⟩ | ⟨fault, failed, tells⟩
  · exact ⟨_, tells, .inl ⟨rfl, Engine.kept_of_tells tells⟩⟩
  · exact ⟨_, tells, .inr ⟨rfl, fault, failed⟩⟩

private theorem awaitEnd_departs (d : Drives) {p : Platform} (waiting : Waiting)
    (bounded : (p.engine .z).Bounded) :
    ∃ q, (if waiting = .attended then Drives.onPlatform (Platform.awaitEnd .z) else pure ()).run
        { d with platform := p } = (.ok (), { d with platform := q }) ∧
      Departs .z p q [] ∧ (q.engine .z).speed = (p.engine .z).speed := by
  cases waiting with
  | unattended => exact ⟨p, rfl, Platform.departs_of_same rfl rfl, rfl⟩
  | attended =>
    refine ⟨p.awaited .z, ?_, Platform.departs_awaited bounded, by rw [Platform.awaited_engine bounded]⟩
    rw [if_pos rfl, Drives.run_onPlatform, Platform.run_awaitEnd _ _ bounded]

/-- A move is handed to an axis that was waited for, so it is started unless it is refused. -/
theorem startMove_departs (d : Drives) {steps : Int} (some_steps : steps ≠ 0) (waiting : Waiting) :
    (∃ d', (Drives.startMove .z steps waiting).run d = (.ok (), d') ∧
        Departs .z d.platform d'.platform [.move steps (d.platform.engine .z).speed] ∧
        (d'.platform.engine .z).speed = (d.platform.engine .z).speed) ∨
      ∃ fault d', (Drives.startMove .z steps waiting).run d = (.error fault, d') ∧
        Departs .z d.platform d'.platform [] := by
  unfold Drives.startMove
  rw [if_pos some_steps]
  rcases Drives.awaitRest_cases d .z with ⟨bounded, waited⟩ | ⟨fault, refused⟩
  · set p := d.platform.awaited .z with rested
    have idle : (p.engine .z).motion = .idle := (Platform.awaited_settled bounded).idle
    have departs : Departs .z d.platform p [] := Platform.departs_awaited bounded
    have kept : (p.engine .z).speed = (d.platform.engine .z).speed := by
      rw [rested, Platform.awaited_engine bounded]
    have asked : (Drives.onPlatform (Platform.startMove .z steps)).run { d with platform := p } = _ :=
      Drives.run_engage rfl
    rw [run_bind_ok waited]
    rcases Engine.startMove_tells p.now idle some_steps with
      ⟨answered, tells, bounded⟩ | ⟨fault, failed, tells⟩
    · have started := Platform.departs_commit tells
      have set := Engine.kept_of_tells tells
      rw [answered] at asked
      rw [← Platform.commit_engine p .z (Engine.startMove steps p.now (p.engine .z))] at bounded set
      obtain ⟨q, ended, after, last⟩ := awaitEnd_departs d waiting bounded
      rw [run_bind_ok asked, ended, ← kept]
      exact .inl ⟨_, rfl, Platform.departs_trans (Platform.departs_trans departs started) after,
        last.trans set⟩
    · have refused := Platform.departs_commit tells
      rw [failed] at asked
      rw [run_bind_error asked]
      exact .inr ⟨fault, _, rfl, Platform.departs_trans departs refused⟩
  · rw [run_bind_error refused]
    exact .inr ⟨fault, _, rfl, Platform.departs_of_same rfl rfl⟩

private theorem makes_startMove {steps : Int} (some_steps : steps ≠ 0) (waiting : Waiting) :
    Makes Drives.platform v [.move steps v] v (Drives.startMove .z steps waiting) := by
  intro d speed
  subst speed
  rcases startMove_departs d some_steps waiting with ⟨d', ran, departs, kept⟩ | ⟨fault, d', ran, departs⟩
  · rw [ran]
    exact ⟨_, departs, List.prefix_rfl, fun _ _ => ⟨rfl, kept⟩⟩
  · rw [ran]
    exact ⟨[], departs, List.nil_prefix, nofun⟩

end Drives

section Cycle

variable {v w : Float} {due : List Departure} {α : Type} {limits : Limits} {parameters : Parameters}

private theorem makes_onDrives {action : Action Drives Hardware.Fault α}
    (makes : Makes Drives.platform v due w action) :
    Makes (·.drives.platform) v due w (Station.onDrives action) := by
  intro s speed
  exact makes_mapError makes s.drives speed

private theorem makes_onStation {action : Action Platform HomingFault α} (makes : Makes id v due w action) :
    Makes (·.drives.platform) v due w (Station.onPlatform action) := by
  intro s speed
  exact makes s.drives.platform speed

private theorem makes_enter (phase : Phase) :
    Makes (·.drives.platform) v [] v (Station.enter phase) := by
  exact makes_same (fun _ => rfl) fun _ => rfl

private theorem makes_setFlag (flag : Bool) :
    Makes (·.drives.platform) v [] v (Station.setFlag flag) := by
  exact makes_same (fun _ => rfl) fun _ => rfl

private theorem makes_detach :
    Makes (·.drives.platform) v [] v (Station.onPlatform (.modify Platform.detach)) := by
  exact makes_same (fun _ => rfl) fun _ => rfl

private theorem makes_delay (ms : Nat) : Makes (·.drives.platform) v [] v (Station.delay ms) := by
  refine makes_same (fun s => ?_) fun s => ?_
  · exact s.drives.platform.advance_engines _
  · exact s.drives.platform.advance_logs _

private theorem seek_same (limits : Limits) (polls elapsed : Nat) (p : Platform) :
    ((seek limits polls elapsed).run p).2.engines = p.engines ∧
      ((seek limits polls elapsed).run p).2.logs = p.logs := by
  refine preserves_seek (P := fun q => q.engines = p.engines ∧ q.logs = p.logs) ?_ polls elapsed p
    ⟨rfl, rfl⟩
  rintro q ⟨engines, logs⟩
  exact ⟨(q.advance_engines _).trans engines, (q.advance_logs _).trans logs⟩

private theorem release_departs (left made : Nat) (p : Platform) :
    Departs .z p ((release left made).run p).2 [] ∧
      (((release left made).run p).2.engine .z).speed = (p.engine .z).speed := by
  refine preserves_release (P := fun q => Departs .z p q [] ∧
    (q.engine .z).speed = (p.engine .z).speed) ?_ left made p ⟨Platform.departs_of_same rfl rfl, rfl⟩
  rintro q ⟨departs, speed⟩
  have still := Engine.step_still (q.engine .z) q.now .forward
  unfold Platform.step
  rw [Platform.run_engage]
  refine ⟨Platform.departs_trans departs (Platform.departs_commit still.toTells), ?_⟩
  rw [Platform.commit_engine, still.kept, speed]

private theorem makes_release (left made : Nat) : Makes id v [] v (release left made) := by
  refine makes_none (fun p => ?_) fun p => ?_
  · exact (release_departs left made p).1
  · exact (release_departs left made p).2

variable (limits parameters) in
private theorem makes_seekSwitch : Makes (·.drives.platform) v
    [.run .reverse (Number.ofInt parameters.hz)] (Number.ofInt parameters.hz)
    (Station.seekSwitch limits parameters) := by
  have enabled := makes_still (v := v) fun _ e => Engine.enable_still e
  have attached {hz : Float} : Makes id hz [] hz (Platform.attach .homing) :=
    makes_same (fun p => (attach_fields p).1) fun p => (attach_fields p).2.1
  refine makes_after (makes_enter _) fun _ => ?_
  refine makes_after (makes_onDrives makes_awaitRest) fun _ => ?_
  refine makes_after (makes_onDrives (makes_onPlatform enabled)) fun _ => ?_
  refine makes_after (makes_onDrives (makes_setAcceleration _)) fun _ => ?_
  refine makes_after (makes_onDrives (makes_setSpeed _)) fun _ => ?_
  refine makes_after (makes_onStation (makes_mapError attached)) fun _ => ?_
  refine makes_before (makes_onDrives (makes_startRun .reverse)) fun _ => ?_
  refine makes_onStation (makes_same (fun p => ?_) fun p => ?_)
  · exact (seek_same limits _ _ p).1
  · exact (seek_same limits _ _ p).2

variable (parameters) in
private theorem makes_debounce : Makes (·.drives.platform) v [] v (Station.debounce parameters) := by
  have stopped := makes_still (v := v) fun now e => Engine.stop_still e now
  have disabled := makes_still (v := v) fun now e => Engine.disable_still e now
  have enabled := makes_still (v := v) fun _ e => Engine.enable_still e
  refine makes_after (makes_enter _) fun _ => ?_
  refine makes_after (makes_onDrives (makes_onPlatform stopped)) fun _ => ?_
  refine makes_after (makes_onDrives (makes_onPlatform disabled)) fun _ => ?_
  refine makes_after (makes_delay _) fun _ => ?_
  exact makes_onDrives (makes_onPlatform enabled)

private theorem makes_pure {σ ε β : Type} {platform : σ → Platform} (b : β) :
    Makes platform v [] v (pure b : Action σ ε β) := by
  exact makes_same (fun _ => rfl) fun _ => rfl

private theorem makes_pullOff (some_steps : parameters.pullOffSteps ≠ 0) :
    Makes (·.drives.platform) v [.move parameters.pullOffSteps v] v
      (Station.pullOff limits parameters) := by
  have placed := makes_still (v := v) fun now e => Engine.setPosition_still e now 0
  refine makes_after (makes_enter _) fun _ => ?_
  refine makes_after (makes_onStation (makes_release _ _)) fun made => ?_
  refine makes_before (makes_onDrives (makes_startMove some_steps .attended)) fun _ => ?_
  refine makes_after (makes_onDrives (makes_onPlatform placed)) fun _ => ?_
  refine makes_after (makes_setFlag false) fun _ => ?_
  refine makes_after makes_detach fun _ => ?_
  exact makes_pure made

def Parameters.departures (parameters : Parameters) : List Departure :=
  [.run .reverse (Number.ofInt parameters.hz),
    .move parameters.pullOffSteps (Number.ofInt parameters.hz)]

variable (limits) in
private theorem makes_sequence (some_steps : parameters.pullOffSteps ≠ 0) :
    Makes (·.drives.platform) v parameters.departures (Number.ofInt parameters.hz)
      (Station.sequence limits parameters) := by
  refine makes_bind (makes_seekSwitch limits parameters) fun _ => ?_
  refine makes_after (makes_debounce parameters) fun _ => ?_
  refine makes_before (makes_pullOff some_steps) fun _ => ?_
  exact makes_pure _

/-- A pull-off that fails has not begun: only stepping off the switch or the start of the move can. -/
theorem pullOff_error {s t : Station} {fault : HomingFault} (some_steps : parameters.pullOffSteps ≠ 0)
    (ran : (Station.pullOff limits parameters).run s = (.error fault, t)) :
    Departs .z s.drives.platform t.drives.platform [] := by
  rcases run_bind_eq_error.mp ran with failed | ⟨_, u, entered, ran⟩
  · cases failed
  cases entered
  obtain ⟨departs, kept⟩ := release_departs limits.releaseSteps 0 s.drives.platform
  rcases run_bind_eq_error.mp ran with failed | ⟨steps, v, released, ran⟩
  · have same := congrArg (fun outcome => outcome.2.drives.platform) failed
    exact same ▸ departs
  obtain ⟨p, off, rfl⟩ := Station.run_onPlatform_eq_ok.mp released
  rw [off] at departs
  rcases run_bind_eq_error.mp ran with failed | ⟨_, w, moved, ran⟩
  · have same := congrArg (fun outcome => outcome.2.drives.platform) failed
    rcases startMove_departs { s.drives with platform := p } some_steps .attended with
      ⟨_, started, _⟩ | ⟨_, d', refused, still⟩
    · have answered := Station.run_onDrives_eq_ok (s := ⟨{ s.drives with platform := p }, .pullingOff⟩).mpr
        ⟨_, started, rfl⟩
      cases answered.symm.trans failed
    · have left : d'.platform = t.drives.platform := by
        rw [← same]
        exact congrArg (fun outcome => outcome.2.platform) refused.symm
      exact left ▸ Platform.departs_trans departs still
  · have origin : (Station.onDrives (Drives.setOrigin .z)).run w = (.ok (), _) :=
      Station.run_onDrives_eq_ok.mpr ⟨_, Drives.run_engage rfl, rfl⟩
    rw [run_bind_ok origin] at ran
    cases ran

theorem sequence_error {s t : Station} {fault : HomingFault} (some_steps : parameters.pullOffSteps ≠ 0)
    (ran : (Station.sequence limits parameters).run s = (.error fault, t)) :
    ∃ made, Departs .z s.drives.platform t.drives.platform made ∧
      made <+: [.run .reverse (Number.ofInt parameters.hz)] := by
  obtain ⟨made, departs, among, all⟩ :=
    makes_seekSwitch limits parameters s rfl
  rcases run_bind_eq_error.mp ran with failed | ⟨_, u, sought, ran⟩
  · rw [failed] at departs
    exact ⟨made, departs, among⟩
  rw [sought] at departs all
  obtain ⟨made', departs', none, _⟩ := makes_debounce parameters u rfl
  cases List.prefix_nil.mp none
  obtain ⟨rfl, _⟩ := all _ rfl
  rcases run_bind_eq_error.mp ran with failed | ⟨_, v, rested, ran⟩
  · rw [failed] at departs'
    exact ⟨_, Platform.departs_trans departs departs', List.prefix_rfl⟩
  rw [rested] at departs'
  rcases run_bind_eq_error.mp ran with failed | ⟨_, _, _, failed⟩
  · have still := Platform.departs_trans departs' (pullOff_error some_steps failed)
    exact ⟨_, Platform.departs_trans departs still, List.prefix_rfl⟩
  · cases failed

private theorem makes_abandon : Makes (·.drives.platform) v [] v Station.abandon := by
  have stopped := makes_still (v := v) fun now e => Engine.stop_still e now
  refine makes_after (makes_onDrives (makes_onPlatform stopped)) fun _ => ?_
  refine makes_after makes_detach fun _ => ?_
  exact makes_setFlag false

private theorem sequence_told {s t : Station} {report : Report}
    (ran : (Station.sequence limits parameters).run s = (.ok report, t)) :
    report.hz = parameters.hz ∧ report.pullOffSteps = parameters.pullOffSteps := by
  obtain ⟨_, _, _, ran⟩ := run_bind_eq_ok.mp ran
  obtain ⟨_, _, _, ran⟩ := run_bind_eq_ok.mp ran
  obtain ⟨_, _, _, answered⟩ := run_bind_eq_ok.mp ran
  cases answered
  exact ⟨rfl, rfl⟩

end Cycle

section Home

variable {store : Setting.Store}

structure Drawn (store : Setting.Store) (parameters : Parameters) : Prop where
  hz : ∃ feed scale, store.float .homingFeed = .ok feed ∧ store.float (.stepsPerMm .z) = .ok scale ∧
    Number.isPositive feed = true ∧ Number.isPositive scale = true ∧
    parameters.hz = Units.frequency feed scale
  some_hz : parameters.hz ≠ 0
  pullOff : ∃ mm scale, store.float .homingPullOff = .ok mm ∧
    store.float (.stepsPerMm .z) = .ok scale ∧ parameters.pullOffSteps = max 1 (Units.steps mm scale)

private theorem load_drawn {parameters : Parameters} (loaded : Parameters.load store = .ok parameters) :
    Drawn store parameters := by
  obtain ⟨feed, scale, mm, _, _, fed, scaled, pulled, _, _, _, some, rfl⟩ := load_ok loaded
  obtain ⟨fed, feed_pos⟩ := positive_ok fed
  obtain ⟨scaled, scale_pos⟩ := positive_ok scaled
  exact ⟨⟨feed, scale, fed, scaled, feed_pos, scale_pos, rfl⟩, some, mm, scale,
    (positive_ok pulled).1, scaled, rfl⟩

/-- Homing starts at most one run and one move, both at the frequency of its parameters. It starts both
if it succeeds and no move if it fails. -/
theorem home_departs (limits : Limits) (store : Setting.Store) (s : Station) :
    ∃ made, Departs .z s.drives.platform ((Station.home limits store).run s).2.drives.platform made ∧
      (made ≠ [] → ∃ parameters, Parameters.load store = .ok parameters ∧
        made <+: parameters.departures) ∧
      (∀ report, ((Station.home limits store).run s).1 = .ok report →
        made = [.run .reverse (Number.ofInt report.hz),
          .move report.pullOffSteps (Number.ofInt report.hz)]) ∧
      ∀ fault, ((Station.home limits store).run s).1 = .error fault → made.filterMap (·.move?) = [] := by
  let u : Station := ⟨{ s.drives with platform := { s.drives.platform with homingSignal := false } }, .idle⟩
  have lowered : Departs .z s.drives.platform u.drives.platform [] := Platform.departs_of_same rfl rfl
  have entered : (Station.enter .idle).run s = (.ok (), { s with phase := .idle }) := rfl
  have cleared : (Station.setFlag false).run { s with phase := .idle } = (.ok (), u) := rfl
  unfold Station.home
  rw [run_bind_ok entered, run_bind_ok cleared]
  cases loaded : Parameters.load store with
  | error fault => exact ⟨[], lowered, fun some => absurd rfl some, nofun, fun _ _ => rfl⟩
  | ok parameters =>
    have some_steps := load_moves loaded
    cases ran : (Station.sequence limits parameters).run u with
    | mk result t =>
      have tried := run_attempt_eq (δ := HomingFault) ran
      cases result with
      | ok report =>
        obtain ⟨made, departs, among, all⟩ := makes_sequence limits some_steps u rfl
        rw [ran] at departs all
        obtain ⟨rfl, _⟩ := all report rfl
        obtain ⟨hz, pulled⟩ := sequence_told ran
        dsimp only
        rw [run_bind_ok tried]
        refine ⟨_, Platform.departs_trans lowered departs, fun _ => ⟨parameters, rfl, among⟩,
          fun told answered => ?_, fun _ failed => ?_⟩
        · cases answered
          rw [hz, pulled]
          rfl
        · cases failed
      | error fault =>
        obtain ⟨made, departs, among⟩ := sequence_error some_steps ran
        obtain ⟨_, after, none, _⟩ := makes_abandon t rfl
        cases List.prefix_nil.mp none
        rw [Station.run_abandon] at after
        have ended := Platform.departs_trans (Platform.departs_trans lowered departs) after
        rw [List.append_nil] at ended
        dsimp only
        rw [run_bind_ok tried, run_bind_ok (Station.run_abandon t)]
        refine ⟨made, ended, fun _ => ⟨parameters, rfl, among.trans (List.prefix_append _ [_])⟩,
          fun _ answered => ?_, fun _ _ => ?_⟩
        · cases answered
        · have only := (among.sublist.filterMap (·.move?)).length_le
          exact List.eq_nil_of_length_eq_zero (Nat.le_zero.mp only)

/-- Homing runs and moves at the frequency of its own feed, whatever the maximum rate of the axis is. It
keeps to that rate exactly if it starts nothing or its feed gives no higher frequency, as every feed does
that is not above the rate. -/
theorem home_within_rate_iff {feed scale : Float} (fed : store.float .homingFeed = .ok feed)
    (scaled : store.float (.stepsPerMm .z) = .ok scale) (limits : Limits) (s : Station) :
    let made := Platform.departuresSince s.drives.platform
      ((Station.home limits store).run s).2.drives.platform .z
    (∀ departure ∈ made, departure.hz = Number.ofInt (Units.frequency feed scale)) ∧
      ∀ rate, store.float (.maxRate .z) = .ok rate → Number.isPositive rate = true →
        ((∀ departure ∈ made, departure.hz ≤ Number.ofInt (Units.frequency rate scale)) ↔
          made = [] ∨ Units.frequency feed scale ≤ Units.frequency rate scale) ∧
        (feed ≤ rate →
          ∀ departure ∈ made, departure.hz ≤ Number.ofInt (Units.frequency rate scale)) := by
  obtain ⟨made, departs, cycle, _, _⟩ := home_departs limits store s
  rw [Platform.departuresSince_eq departs]
  dsimp only
  by_cases none : made = []
  · subst none
    exact ⟨nofun, fun _ _ _ => ⟨⟨fun _ => .inl rfl, fun _ => nofun⟩, fun _ => nofun⟩⟩
  obtain ⟨parameters, loaded, among⟩ := cycle none
  obtain ⟨feed', scale', fed', scaled', feed_pos, scale_pos, hz⟩ := (load_drawn loaded).hz
  cases fed.symm.trans fed'
  cases scaled.symm.trans scaled'
  have each (departure : Departure) (inside : departure ∈ made) :
      departure.hz = Number.ofInt (Units.frequency feed scale) := by
    rw [← hz]
    rcases List.mem_pair.mp (among.subset inside) with rfl | rfl <;> rfl
  refine ⟨each, fun rate _ positive => ?_⟩
  have small (x : Float) : Units.frequency x scale < 2 ^ 53 :=
    (Units.frequency_lt x scale).trans (by decide)
  have order := Number.ofInt_le_iff (small feed) (small rate)
  have within : Units.frequency feed scale ≤ Units.frequency rate scale →
      ∀ departure ∈ made, departure.hz ≤ Number.ofInt (Units.frequency rate scale) :=
    fun below departure inside => each departure inside ▸ order.mpr below
  refine ⟨⟨fun bounded => .inr ?_, ?_⟩, fun below => within ?_⟩
  · obtain ⟨departure, rest, rfl⟩ := List.exists_cons_of_ne_nil none
    exact order.mp (each departure List.mem_cons_self ▸ bounded departure List.mem_cons_self)
  · rintro (absent | below)
    · exact absurd absent none
    · exact within below
  · obtain ⟨_, read⟩ := Number.exists_reads feed_pos
    obtain ⟨_, ceiling⟩ := Number.exists_reads positive
    obtain ⟨_, factor⟩ := Number.exists_reads scale_pos
    exact Number.frequency_mono read ceiling factor ((Number.le_iff_of_reads read ceiling).mp below)

theorem waiting_within_rate :
    (Platform.departuresSince waiting.drives.platform (homedFrom waiting).drives.platform .z).all
      (·.hz ≤ Number.ofInt (Units.frequency 500 250)) = true := by
  have fed : Machine.bench.store.float .homingFeed = .ok 25 := by decide +kernel
  have scaled : Machine.bench.store.float (.stepsPerMm .z) = .ok 250 := by decide +kernel
  have rated : Machine.bench.store.float (.maxRate .z) = .ok 500 := by decide +kernel
  have positive : Number.isPositive 500 = true := by decide +kernel
  have below : (25 : Float) ≤ 500 := by decide +kernel
  obtain ⟨_, within⟩ := home_within_rate_iff fed scaled Machine.bench.limits waiting
  unfold homedFrom
  exact List.all_eq_true.mpr fun departure inside =>
    decide_eq_true ((within 500 rated positive).2 below departure inside)

def hasty : Setting.Store := Machine.factory .homingFeed "1000"

def hastened : Station := ((Station.home Machine.bench.limits hasty).run waiting).2

theorem hastened_above_rate :
    hasty.float (.maxRate .z) = .ok 500 ∧ Number.isPositive 500 = true ∧
      hasty.float (.stepsPerMm .z) = .ok 250 ∧
      Platform.departuresSince waiting.drives.platform hastened.drives.platform .z =
        [.run .reverse 4167, .move 250 4167] ∧
      Units.frequency 500 250 = 2083 ∧ ¬ (4167 : Float) ≤ Number.ofInt 2083 := by
  refine ⟨?_, ?_, ?_, ?_, ?_, ?_⟩ <;> decide +kernel

end Home

end Crawler.Homing

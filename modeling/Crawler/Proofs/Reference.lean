import Crawler.Proofs.Frame
import Crawler.Proofs.Homing

/-! The reference of the depth axis. An emergency stop takes it away, and a home command that is
allowed replaces it or takes it away; whatever else happens, the axis stays homed as it was and counts
from the same place. -/
namespace Crawler

open Crawler.Action
open Hardware (Platform Engine)

namespace Hardware.Platform

structure Framed (trigger origin : Int) (p : Platform) : Prop where
  trigger : p.limit.trigger = trigger
  free : p.limit.levelOverride = none
  origin : (p.engine .z).offset = origin

variable {trigger origin : Int}

private theorem framed_impassive : Drives.Impassive (Framed trigger origin) where
  engaged a op same p framed := by
    rw [run_engage]
    refine ⟨?_, ?_, ?_⟩
    · rw [commit_limit]
      exact framed.trigger
    · rw [commit_limit]
      exact framed.free
    · by_cases depth : Axis.z = a
      · subst depth
        rw [commit_engine, same]
        exact framed.origin
      · rw [commit_engine_of_ne p _ _ depth]
        exact framed.origin
  retired a p framed := by
    refine ⟨framed.trigger, framed.free, ?_⟩
    by_cases depth : Axis.z = a
    · subst depth
      rw [retire_engine, Engine.retire_offset]
      exact framed.origin
    · rw [p.retire_engine_of_ne a depth]
      exact framed.origin
  advanced us p framed := by
    refine ⟨(p.advance_trigger us).trans framed.trigger, (p.advance_levelOverride us).trans framed.free, ?_⟩
    unfold engine
    rw [p.advance_engines us]
    exact framed.origin

private theorem disturbed_framed {f : Platform → Platform} (disturbance : Disturbance f)
    (same : ∀ p, (f p).limit.levelOverride = p.limit.levelOverride) (p : Platform)
    (framed : Framed trigger origin p) : Framed trigger origin (f p) := by
  refine ⟨?_, (same p).trans framed.free, ?_⟩
  · cases disturbance with
    | advance us => exact (p.advance_trigger us).trans framed.trigger
    | advanceUntil us => exact (p.advanceUntil_trigger us).trans framed.trigger
    | failNext a reason => exact framed.trigger
    | overrideLevel level => exact framed.trigger
    | edge => exact (p.serve_trigger true).trans framed.trigger
  · rcases disturbance.engine_cases p .z with same | ⟨reason, faulted⟩
    · rw [same]
      exact framed.origin
    · rw [faulted]
      exact framed.origin

end Hardware.Platform

namespace Homing

/-- The depth axis is homed after a homing that succeeded, and only then. -/
theorem Station.home_phase {limits : Limits} {store : Setting.Store} {s t : Station}
    {result : Except HomingFault Report} (ran : (home limits store).run s = (result, t)) :
    t.phase = match result with
      | .ok _ => .homed
      | .error _ => .faulted := by
  unfold home at ran
  cases loaded : Parameters.load store with
  | error fault =>
    rw [loaded] at ran
    cases ran
    rfl
  | ok parameters =>
    rw [loaded] at ran
    let lowered : Station :=
      ⟨{ s.drives with platform := { s.drives.platform with homingSignal := false } }, .idle⟩
    have entered : (enter .idle).run s = (.ok (), { s with phase := .idle }) := rfl
    have flagged : (setFlag false).run { s with phase := .idle } = (.ok (), lowered) := rfl
    rw [run_bind_ok entered, run_bind_ok flagged] at ran
    dsimp only at ran
    cases worked : (sequence limits parameters).run lowered with
    | mk outcome u =>
      rw [run_bind_ok (run_attempt_eq worked)] at ran
      cases outcome with
      | ok report =>
        cases ran
        rfl
      | error fault =>
        dsimp only at ran
        rw [run_bind_ok (run_abandon u)] at ran
        cases ran
        rfl

end Homing

namespace Machine

open Hardware.Platform (Framed)
open Homing (Report Station)

def Outcome.homed? : Outcome → Option Report
  | .ok (some (.homed report)) => some report
  | _ => none

/-- What a stimulus decides about the reference of the depth axis, if it decides anything. Homing that
the settings do not allow does not. -/
def Stimulus.decision? (store : Setting.Store) (outcome : Outcome) : Stimulus → Option (Option Report)
  | .command .emergencyStop => some none
  | .command .home =>
    match store.flag .homingEnable with
    | .ok true => some outcome.homed?
    | _ => none
  | _ => none

def decisions : List Stimulus → Machine → List (Option Report)
  | [], _ => []
  | stimulus :: rest, m =>
    let (outcome, later) := (respond stimulus).run m
    (stimulus.decision? m.store outcome).toList ++ decisions rest later

structure Referenced (trigger : Int) (reference : Option Report) (m : Machine) : Prop where
  framed : ∃ origin, Framed trigger origin m.drives.platform ∧
    ∀ report ∈ reference, origin = trigger + 1 + report.pullOffSteps
  phase : m.phase = .homed ↔ reference.isSome

variable {trigger : Int} {reference : Option Report} {m : Machine} {stimulus : Stimulus}

private theorem emergencyStop_referenced (referenced : Referenced trigger reference m) :
    Referenced trigger none (emergencyStop.run m).2 := by
  obtain ⟨origin, framed, _⟩ := referenced.framed
  have stopped := Drives.emergencyStop_frame Hardware.Platform.framed_impassive.frame m.drives framed
  exact ⟨⟨origin, ⟨stopped.trigger, stopped.free, stopped.origin⟩, nofun⟩, nofun, nofun⟩

private theorem home_referenced (referenced : Referenced trigger reference m) :
    let (outcome, later) := (respond (.command .home)).run m
    Referenced trigger (((Stimulus.command .home).decision? m.store outcome).getD reference) later := by
  obtain ⟨origin, framed, counted⟩ := referenced.framed
  rw [run_command Response.homed rfl m]
  rcases home_cases m with ⟨closed, fault, console, ran⟩ | ⟨opened, result, s, console, homed, ran⟩
  · have undecided (outcome : Outcome) :
        (Stimulus.command .home).decision? m.store outcome = none := by
      unfold Stimulus.decision?
      dsimp only
      split
      · next asked => exact absurd asked closed
      · rfl
    dsimp only
    rw [undecided, ran]
    exact ⟨⟨origin, framed, counted⟩, referenced.phase⟩
  · have decided (outcome : Outcome) :
        (Stimulus.command .home).decision? m.store outcome = some outcome.homed? := by
      unfold Stimulus.decision?
      dsimp only
      rw [opened]
    have phase := Station.home_phase homed
    have switch := Station.home_keeps (Homing.limit_aside trigger none).invariant m.limits m.store
      ⟨m.drives, m.phase⟩ ⟨framed.trigger, framed.free⟩
    rw [homed] at switch
    obtain ⟨placed, free⟩ := switch
    dsimp only
    rw [decided, ran]
    cases result with
    | error fault =>
      refine ⟨⟨_, ⟨placed, free, rfl⟩, fun _ never => nomatch never⟩, ?_⟩
      dsimp only at phase ⊢
      rw [phase]
      exact ⟨nofun, nofun⟩
    | ok report =>
      have there := Homing.home_homed framed.free homed
      refine ⟨⟨_, ⟨placed, free, rfl⟩, fun told same => ?_⟩, fun _ => rfl, fun _ => phase⟩
      cases same
      have physical := there.physical
      have position := there.position
      unfold Hardware.Platform.physical at physical
      unfold Hardware.Platform.position Engine.positionAt at position
      dsimp only at physical ⊢
      rw [framed.trigger] at physical
      omega

private theorem respond_referenced (free : ∀ level, stimulus ≠ .overrideLevel level)
    (referenced : Referenced trigger reference m) :
    let (outcome, later) := (respond stimulus).run m
    Referenced trigger ((stimulus.decision? m.store outcome).getD reference) later := by
  by_cases homing : stimulus = .command .home
  · subst homing
    exact home_referenced referenced
  by_cases stopping : stimulus = .command .emergencyStop
  · subst stopping
    exact emergencyStop_referenced referenced
  obtain ⟨origin, framed, counted⟩ := referenced.framed
  have undecided : stimulus.decision? m.store ((respond stimulus).run m).1 = none := by
    unfold Stimulus.decision?
    split
    · exact absurd rfl stopping
    · exact absurd rfl homing
    · rfl
  have driven : Station.Driven fun s => Framed trigger origin s.drives.platform ∧ s.phase = m.phase :=
    Station.driven_of_impassive Hardware.Platform.framed_impassive
      (fun f disturbance same => Hardware.Platform.disturbed_framed disturbance same) (· = m.phase)
  have held := respond_driven driven Spindle.true_kept homing stopping free m ⟨⟨framed, rfl⟩, trivial⟩
  dsimp only
  rw [undecided]
  refine ⟨⟨origin, held.station.1, counted⟩, ?_⟩
  have same : ((respond stimulus).run m).2.phase = m.phase := held.station.2
  rw [same]
  exact referenced.phase

private theorem run_referenced {stimuli : List Stimulus} (free : ∀ level, .overrideLevel level ∉ stimuli)
    (referenced : Referenced trigger reference m) :
    Referenced trigger ((decisions stimuli m).getLast?.getD reference) (run stimuli m).2 := by
  induction stimuli generalizing m reference with
  | nil => exact referenced
  | cons stimulus rest ih =>
    have here := respond_referenced
      (fun level same => free level (same ▸ List.mem_cons_self)) referenced
    have there := ih (fun level inside => free level (List.mem_cons_of_mem _ inside)) here
    have last : (decisions (stimulus :: rest) m).getLast?.getD reference =
        (decisions rest ((respond stimulus).run m).2).getLast?.getD
          ((stimulus.decision? m.store ((respond stimulus).run m).1).getD reference) := by
      change ((stimulus.decision? m.store ((respond stimulus).run m).1).toList ++
        decisions rest ((respond stimulus).run m).2).getLast?.getD reference = _
      cases stimulus.decision? m.store ((respond stimulus).run m).1 with
      | none => rfl
      | some decision =>
        rw [List.getLast?_append]
        cases (decisions rest ((respond stimulus).run m).2).getLast? <;> rfl
    rw [last]
    exact there

section Status

private theorem retire_position (a b : Axis) (p : Platform) : (p.retire a).position b = p.position b := by
  unfold Hardware.Platform.position Engine.positionAt
  by_cases same : b = a
  · subst same
    rw [Hardware.Platform.retire_engine, Engine.retire_offset, Hardware.Platform.retire_now,
      Engine.absoluteAt_retire]
  · rw [p.retire_engine_of_ne a same, Hardware.Platform.retire_now]

/-- The readings show where each axis stands, also where a move has ended in the meantime. -/
theorem run_readings (d : Drives) : ∃ readings d',
    (Drives.readings : Action Drives Fault (PerAxis AxisReading)).run d = (.ok readings, d') ∧
      ∀ a, (readings.get a).position = d.position a := by
  have state (a : Axis) (d : Drives) : ∃ reading,
      (Drives.state a : Action Drives Fault AxisReading).run d =
          (.ok reading, { d with platform := d.platform.retire a }) ∧
        reading.position = d.position a := by
    unfold Drives.state
    rw [run_bind_ok (run_read d), run_bind_ok (Drives.run_isMoving a d)]
    exact ⟨_, rfl, rfl⟩
  obtain ⟨left, read_left, here⟩ := state .left d
  obtain ⟨right, read_right, there⟩ := state .right { d with platform := d.platform.retire .left }
  obtain ⟨z, read_z, below⟩ :=
    state .z { d with platform := (d.platform.retire .left).retire .right }
  refine ⟨⟨left, right, z⟩,
    { d with platform := ((d.platform.retire .left).retire .right).retire .z }, ?_, fun a => ?_⟩
  · unfold Drives.readings
    rw [run_bind_ok read_left, run_bind_ok read_right, run_bind_ok read_z]
    rfl
  · unfold Drives.position at here there below
    dsimp only at there below
    rw [retire_position] at there
    rw [retire_position, retire_position] at below
    cases a
    · exact here
    · exact there
    · exact below

/-- A machine tells its status unless a setting that the status shows cannot be read. -/
theorem run_status (m : Machine) :
    (∃ fault, Spindle.settings m.store = .error fault ∨
        ∃ a, m.store.float (.stepsPerMm a) = .error fault) ∨
      ∃ current, (status.run m).1 = .ok current ∧ current.phase = m.phase ∧
        ∀ a, (current.axes.get a).reading.position = m.drives.position a := by
  cases asked : Spindle.settings m.store with
  | error fault => exact .inl ⟨fault, .inl rfl⟩
  | ok settings =>
    by_cases scaled : ∀ a, ∃ x, m.store.float (.stepsPerMm a) = .ok x
    · obtain ⟨readings, d, read, positions⟩ := run_readings m.drives
      have report (a : Axis) (reading : AxisReading) : ∃ shown,
          axisReport m.store a reading = .ok shown ∧ shown.reading = reading := by
        obtain ⟨x, known⟩ := scaled a
        unfold axisReport
        rw [known]
        exact ⟨_, rfl, rfl⟩
      obtain ⟨left, shown_left, same_left⟩ := report .left readings.left
      obtain ⟨right, shown_right, same_right⟩ := report .right readings.right
      obtain ⟨z, shown_z, same_z⟩ := report .z readings.z
      refine .inr ⟨⟨⟨left, right, z⟩, m.phase, m.spindle.state settings⟩, ?_, rfl, fun a => ?_⟩
      · unfold status
        rw [run_bind_ok (readStore_ok asked), run_bind_ok (run_onDrives read),
          run_bind_ok (readStore_ok shown_left), run_bind_ok (readStore_ok shown_right),
          run_bind_ok (readStore_ok shown_z)]
        rfl
      · rw [← positions a]
        cases a
        · exact congrArg AxisReading.position same_left
        · exact congrArg AxisReading.position same_right
        · exact congrArg AxisReading.position same_z
    · obtain ⟨a, unread⟩ := Classical.not_forall.mp scaled
      cases known : m.store.float (.stepsPerMm a) with
      | ok x => exact absurd ⟨x, known⟩ unread
      | error fault => exact .inl ⟨fault, .inr ⟨a, known⟩⟩

end Status

/-- Unless the level of the switch is forced, the status shows the depth axis as homed if and only if
the last decision of the run was a homing that succeeded, and then the axis counts from the place where
that homing left it. -/
theorem homed_iff_referenced {stimuli : List Stimulus} (free : ∀ level, .overrideLevel level ∉ stimuli)
    (store : Setting.Store) (pins : PerAxis Nat) (trigger : Int) (output : Hardware.SpindleOutput)
    (limits : Homing.Limits) (console : Console) :
    let begun := fresh store (.fresh pins trigger) output limits console
    let m := (run stimuli begun).2
    let reference := (decisions stimuli begun).getLast?.join
    (m.phase = .homed ↔ reference.isSome) ∧
      (∀ report ∈ reference, m.drives.position .z =
        m.drives.platform.physical .z - (trigger + 1 + report.pullOffSteps)) ∧
      ((∃ fault, Spindle.settings m.store = .error fault ∨
          ∃ a, m.store.float (.stepsPerMm a) = .error fault) ∨
        ∃ current, (status.run m).1 = .ok current ∧ (current.isHomed ↔ reference.isSome) ∧
          (current.isHomed → ∃ report ∈ reference, current.axes.z.reading.position =
            m.drives.platform.physical .z - (trigger + 1 + report.pullOffSteps))) := by
  intro begun m reference
  have referenced : Referenced trigger reference m := by
    have begins : Referenced trigger none begun := ⟨⟨0, ⟨rfl, rfl, rfl⟩, nofun⟩, nofun, nofun⟩
    have ends := run_referenced free begins
    have joined (last : Option (Option Report)) : last.getD none = last.join := by cases last <;> rfl
    rwa [joined] at ends
  obtain ⟨origin, framed, counted⟩ := referenced.framed
  have position (report : Report) (inside : report ∈ reference) : m.drives.position .z =
      m.drives.platform.physical .z - (trigger + 1 + report.pullOffSteps) := by
    rw [← counted report inside, ← framed.origin]
    rfl
  refine ⟨referenced.phase, position, ?_⟩
  rcases run_status m with unread | ⟨current, told, phase, positions⟩
  · exact .inl unread
  · have homed : current.isHomed ↔ reference.isSome := by
      unfold Status.isHomed
      rw [phase, decide_eq_true_iff]
      exact referenced.phase
    refine .inr ⟨current, told, homed, fun shown => ?_⟩
    obtain ⟨report, inside⟩ := Option.isSome_iff_exists.mp (homed.mp shown)
    exact ⟨report, inside, (positions .z).trans (position report inside)⟩

def outing : List Stimulus :=
  [.command .home, .command (.depth ⟨100, 1⟩), .command (.drive ⟨.forward, 100, 0⟩),
    .command (.enterSetting .homingPullOff "2")]

theorem outing_homed :
    (run outing bench).2.phase = .homed ∧
      (run outing bench).2.drives.position .z =
        (run outing bench).2.drives.platform.physical .z - 248 := by
  have free : ∀ level, Stimulus.overrideLevel level ∉ outing := by
    intro level inside
    simp [outing] at inside
  have decided : (decisions outing bench).getLast?.join = some ⟨104, 100, 6, 250⟩ := by decide +kernel
  obtain ⟨homed, position, _⟩ := homed_iff_referenced free (factory .softLimits "1") ⟨26, 14, 17⟩ (-3)
    (.fresh none) ⟨100, 10, 2000⟩ .log
  unfold bench at decided ⊢
  exact ⟨homed.mpr (congrArg Option.isSome decided),
    position ⟨104, 100, 6, 250⟩ (Option.mem_def.mpr decided)⟩

end Machine

end Crawler

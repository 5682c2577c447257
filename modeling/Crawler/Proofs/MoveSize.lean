import Crawler.Proofs.Departure
import Crawler.Proofs.FeedCeiling
import Crawler.Proofs.Tracks

/-! How many steps one move carries. -/
namespace Crawler

open Crawler.Action

namespace Units

def Moderate (n : Int) : Prop := n ≠ 0 ∧ n.natAbs ≤ stepLimit

private theorem moderate_sum {n start : Int} (moderate : Moderate n) (inside : start.natAbs < 2 ^ 62) :
    Int64.minValue.toInt ≤ start + n ∧ start + n ≤ Int64.maxValue.toInt := by
  have low : Int64.minValue.toInt = -2 ^ 63 := by decide
  have high : Int64.maxValue.toInt = 2 ^ 63 - 1 := by decide
  have bound := moderate.2
  unfold stepLimit at bound
  omega

end Units

namespace Plan

variable {store : Setting.Store} {plan : Plan} {mm feed : Float}

private theorem wholeSteps_le {stepsPerMm : Float} {n : Int} (counted : wholeSteps mm stepsPerMm = .ok n) :
    n.natAbs ≤ Units.stepLimit := by
  exact Units.steps?_bound (wholeSteps_ok counted)

private theorem trackSteps_le {stepsPerMm : Float} {share : TrackShare} {n : Int}
    (counted : trackSteps mm stepsPerMm share = .ok n) : n.natAbs ≤ Units.stepLimit := by
  obtain ⟨full, whole, rfl⟩ := trackSteps_ok counted
  rw [TrackShare.natAbs_directed, TrackShare.natAbs_sign_mul_part]
  exact (share.part_le _).trans (Units.steps?_bound whole)

private theorem ofDrive_steps {direction : Direction} (made : ofDrive store direction mm feed = .ok plan)
    (a : Axis) : (plan.move.steps.get a).natAbs ≤ Units.stepLimit := by
  obtain ⟨_, _, _, basis, rfl⟩ := ofDrive_ok made
  cases a with
  | left => exact trackSteps_le basis.left_steps
  | right => exact trackSteps_le basis.right_steps
  | z => exact Nat.zero_le _

private theorem ofDepth_steps {position : Int} (made : ofDepth store position mm feed = .ok plan)
    (a : Axis) :
    (plan.move.steps.get a).natAbs ≤ Units.stepLimit := by
  obtain ⟨_, _, basis, rfl⟩ := ofDepth_ok made
  cases a with
  | left => exact Nat.zero_le _
  | right => exact Nat.zero_le _
  | z => exact wholeSteps_le basis.counted

end Plan

theorem Drives.Course.plan_steps {course : Course} {store : Setting.Store} {position : Int}
    {mm feed : Float} {plan : Plan} (made : course.plan store position mm feed = .ok plan) (a : Axis) :
    (plan.move.steps.get a).natAbs ≤ Units.stepLimit := by
  cases course with
  | drive direction => exact Plan.ofDrive_steps made a
  | depth => exact Plan.ofDepth_steps made a

namespace Hardware.Platform

variable {a : Axis} {p q r : Platform} {starts : List Occurrence} {made : List Departure}

theorem moveHistory_of_gains (gains : Drives.Gains a p q starts) :
    q.moveHistory a = p.moveHistory a ++ starts.filterMap (·.startedMove?) := by
  obtain ⟨added, log, rfl⟩ := gains
  unfold moveHistory
  rw [log, List.filterMap_append, List.filterMap_map, List.filterMap_filter]
  congr 2
  funext event
  dsimp only [Function.comp]
  cases event.what.startedMove? <;> rfl

private theorem departures_moves (speed : Float) (events : List Event) :
    (departures speed events).filterMap (·.move?) = events.filterMap (·.what.startedMove?) := by
  induction events generalizing speed with
  | nil => rfl
  | cons event rest ih =>
    have here : (event.what.departure? speed).toList.filterMap (·.move?) =
        event.what.startedMove?.toList := by
      cases event.what <;> rfl
    unfold departures
    rw [List.filterMap_append, here, ih, List.filterMap_cons]
    cases event.what.startedMove? <;> rfl

theorem moveHistory_of_departs (departs : Departs a p q made) :
    q.moveHistory a = p.moveHistory a ++ made.filterMap (·.move?) := by
  obtain ⟨added, log, rfl, _⟩ := departs
  unfold moveHistory
  rw [log, List.filterMap_append, departures_moves]

def Moderately (p q : Platform) : Prop :=
  ∀ a, ∃ moves, q.moveHistory a = p.moveHistory a ++ moves ∧ ∀ move ∈ moves, Units.Moderate move.1

theorem moderately_refl (p : Platform) : Moderately p p := by
  intro a
  exact ⟨[], (List.append_nil _).symm, nofun⟩

theorem moderately_trans (first : Moderately p q) (second : Moderately q r) : Moderately p r := by
  intro a
  obtain ⟨moves, grown, moderate⟩ := first a
  obtain ⟨later, grown', moderate'⟩ := second a
  refine ⟨moves ++ later, by rw [grown', grown, List.append_assoc], fun move inside => ?_⟩
  rcases List.mem_append.mp inside with inside | inside
  · exact moderate move inside
  · exact moderate' move inside

theorem moderately_of_gains (gains : ∀ a, Drives.Gains a p q []) : Moderately p q := by
  intro a
  exact ⟨[], moveHistory_of_gains (gains a), nofun⟩

theorem moderately_of_logs (logs : q.logs = p.logs) : Moderately p q := by
  refine moderately_of_gains fun a => ?_
  exact Drives.gains_of_log_eq (congrArg (PerAxis.get · a) logs)

end Hardware.Platform

namespace Homing.Station

open Hardware (Platform Engine Occurrence)
open Hardware.Platform (Moderately OnlyAt)

variable {p : Platform}

private theorem engage_moderate {α : Type} (a : Axis) {op : Nat → Engine → Engine.Outcome α}
    (quiet : ∀ now e, ∀ what ∈ (op now e).occurrence, what.Uneventful) :
    Preserves (fun d => Moderately p d.platform) (Drives.onPlatform (Platform.engage a op)) := by
  intro d moderate
  rw [Drives.run_engage rfl]
  exact Platform.moderately_trans moderate (Platform.moderately_of_gains
    (Drives.gains_of_onlyAt (Platform.commit_onlyAt _) (Platform.commit_quiet (quiet _ _))))

private theorem stop_moderate (a : Axis) :
    Preserves (fun d => Moderately p d.platform) (Drives.stop a) := by
  refine engage_moderate a fun now e => ?_
  rintro what ⟨⟩
  exact ⟨rfl, rfl⟩

private theorem disable_moderate (a : Axis) :
    Preserves (fun d => Moderately p d.platform) (Drives.disable a) := by
  refine engage_moderate a fun now e => ?_
  unfold Engine.disable
  dsimp only
  split
  · rintro what ⟨⟩
    exact ⟨rfl, rfl⟩
  · exact nofun

private theorem awaitRest_moderate (a : Axis) :
    Preserves (fun d => Moderately p d.platform) (Drives.awaitRest a) := by
  intro d moderate
  rcases Drives.awaitRest_cases d a with ⟨_, waited⟩ | ⟨_, refused⟩
  · rw [waited]
    exact Platform.moderately_trans moderate (Platform.moderately_of_gains
      (Drives.gains_of_onlyAt Platform.awaited_onlyAt Platform.awaited_quiet))
  · rwa [refused]

private theorem course_moderate (store : Setting.Store) (mm feed : Float) (course : Drives.Course) :
    Preserves (fun d => Moderately p d.platform) (course.run store mm feed) := by
  intro d moderate
  cases ran : (course.run store mm feed).run d with
  | mk result d' =>
    rcases Drives.course_cases course ran with ⟨_, _, rfl⟩ | ⟨plan, made, dispatched⟩
    · exact moderate
    · refine Platform.moderately_trans moderate fun a => ?_
      have bound := Drives.Course.plan_steps made a
      obtain ⟨starts, gained, among, _⟩ := Drives.dispatch_gains dispatched a
      refine ⟨_, Platform.moveHistory_of_gains gained, fun move inside => ?_⟩
      obtain ⟨what, begun, started⟩ := List.mem_filterMap.mp inside
      have begun := among.subset begun
      by_cases still : plan.move.steps.get a = 0
      · rw [if_pos still] at begun
        cases begun
      · rw [if_neg still] at begun
        cases List.mem_singleton.mp begun
        cases started
        exact ⟨still, bound⟩

theorem moderate_stopped (p : Platform) : Stopped fun s => Moderately p s.drives.platform where
  drive _ store direction mm feed := course_moderate store mm feed (.drive direction)
  depth _ store mm feed := course_moderate store mm feed .depth
  readings _ := Drives.preserves_readings fun a d moderate => by
    rw [Drives.run_isMoving]
    exact Platform.moderately_trans moderate (Platform.moderately_of_logs rfl)
  awaitAll _ := Drives.preserves_awaitAll awaitRest_moderate
  forced _ _ _ moderate := moderate
  disturbed _ f disturbance _ d moderate := by
    have logged := Platform.moderately_of_logs (disturbance.logs d.platform)
    exact Platform.moderately_trans moderate logged
  emergencyStop _ := Drives.preserves_emergencyStop stop_moderate disable_moderate
  released _ moderate := moderate

end Homing.Station

namespace Machine

open Hardware (Platform)
open Hardware.Platform (Moderately)
open Homing (Station)

def Outcome.pullOff : Outcome → List (Int × Float)
  | .ok (some (.homed report)) => [(report.pullOffSteps, Number.ofInt report.hz)]
  | _ => []

private theorem Outcome.mem_pullOff {outcome : Outcome} {move : Int × Float}
    (pulled : move ∈ outcome.pullOff) :
    ∃ report, outcome = .ok (some (.homed report)) ∧ move.1 = report.pullOffSteps := by
  unfold pullOff at pulled
  split at pulled
  · cases List.mem_singleton.mp pulled
    exact ⟨_, rfl, rfl⟩
  · cases pulled

/-- All moves that were started carry a moderate number of steps, but for pull-offs that homing reports;
and every pull-off that it reports was started. -/
def Sized (m : Machine) (outcomes : List Outcome) (m' : Machine) : Prop :=
  ∀ a, ∃ moves, m'.drives.platform.moveHistory a = m.drives.platform.moveHistory a ++ moves ∧
    (∀ move ∈ moves, Units.Moderate move.1 ∨
      a = .z ∧ move.1 ≠ 0 ∧ ∃ outcome ∈ outcomes, move ∈ outcome.pullOff) ∧
    (a = .z → ∀ outcome ∈ outcomes, ∀ move ∈ outcome.pullOff, move ∈ moves)

variable {m m' m'' : Machine} {outcomes later : List Outcome}

private theorem sized_append (first : Sized m outcomes m') (second : Sized m' later m'') :
    Sized m (outcomes ++ later) m'' := by
  intro a
  obtain ⟨moves, grown, moderate, pulled⟩ := first a
  obtain ⟨moves', grown', moderate', pulled'⟩ := second a
  refine ⟨moves ++ moves', by rw [grown', grown, List.append_assoc], fun move inside => ?_,
    fun depth outcome told move off => ?_⟩
  · rcases List.mem_append.mp inside with inside | inside
    · exact (moderate move inside).imp_right fun ⟨depth, moved, outcome, told, off⟩ =>
        ⟨depth, moved, outcome, List.mem_append_left _ told, off⟩
    · exact (moderate' move inside).imp_right fun ⟨depth, moved, outcome, told, off⟩ =>
        ⟨depth, moved, outcome, List.mem_append_right _ told, off⟩
  · rcases List.mem_append.mp told with told | told
    · exact List.mem_append_left _ (pulled depth outcome told move off)
    · exact List.mem_append_right _ (pulled' depth outcome told move off)

private theorem answer_ne_homed {α : Type} {answer : α → Response} {report : Homing.Report}
    (other : ∀ x, answer x ≠ .homed report) (result : Except Fault α) :
    result.map (fun x => some (answer x)) ≠ .ok (some (.homed report)) := by
  cases result with
  | error fault => exact nofun
  | ok x => exact fun same => other x (Option.some.inj (Except.ok.inj same))

/-- Only a home command answers with a report of homing. -/
theorem respond_homed {stimulus : Stimulus} {report : Homing.Report}
    (answered : ((respond stimulus).run m).1 = .ok (some (.homed report))) :
    stimulus = .command .home := by
  have other {α : Type} {command : Command} {action : Action Machine Fault α} (answer : α → Response)
      (distinct : ∀ x, answer x ≠ .homed report)
      (defined : execute command = action >>= fun x => pure (answer x))
      (answered : ((respond (.command command)).run m).1 = .ok (some (.homed report))) : False := by
    rw [run_command answer defined m] at answered
    exact answer_ne_homed distinct _ answered
  have silent {β : Type} {action : Action Machine Fault β} (answered :
      ((action >>= fun _ => pure none : Action Machine Fault (Option Response)).run m).1 =
        .ok (some (.homed report))) : False := by
    obtain ⟨_, _, _, ended⟩ := run_bind_eq_ok.mp (run_eq_of_result answered)
    cases ended
  cases stimulus with
  | command command =>
    cases command with
    | home => rfl
    | drive request => exact (other .motion (fun _ => nofun) rfl answered).elim
    | depth request => exact (other .motion (fun _ => nofun) rfl answered).elim
    | status => exact (other .status (fun _ => nofun) rfl answered).elim
    | emergencyStop => exact (other (fun _ => .stopped) (fun _ => nofun) rfl answered).elim
    | spindle request => exact (other .spindle (fun _ => nofun) rfl answered).elim
    | showSettings => exact (other .settings (fun _ => nofun) rfl answered).elim
    | showSetting key => exact (other .setting (fun _ => nofun) rfl answered).elim
    | enterSetting key text => exact (other .setting (fun _ => nofun) rfl answered).elim
    | restoreSettings => exact (other .settings (fun _ => nofun) rfl answered).elim
  | wait => exact (silent answered).elim
  | advance us => exact (silent answered).elim
  | advanceUntil us => exact (silent answered).elim
  | failNext a reason => exact (silent answered).elim
  | overrideLevel level => exact (silent answered).elim
  | edge => exact (silent answered).elim
  | reconfigure store => exact (silent answered).elim

private theorem sized_of_moderately {outcome : Outcome}
    (moderately : Moderately m.drives.platform m'.drives.platform)
    (none : outcome.pullOff = []) : Sized m [outcome] m' := by
  intro a
  obtain ⟨moves, grown, moderate⟩ := moderately a
  refine ⟨moves, grown, fun move inside => .inl (moderate move inside), fun _ _ told move off => ?_⟩
  cases List.mem_singleton.mp told
  rw [none] at off
  cases off

private theorem home_moves (limits : Homing.Limits) (store : Setting.Store) (s : Station) :
    let ran := (Station.home limits store).run s
    (∀ a ≠ .z, ran.2.drives.platform.moveHistory a = s.drives.platform.moveHistory a) ∧
      ran.2.drives.platform.moveHistory .z = s.drives.platform.moveHistory .z ++
        Outcome.pullOff (ran.1.mapError Fault.homing |>.map fun report => some (.homed report)) ∧
      ∀ report, ran.1 = .ok report → 1 ≤ report.pullOffSteps := by
  have elsewhere (a : Axis) (other : a ≠ .z) := Homing.home_untouched other limits store s
    (Drives.untouched_refl a s.drives)
  obtain ⟨made, departs, cycle, whole, none⟩ := Homing.home_departs limits store s
  have grown := Platform.moveHistory_of_departs departs
  dsimp only
  refine ⟨fun a other => ?_, ?_, fun report answered => ?_⟩
  · unfold Platform.moveHistory
    rw [(elsewhere a other).log]
  · rw [grown]
    congr 1
    cases answered : ((Station.home limits store).run s).1 with
    | ok report =>
      rw [whole report answered]
      rfl
    | error fault =>
      rw [none fault answered]
      rfl
  · have whole := whole report answered
    obtain ⟨parameters, loaded, among⟩ := cycle (by rw [whole]; exact nofun)
    have least := Homing.load_pullOff loaded
    rw [whole] at among
    obtain ⟨_, same⟩ := List.cons.inj (among.eq_of_length rfl)
    obtain ⟨steps, _⟩ := Hardware.Departure.move.inj (List.cons.inj same).1
    rwa [steps]

private theorem home_sized :
    Sized m [((respond (.command .home)).run m).1] ((respond (.command .home)).run m).2 := by
  rw [run_command .homed rfl m]
  rcases home_cases m with ⟨_, fault, console, ran⟩ | ⟨_, result, s, console, homed, ran⟩
  · rw [ran]
    exact sized_of_moderately (Platform.moderately_refl _) rfl
  · obtain ⟨elsewhere, depth, least⟩ := home_moves m.limits m.store ⟨m.drives, m.phase⟩
    rw [homed] at elsewhere depth least
    rw [ran]
    dsimp only at elsewhere depth least ⊢
    intro a
    by_cases other : a = .z
    · subst other
      refine ⟨_, depth, fun move inside => .inr ⟨rfl, ?_, _, List.mem_singleton_self _, inside⟩, ?_⟩
      · cases result with
        | error fault => cases inside
        | ok report =>
          cases List.mem_singleton.mp inside
          have := least report rfl
          dsimp only
          omega
      · intro _ outcome told move off
        rwa [List.mem_singleton.mp told] at off
    · exact ⟨[], by rw [List.append_nil]; exact elsewhere a other, nofun, fun depth => absurd depth other⟩

private theorem respond_sized (stimulus : Stimulus) :
    Sized m [((respond stimulus).run m).1] ((respond stimulus).run m).2 := by
  by_cases homeless : stimulus = .command .home
  · subst homeless
    exact home_sized
  · have held := respond_stopped (Station.moderate_stopped m.drives.platform) Spindle.true_kept homeless m
      ⟨Platform.moderately_refl _, trivial⟩
    refine sized_of_moderately held.station ?_
    unfold Outcome.pullOff
    split
    · next answered => exact absurd (respond_homed answered) homeless
    · rfl

private theorem run_sized (stimuli : List Stimulus) (m : Machine) :
    Sized m (run stimuli m).1 (run stimuli m).2 := by
  induction stimuli generalizing m with
  | nil => exact fun a => ⟨[], (List.append_nil _).symm, nofun, fun _ _ told => nomatch told⟩
  | cons stimulus rest ih =>
    have here := respond_sized (m := m) stimulus
    exact sized_append here (ih _)

/-- Every move of a run is one, and of at most so many steps as a move may carry, but for the pull-off of
homing, which is not limited; so all moves keep to the limit exactly if every pull-off that homing
reports does. From a start well within 64 bits such a move stays within them. -/
theorem moves_moderate_iff (store : Setting.Store) (pins : PerAxis Nat) (trigger : Int)
    (output : Hardware.SpindleOutput) (limits : Homing.Limits) (console : Console)
    (stimuli : List Stimulus) :
    let ran := run stimuli (fresh store (.fresh pins trigger) output limits console)
    let moves := ran.2.drives.platform.moveHistory
    (∀ a, ∀ move ∈ moves a, Units.Moderate move.1 ∨ a = .z ∧ move.1 ≠ 0 ∧
        ∃ report, .ok (some (.homed report)) ∈ ran.1 ∧ move.1 = report.pullOffSteps) ∧
      ((∀ a, ∀ move ∈ moves a, Units.Moderate move.1) ↔
        ∀ report, .ok (some (.homed report)) ∈ ran.1 → report.pullOffSteps.natAbs ≤ Units.stepLimit) ∧
      ∀ a, ∀ move ∈ moves a, Units.Moderate move.1 → ∀ start : Int, start.natAbs < 2 ^ 62 →
        Int64.minValue.toInt ≤ start + move.1 ∧ start + move.1 ≤ Int64.maxValue.toInt := by
  set m := fresh store (.fresh pins trigger) output limits console
  intro ran moves
  have empty (a : Axis) : m.drives.platform.moveHistory a = [] := by cases a <;> rfl
  have each (a : Axis) (move : Int × Float) (inside : move ∈ moves a) :
      Units.Moderate move.1 ∨ a = .z ∧ move.1 ≠ 0 ∧
        ∃ report, .ok (some (.homed report)) ∈ ran.1 ∧ move.1 = report.pullOffSteps := by
    obtain ⟨_, grown, sized, _⟩ := run_sized stimuli m a
    rw [empty, List.nil_append] at grown
    refine (sized move (grown ▸ inside)).imp_right fun ⟨depth, moved, outcome, told, off⟩ => ?_
    obtain ⟨report, rfl, same⟩ := Outcome.mem_pullOff off
    exact ⟨depth, moved, report, told, same⟩
  refine ⟨each, ⟨fun moderate report told => ?_, fun limited a move inside => ?_⟩,
    fun _ _ _ moderate _ inside => Units.moderate_sum moderate inside⟩
  · obtain ⟨_, grown, _, pulled⟩ := run_sized stimuli m .z
    rw [empty, List.nil_append] at grown
    have inside := pulled rfl _ told _ (List.mem_singleton_self _)
    exact (moderate .z _ (grown.symm ▸ inside)).2
  · rcases each a move inside with moderate | ⟨_, moved, report, told, same⟩
    · exact moderate
    · exact ⟨moved, same ▸ limited report told⟩

def faraway : Machine :=
  fresh (factory .homingPullOff "10000000") (.fresh ⟨26, 14, 17⟩ (-3)) (.fresh none) ⟨100, 10, 2000⟩ .log

theorem faraway_exceeds :
    (run [.command .home] faraway).2.drives.platform.moveHistory .z = [(2500000000, 104)] ∧
      ¬ (2500000000 : Int).natAbs ≤ Units.stepLimit := by
  refine ⟨?_, ?_⟩ <;> decide +kernel

end Machine

end Crawler

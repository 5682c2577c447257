import Crawler.Hardware.Operation
import Crawler.Proofs.Stoppage

/-! The axes share a clock and a limit switch, and nothing else: a motion or a homing cycle leaves an
axis that has no part in it as it was, whether it succeeds, is refused or fails half way. However long it
takes, the axis is where it would have been at that time without it. -/
namespace Crawler

open Crawler.Action
open Hardware (Platform Passage)

namespace Drives

variable {a : Axis} {d d' : Drives}

/-- At any later time the axis is where it would have been if nothing had happened but that time
passed. -/
theorem Untouched.position (untouched : Untouched a d d') {t : Nat} (later : d.platform.now ≤ t)
    (later' : d'.platform.now ≤ t) :
    (d'.platform.advanceUntil t).position a = (d.platform.advanceUntil t).position a := by
  have engine (p : Platform) : (p.advanceUntil t).engine a = p.engine a :=
    congrArg (PerAxis.get · a) (p.advanceUntil_engines t)
  unfold Platform.position
  rw [engine, engine, untouched.engine, Platform.advanceUntil_now, Platform.advanceUntil_now,
    max_eq_right later, max_eq_right later']

private theorem dispatch_untouched {plan : Plan} (none : plan.move.steps.get a = 0) :
    Preserves (Untouched a d) (dispatch plan) := by
  refine dispatch_frame fun b moved => untouched_frame ?_
  rintro rfl
  exact moved none

/-- A motion leaves the axes alone that it is not about. -/
theorem course_untouched {store : Setting.Store} {course : Course} {mm feed : Float}
    (apart : a ∉ course.axes) : Preserves (Untouched a d) (course.run store mm feed) := by
  intro d' untouched
  rw [course.run_eq]
  cases made : course.plan store (d'.position .z) mm feed with
  | error fault => exact untouched
  | ok plan =>
    have none : plan.move.steps.get a = 0 := by
      by_contra moved
      exact apart ((Course.plan_governed made).moves a moved).1
    exact dispatch_untouched none d' untouched

private theorem apply_untouched (passage : Passage) (a : Axis) (d : Drives) :
    Untouched a d { d with platform := passage.apply d.platform } := by
  have kept {p : Platform} := (untouched_refl a d).of_parts (p := p)
  cases passage with
  | advance us => exact kept (Platform.advance_engines _ us) (Platform.advance_logs _ us)
  | advanceUntil us => exact kept (Platform.advanceUntil_engines _ us) (Platform.advanceUntil_logs _ us)
  | delay ms => exact kept (Platform.advance_engines _ _) (Platform.advance_logs _ _)

end Drives

namespace Homing.Station

open Drives (Untouched Course)

variable {a : Axis}

inductive Deed where
  | motion (course : Course) (store : Setting.Store) (mm feed : Float)
  | home (limits : Limits) (store : Setting.Store)
  | pass (passage : Passage)

def Deed.axes : Deed → List Axis
  | motion course _ _ _ => course.axes
  | home _ _ => [.z]
  | pass _ => []

def Deed.carry : Deed → Station → Station
  | motion course store mm feed, s => { s with drives := ((course.run store mm feed).run s.drives).2 }
  | home limits store, s => ((Station.home limits store).run s).2
  | pass passage, s => { s with drives := { s.drives with platform := passage.apply s.drives.platform } }

private theorem carry_untouched {deed : Deed} (apart : a ∉ deed.axes) (s : Station) :
    Untouched a s.drives (deed.carry s).drives := by
  cases deed with
  | motion course store mm feed =>
    exact Drives.course_untouched apart s.drives (Drives.untouched_refl a s.drives)
  | home limits store =>
    have other : a ≠ .z := fun same => apart (List.mem_singleton.mpr same)
    exact home_untouched other limits store s (Drives.untouched_refl a s.drives)
  | pass passage => exact Drives.apply_untouched passage a s.drives

def carryAll (deeds : List Deed) (s : Station) : Station := deeds.foldl (fun s deed => deed.carry s) s

theorem carryAll_untouched {deeds : List Deed} (apart : ∀ deed ∈ deeds, a ∉ deed.axes) (s : Station) :
    Untouched a s.drives (carryAll deeds s).drives := by
  induction deeds generalizing s with
  | nil => exact Drives.untouched_refl a s.drives
  | cons deed rest ih =>
    have here := carry_untouched (apart deed List.mem_cons_self) s
    exact here.trans (ih (fun later inside => apart later (List.mem_cons_of_mem deed inside)) _)

end Homing.Station

namespace Machine

open Drives (Untouched Course)

def Stimulus.spares (a : Axis) : Stimulus → Bool
  | .command (.drive request) => a ∉ (Course.drive request.direction).axes
  | .command (.depth _) => a ∉ Course.depth.axes
  | .command .home => a ≠ .z
  | .failNext b _ => a ≠ b
  | .advance _ | .advanceUntil _ | .overrideLevel _ | .edge => true
  | _ => false

structure Bystander (a : Axis) (m m' : Machine) : Prop where
  store : m'.store = m.store
  drives : Untouched a m.drives m'.drives

variable {a : Axis} {m m' m'' : Machine} {stimuli : List Stimulus}

private theorem bystander_refl (a : Axis) (m : Machine) : Bystander a m m := by
  exact ⟨rfl, Drives.untouched_refl a m.drives⟩

private theorem Bystander.trans (first : Bystander a m m') (second : Bystander a m' m'') :
    Bystander a m m'' := by
  have drives := first.drives.trans second.drives
  exact ⟨second.store.trans first.store, drives⟩

/-- What is no laser waits for nothing after a motion. -/
theorem gated_bystander {motion : Action Drives MotionFault Receipt}
    (dark : m.store.flag .laserMode ≠ .ok true) (moved : Untouched a m.drives (motion.run m.drives).2) :
    Bystander a m ((gated motion).run m).2 := by
  cases asked : Spindle.settings m.store with
  | error fault =>
    rw [gated_unread asked]
    exact bystander_refl a m
  | ok settings =>
    cases before : (Spindle.beforeMove settings).run m.spindle with
    | mk powered lit =>
      cases powered with
      | error fault =>
        rw [gated_unlit asked before]
        exact ⟨rfl, Drives.untouched_refl a m.drives⟩
      | ok u =>
        have ran : motion.run m.drives = (_, _) := rfl
        have after : (Spindle.afterMove settings).run lit = (_, _) := rfl
        rw [gated_lit asked before ran after]
        have unlit : settings.laserMode = false := by
          cases laser : settings.laserMode with
          | false => rfl
          | true => exact absurd (laser ▸ Spindle.settings_laser asked) dark
        unfold afterMotion
        rw [unlit, if_neg Bool.false_ne_true]
        exact ⟨rfl, moved⟩

private theorem command_bystander {command : Command} (dark : m.store.flag .laserMode ≠ .ok true)
    (spares : (Stimulus.command command).spares a = true) :
    Bystander a m ((execute command).run m).2 := by
  have moved {course : Course} {mm feed : Float} (apart : a ∉ course.axes) :
      Bystander a m ((gated (course.run m.store mm feed)).run m).2 :=
    gated_bystander dark (Drives.course_untouched apart m.drives (Drives.untouched_refl a m.drives))
  have motioned {motion : Action Drives MotionFault Receipt} (asked : command.motion? m.store = some motion)
      (moved : Bystander a m ((gated motion).run m).2) : Bystander a m ((execute command).run m).2 := by
    obtain ⟨console, ran⟩ := execute_motion asked
    rw [ran]
    exact ⟨moved.store, moved.drives⟩
  cases command with
  | drive request => exact motioned rfl (moved (of_decide_eq_true spares))
  | depth request => exact motioned rfl (moved (of_decide_eq_true spares))
  | home =>
    rw [run_execute .homed rfl]
    dsimp only
    rcases home_cases m with ⟨_, fault, console, ran⟩ | ⟨_, result, s, console, homed, ran⟩
    · rw [ran]
      exact ⟨rfl, Drives.untouched_refl a m.drives⟩
    · rw [ran]
      have untouched := Homing.home_untouched (of_decide_eq_true spares) m.limits m.store
        ⟨m.drives, m.phase⟩ (Drives.untouched_refl a m.drives)
      rw [homed] at untouched
      exact ⟨rfl, untouched⟩
  | _ => cases spares

private theorem respond_bystander {stimulus : Stimulus} (dark : m.store.flag .laserMode ≠ .ok true)
    (spares : stimulus.spares a = true) : Bystander a m ((respond stimulus).run m).2 := by
  have kept {p : Platform} (engine : p.engine a = m.drives.platform.engine a)
      (log : p.log a = m.drives.platform.log a) :
      Bystander a m { m with drives := { m.drives with platform := p } } := ⟨rfl, engine, log, rfl⟩
  cases stimulus with
  | command command =>
    rw [respond_command]
    exact command_bystander dark spares
  | advance us => exact ⟨rfl, Drives.apply_untouched (.advance us) a m.drives⟩
  | advanceUntil us => exact ⟨rfl, Drives.apply_untouched (.advanceUntil us) a m.drives⟩
  | failNext b reason =>
    obtain ⟨engine, log⟩ :=
      Platform.failNext_elsewhere m.drives.platform b reason a (of_decide_eq_true spares)
    exact kept engine log
  | overrideLevel level => exact kept rfl rfl
  | edge =>
    exact kept (congrArg (PerAxis.get · a) (Platform.serve_engines _ true))
      (congrArg (PerAxis.get · a) (Platform.serve_logs _ true))
  | _ => cases spares

private theorem run_bystander (dark : m.store.flag .laserMode ≠ .ok true)
    (spares : ∀ stimulus ∈ stimuli, stimulus.spares a = true) : Bystander a m (run stimuli m).2 := by
  induction stimuli generalizing m with
  | nil => exact bystander_refl a m
  | cons stimulus rest ih =>
    have here := respond_bystander dark (spares stimulus List.mem_cons_self)
    exact here.trans (ih (here.store ▸ dark) fun later inside => spares later (List.mem_cons_of_mem _ inside))

end Machine

section Isolation

open Homing (Station)
open Homing.Station (Deed carryAll)
open Machine (Stimulus driving)

structure Isolated (a : Axis) (d d' : Drives) : Prop extends Drives.Untouched a d d' where
  position : ∀ t, d.platform.now ≤ t → d'.platform.now ≤ t →
    (d'.platform.advanceUntil t).position a = (d.platform.advanceUntil t).position a

private theorem isolated_of_untouched {a : Axis} {d d' : Drives} (untouched : Drives.Untouched a d d') :
    Isolated a d d' := by
  refine ⟨untouched, fun _ later later' => ?_⟩
  exact untouched.position later later'

/-- However long drives and homing cycles go on that are not about an axis, and however they end, the axis
is left alone, and is where it would have been without them. So it is on a machine that is no laser. -/
theorem axes_isolated (a : Axis) :
    (∀ (s : Station) (deeds : List Deed), (∀ deed ∈ deeds, a ∉ deed.axes) →
      Isolated a s.drives (carryAll deeds s).drives) ∧
    ∀ (m : Machine) (stimuli : List Stimulus), m.store.flag .laserMode ≠ .ok true →
      (∀ stimulus ∈ stimuli, stimulus.spares a = true) →
        Isolated a m.drives (Machine.run stimuli m).2.drives := by
  refine ⟨fun s deeds apart => ?_, fun m stimuli dark spares => ?_⟩
  · exact isolated_of_untouched (Station.carryAll_untouched apart s)
  · exact isolated_of_untouched (Machine.run_bystander dark spares).drives

def errands : List Stimulus :=
  [.command (.depth ⟨200, 1⟩), .advance 5000, .command .home, .failNext .z "jammed", .command (.depth ⟨200, 1⟩)]

def deeds (m : Machine) : List Deed :=
  [.motion .depth m.store 1 200, .pass (.delay 5), .home m.limits m.store]

/-- A track is on its way while the tool is lowered, homed and refused. -/
theorem track_isolated :
    (driving.drives.platform.engine .left).motion ≠ .idle ∧ driving.store.flag .laserMode ≠ .ok true ∧
      Isolated .left driving.drives (Machine.run errands driving).2.drives ∧
      Isolated .left driving.drives (carryAll (deeds driving) ⟨driving.drives, driving.phase⟩).drives := by
  obtain ⟨station, machine⟩ := axes_isolated .left
  have dark : driving.store.flag .laserMode ≠ .ok true := by decide +kernel
  have apart : ∀ deed ∈ deeds driving, Axis.left ∉ deed.axes := by
    simp [deeds, Deed.axes, Drives.Course.axes]
  have commanded := station ⟨driving.drives, driving.phase⟩ (deeds driving) apart
  dsimp only at commanded
  exact ⟨by decide +kernel, dark, machine driving errands dark (by decide), commanded⟩

end Isolation

end Crawler

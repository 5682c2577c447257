import Crawler.Proofs.Spindle
import Mathlib.Data.List.Chain

/-! The spindle and its output in the course of operations that may each find the line to the output
down. What the spindle remembers of its output is what the output has, whichever of them fail. A failure
leaves the spindle as it was but for the switch of the operator, which stays where it was put. -/
namespace Crawler.Spindle

open Crawler.Action
open Setting (SpindleSnapshot)

inductive Operation
  | switch (on : Bool) (settings : SpindleSnapshot)
  | setPercent (percent : Float) (settings : SpindleSnapshot)
  | beforeMove (settings : SpindleSnapshot)
  | afterMove (settings : SpindleSnapshot)
  | stop

def operate : Operation → Action Spindle MotionFault Unit
  | .switch on settings => Spindle.switch on settings
  | .setPercent percent settings => do let _ ← Spindle.setPercent percent settings
  | .beforeMove settings => Spindle.beforeMove settings
  | .afterMove settings => Spindle.afterMove settings
  | .stop => Spindle.stop

def Operation.switched? : Operation → Option Bool
  | .switch on _ => some on
  | .stop => some false
  | _ => none

def onLine (line : Option Nat) (s : Spindle) : Spindle :=
  { s with output := { s.output with callsLeft := line } }

/-- A course of operations, each with the state of the line while it lasts. An operation calls the output
once at most, so any of the calls may be one that the line does not let through. -/
def undergo (course : List (Option Nat × Operation)) (s : Spindle) : Spindle :=
  course.foldl (fun s (line, operation) => ((operate operation).run (s.onLine line)).2) s

variable {s t : Spindle} {settings : SpindleSnapshot} {fault : MotionFault} {operation : Operation}

section Accord

/-- The spindle and its output agree: the output has the level and the share of the speed that the
spindle remembers, and it was switched on and off in turns. -/
structure Accord (s : Spindle) : Prop where
  level : s.output.enabled = s.level
  alternating : List.IsChain (· ≠ ·) (false :: s.output.switching)
  last : s.output.switching.getLastD false = s.output.enabled
  duty : s.output.duty = s.percent / 100
  percent : 0 ≤ s.percent ∧ s.percent ≤ 100

private theorem fresh_accord (line : Option Nat) : Accord (fresh (.fresh line)) where
  level := rfl
  alternating := .singleton false
  last := rfl
  duty := by
    change (0 : Float) = 0 / 100
    decide +kernel
  percent := by
    change (0 : Float) ≤ 0 ∧ (0 : Float) ≤ 100
    decide +kernel

private theorem onLine_accord (line : Option Nat) (accord : Accord s) : Accord (s.onLine line) := by
  exact ⟨accord.level, accord.alternating, accord.last, accord.duty, accord.percent⟩

/-- An output that is switched to another level than its own is switched in turn. -/
theorem bring_accord (on : Bool) : Preserves Accord (bring on) := by
  intro s accord
  rcases bring_cases on s with ⟨_, kept⟩ | ⟨other, down | ⟨line, switched⟩⟩
  · rwa [kept]
  · rwa [down]
  · rw [switched]
    refine ⟨rfl, ?_, by simp, accord.duty, accord.percent⟩
    have ends : (false :: s.output.switching).getLast? = some s.level := by
      rw [List.getLast?_cons, ← accord.level, ← accord.last, List.getLastD_eq_getLast?]
    refine List.IsChain.append accord.alternating (.singleton on) ?_
    rw [ends]
    rintro _ ⟨⟩ _ ⟨⟩
    exact other

private theorem setPercent_cases (percent : Float) (settings : SpindleSnapshot) (s : Spindle) : ∃ line,
    (∃ fault, (setPercent percent settings).run s = (.error fault, s.onLine line)) ∨
      isPercent percent = true ∧ (setPercent percent settings).run s =
        (.ok (rpm percent settings),
          { s with percent, output := { s.output with duty := percent / 100, callsLeft := line } }) := by
  unfold setPercent
  by_cases inside : isPercent percent = true
  · rw [if_neg (by simpa using inside)]
    obtain ⟨line, ⟨cause, refused⟩ | adjusted⟩ := adjust_cases (percent / 100) s.output
    · have failed : (onOutput (Hardware.SpindleOutput.adjust (percent / 100))).run s =
          (.error _, s.onLine line) :=
        run_on_eq_error.mpr ⟨_, run_mapError_eq_error.mpr ⟨_, refused, rfl⟩, rfl⟩
      exact ⟨line, .inl ⟨_, run_bind_error failed⟩⟩
    · have called : (onOutput (Hardware.SpindleOutput.adjust (percent / 100))).run s = (.ok (), _) :=
        run_on_eq_ok.mpr ⟨_, run_mapError_eq_ok.mpr adjusted, rfl⟩
      exact ⟨line, .inr ⟨inside, run_bind_ok called⟩⟩
  · rw [if_pos (by simpa using inside)]
    exact ⟨s.output.callsLeft, .inl ⟨_, rfl⟩⟩

private theorem setPercent_accord (percent : Float) (settings : SpindleSnapshot) :
    Preserves Accord (setPercent percent settings) := by
  intro s accord
  obtain ⟨line, ⟨_, refused⟩ | ⟨inside, set⟩⟩ := setPercent_cases percent settings s
  · rw [refused]
    exact onLine_accord line accord
  · rw [set]
    exact ⟨accord.level, accord.alternating, accord.last, rfl, by simpa [isPercent] using inside⟩

private theorem accord_kept : Kept Accord := by
  refine kept_of_bring bring_accord ?_ setPercent_accord
  intro _ _ accord
  exact ⟨accord.level, accord.alternating, accord.last, accord.duty, accord.percent⟩

private theorem operate_kept {B : Spindle → Prop} (kept : Kept B) (operation : Operation) :
    Preserves B (operate operation) := by
  cases operation with
  | switch on settings => exact kept.switch on settings
  | setPercent percent settings =>
    exact preserves_map (kept.setPercent percent settings)
  | beforeMove settings => exact kept.beforeMove settings
  | afterMove settings => exact kept.afterMove settings
  | stop => exact kept.stop

private theorem undergo_accord (course : List (Option Nat × Operation)) (accord : Accord s) :
    Accord (undergo course s) := by
  induction course generalizing s with
  | nil => exact accord
  | cons step rest ih => exact ih (operate_kept accord_kept step.2 _ (onLine_accord step.1 accord))

/-- Whatever operations a spindle undergoes, and whichever of their calls fail, it agrees with its output
after each of them. -/
theorem fresh_undergo_accord (line : Option Nat) (course : List (Option Nat × Operation)) :
    Accord (undergo course (fresh (.fresh line))) := by
  exact undergo_accord course (fresh_accord line)

end Accord

section Failure

private theorem bring_refused {on : Bool} (failed : (bring on).run s = (.error fault, t)) :
    ∃ line, t = s.onLine line := by
  obtain ⟨_, left⟩ := bring_error failed
  exact ⟨s.output.callsLeft, left⟩

private theorem operate_error (failed : (operate operation).run s = (.error fault, t)) :
    ∃ line, t = { s.onLine line with enabled := operation.switched?.getD s.enabled } := by
  cases operation with
  | switch on settings =>
    rcases run_bind_eq_error.mp failed with noted | ⟨_, _, noted, failed⟩
    · cases noted
    · cases noted
      exact bring_refused failed
  | setPercent percent settings =>
    rcases run_bind_eq_error.mp failed with failed | ⟨_, _, _, ended⟩
    · obtain ⟨line, ⟨_, refused⟩ | ⟨_, set⟩⟩ := setPercent_cases percent settings s
      · cases refused.symm.trans failed
        exact ⟨line, rfl⟩
      · cases set.symm.trans failed
    · cases ended
  | beforeMove settings =>
    rcases run_bind_eq_error.mp failed with known | ⟨_, _, known, failed⟩
    · cases known
    · cases known
      split at failed
      · exact bring_refused failed
      · cases failed
  | afterMove settings =>
    change (Spindle.afterMove settings).run s = _ at failed
    unfold Spindle.afterMove at failed
    split at failed
    · exact bring_refused failed
    · cases failed
  | stop =>
    rcases run_bind_eq_error.mp failed with noted | ⟨_, _, noted, failed⟩
    · cases noted
    · cases noted
      exact bring_refused failed

private theorem beforeMove_level (reliable : Reliable s) (laser : settings.laserMode = true) :
    ∃ lit, (beforeMove settings).run s = (.ok (), lit) ∧ lit.level = (s.enabled || s.level) := by
  obtain ⟨lit, ran, _⟩ := beforeMove_reliable reliable settings
  have told := beforeMove_ok ran
  refine ⟨lit, ran, ?_⟩
  rw [laser, Bool.true_and] at told
  split at told
  · next on => rw [told.level, on, Bool.true_or]
  · next off => rw [told, Bool.not_eq_true _ |>.mp off, Bool.false_or]

/-- An operation that fails leaves what the spindle remembers of its speed and its output, and the output,
as they were. It leaves the switch of the operator where it put it, and the next motion with a laser goes
by that, once the line is up again. -/
theorem failed_operate (failed : (operate operation).run s = (.error fault, t)) :
    (t.percent = s.percent ∧ t.level = s.level ∧ t.output.enabled = s.output.enabled ∧
      t.output.duty = s.output.duty ∧ t.output.switching = s.output.switching) ∧
    t.enabled = operation.switched?.getD s.enabled ∧
    ∀ settings : SpindleSnapshot, settings.laserMode = true →
      ∃ lit, (beforeMove settings).run (t.onLine none) = (.ok (), lit) ∧
        lit.level = (operation.switched?.getD s.enabled || s.level) := by
  obtain ⟨line, rfl⟩ := operate_error failed
  exact ⟨⟨rfl, rfl, rfl, rfl, rfl⟩, rfl, fun settings laser => beforeMove_level rfl laser⟩

def unplugged : Spindle := fresh (.fresh (some 0))

/-- A percentage that the line does not let through is forgotten, and a motion finds the laser dark. -/
theorem unplugged_dark : ∃ t lit,
    (operate (.setPercent 50 ⟨1000, 0, true⟩)).run unplugged = (.error (.spindle .outputOffline), t) ∧
      t.percent = 0 ∧ t.enabled = false ∧
      (beforeMove ⟨1000, 0, true⟩).run (t.onLine none) = (.ok (), lit) ∧ lit.level = false := by
  have failed : (operate (.setPercent 50 ⟨1000, 0, true⟩)).run unplugged =
      (.error (.spindle .outputOffline), unplugged) := by decide +kernel
  obtain ⟨⟨percent, _⟩, enabled, later⟩ := failed_operate failed
  obtain ⟨lit, ran, level⟩ := later ⟨1000, 0, true⟩ rfl
  exact ⟨_, lit, failed, percent, enabled, ran, level⟩

/-- A spindle that is switched on while the line is down fails to, and yet it is switched on: the first
motion with a laser once the line is up powers the output. -/
theorem unplugged_powers : ∃ t lit,
    (operate (.switch true ⟨1000, 0, false⟩)).run unplugged = (.error (.spindle .outputOffline), t) ∧
      unplugged.enabled = false ∧ t.enabled = true ∧
      (beforeMove ⟨1000, 0, true⟩).run (t.onLine none) = (.ok (), lit) ∧ lit.output.enabled = true := by
  exact ⟨_, _, rfl, rfl, rfl, rfl, rfl⟩

end Failure

end Crawler.Spindle

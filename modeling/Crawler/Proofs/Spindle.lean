import Crawler.Proofs.Action
import Crawler.Spindle

/-! The spindle and its output. Bringing the output to a level switches it at most once, and as long as
the line is up the output has the level that was last driven. -/
namespace Crawler.Spindle

open Crawler.Action

def Reliable (spindle : Spindle) : Prop := spindle.output.callsLeft = none

variable {s : Spindle}

theorem bring_reliable (reliable : Reliable s) (on : Bool) :
    ∃ t, (bring on).run s = (.ok (), t) ∧ Reliable t := by
  have called : s.output.call? = some s.output := by
    unfold Hardware.SpindleOutput.call?
    rw [reliable]
  unfold bring
  rw [run_bind_ok (run_read s)]
  split
  · have switched : (Hardware.SpindleOutput.switch on s.output) =
        (.ok (), { s.output with enabled := on, switching := s.output.switching ++ [on] }) := by
      unfold Hardware.SpindleOutput.switch
      rw [called]
    have driven : (onOutput (Hardware.SpindleOutput.switch on)).run s = (.ok (), _) :=
      run_on_eq_ok.mpr ⟨_, run_mapError_eq_ok.mpr switched, rfl⟩
    rw [run_bind_ok driven]
    exact ⟨_, rfl, reliable⟩
  · exact ⟨s, rfl, reliable⟩

theorem beforeMove_reliable (reliable : Reliable s) (settings : Setting.SpindleSnapshot) :
    ∃ t, (beforeMove settings).run s = (.ok (), t) ∧ Reliable t := by
  unfold beforeMove
  rw [run_bind_ok (run_read s)]
  split
  · exact bring_reliable reliable true
  · exact ⟨s, rfl, reliable⟩

theorem afterMove_reliable (reliable : Reliable s) (settings : Setting.SpindleSnapshot) :
    ∃ t, (afterMove settings).run s = (.ok (), t) ∧ Reliable t := by
  unfold afterMove
  split
  · exact bring_reliable reliable false
  · exact ⟨s, rfl, reliable⟩

private theorem bring_kept (on : Bool) : Preserves Reliable (bring on) := by
  intro s reliable
  obtain ⟨_, ran, kept⟩ := bring_reliable reliable on
  rw [ran]
  exact kept

structure Tended (B : Spindle → Prop) : Prop where
  beforeMove : ∀ settings, Preserves B (beforeMove settings)
  afterMove : ∀ settings, Preserves B (afterMove settings)
  setPercent : ∀ percent settings, Preserves B (setPercent percent settings)
  stop : Preserves B stop

structure Kept (B : Spindle → Prop) : Prop extends Tended B where
  switch : ∀ on settings, Preserves B (switch on settings)

theorem preserves_setPercent {B : Spindle → Prop} {percent : Float} {settings : Setting.SpindleSnapshot}
    (adjusted : ∀ s duty, B s → B { s with output := (Hardware.SpindleOutput.adjust duty s.output).2 })
    (set : ∀ s, B s → B { s with percent }) : Preserves B (setPercent percent settings) := by
  refine preserves_ite (preserves_fail _) ?_
  refine preserves_bind (fun s => adjusted s (percent / 100)) fun _ => ?_
  exact preserves_map (preserves_modify set)

theorem kept_of_bring {B : Spindle → Prop} (brought : ∀ on, Preserves B (bring on))
    (switched : ∀ s on, B s → B { s with enabled := on })
    (shared : ∀ percent settings, Preserves B (setPercent percent settings)) : Kept B where
  beforeMove _ := by
    refine preserves_bind preserves_read fun _ => ?_
    exact preserves_ite (brought true) (preserves_pure ())
  afterMove _ := preserves_ite (brought false) (preserves_pure ())
  switch on _ := by
    refine preserves_bind (preserves_modify fun s => switched s on) fun _ => ?_
    exact brought _
  setPercent := shared
  stop := by
    refine preserves_bind (preserves_modify fun s => switched s false) fun _ => ?_
    exact brought false

/-- A call that arrives changes nothing but the line it came by. -/
theorem call_line {o o' : Hardware.SpindleOutput} (called : o.call? = some o') :
    ∃ line, o' = { o with callsLeft := line } := by
  unfold Hardware.SpindleOutput.call? at called
  split at called <;> cases called <;> exact ⟨_, rfl⟩

private theorem switch_cases (on : Bool) (o : Hardware.SpindleOutput) :
    Hardware.SpindleOutput.switch on o = (.error .outputOffline, o) ∨
      ∃ line, Hardware.SpindleOutput.switch on o = (.ok (), ⟨on, o.duty, o.switching ++ [on], line⟩) := by
  unfold Hardware.SpindleOutput.switch
  split
  · exact .inl rfl
  · next called =>
    obtain ⟨line, rfl⟩ := call_line called
    exact .inr ⟨line, rfl⟩

theorem adjust_cases (duty : Float) (o : Hardware.SpindleOutput) : ∃ line,
    (∃ fault, Hardware.SpindleOutput.adjust duty o = (.error fault, { o with callsLeft := line })) ∨
      Hardware.SpindleOutput.adjust duty o = (.ok (), { o with duty, callsLeft := line }) := by
  unfold Hardware.SpindleOutput.adjust
  split
  · exact ⟨o.callsLeft, .inl ⟨_, rfl⟩⟩
  · next called =>
    obtain ⟨line, rfl⟩ := call_line called
    refine ⟨line, ?_⟩
    split
    · exact .inr rfl
    · exact .inl ⟨_, rfl⟩

theorem adjust_enabled (duty : Float) (o : Hardware.SpindleOutput) :
    (Hardware.SpindleOutput.adjust duty o).2.enabled = o.enabled := by
  obtain ⟨_, ⟨_, refused⟩ | adjusted⟩ := adjust_cases duty o
  · rw [refused]
  · rw [adjusted]

theorem adjust_switching (duty : Float) (o : Hardware.SpindleOutput) :
    (Hardware.SpindleOutput.adjust duty o).2.switching = o.switching := by
  obtain ⟨_, ⟨_, refused⟩ | adjusted⟩ := adjust_cases duty o
  · rw [refused]
  · rw [adjusted]

private theorem adjust_callsLeft (duty : Float) {o : Hardware.SpindleOutput} (up : o.callsLeft = none) :
    (Hardware.SpindleOutput.adjust duty o).2.callsLeft = none := by
  have called : o.call? = some o := by
    unfold Hardware.SpindleOutput.call?
    rw [up]
  unfold Hardware.SpindleOutput.adjust
  rw [called]
  dsimp only
  split <;> exact up

theorem reliable_kept : Kept Reliable := by
  refine kept_of_bring bring_kept (fun _ _ reliable => reliable) fun _ _ => ?_
  refine preserves_setPercent (fun _ duty reliable => ?_) fun _ reliable => reliable
  exact adjust_callsLeft duty reliable

theorem fresh_reliable : Reliable (fresh (.fresh none)) := rfl

theorem true_kept : Kept fun _ => True := by
  refine kept_of_bring ?_ ?_ ?_
  · exact fun _ _ _ => trivial
  · exact fun _ _ _ => trivial
  · exact fun _ _ _ _ => trivial

structure Brought (on : Bool) (s t : Spindle) : Prop where
  enabled : t.enabled = s.enabled
  percent : t.percent = s.percent
  level : t.level = on
  kept : s.level = on → t = s
  switched : s.level ≠ on →
    t.output.enabled = on ∧ t.output.switching = s.output.switching ++ [on]

variable {t : Spindle} {on : Bool} {settings : Setting.SpindleSnapshot}

/-- Bringing the output to a level: it has the level, or its line is down, or it is switched. -/
theorem bring_cases (on : Bool) (s : Spindle) :
    s.level = on ∧ (bring on).run s = (.ok (), s) ∨
      s.level ≠ on ∧ ((bring on).run s = (.error (.spindle .outputOffline), s) ∨
        ∃ line, (bring on).run s =
          (.ok (), { s with level := on, output := ⟨on, s.output.duty, s.output.switching ++ [on], line⟩ })) := by
  unfold bring
  rw [run_bind_ok (run_read s)]
  split
  · next other =>
    refine .inr ⟨other, ?_⟩
    rcases switch_cases on s.output with down | ⟨line, switched⟩
    · have refused : (onOutput (Hardware.SpindleOutput.switch on)).run s = (.error _, s) :=
        run_on_eq_error.mpr ⟨_, run_mapError_eq_error.mpr ⟨_, down, rfl⟩, rfl⟩
      exact .inl (run_bind_error refused)
    · have driven : (onOutput (Hardware.SpindleOutput.switch on)).run s = (.ok (), _) :=
        run_on_eq_ok.mpr ⟨_, run_mapError_eq_ok.mpr switched, rfl⟩
      exact .inr ⟨line, run_bind_ok driven⟩
  · next same => exact .inl ⟨Decidable.of_not_not same, rfl⟩

theorem bring_ok (ran : (bring on).run s = (.ok (), t)) : Brought on s t := by
  rcases bring_cases on s with ⟨same, kept⟩ | ⟨other, down | ⟨line, switched⟩⟩
  · cases kept.symm.trans ran
    exact ⟨rfl, rfl, same, fun _ => rfl, fun other => absurd same other⟩
  · cases down.symm.trans ran
  · cases switched.symm.trans ran
    exact ⟨rfl, rfl, rfl, fun same => absurd same other, fun _ => ⟨rfl, rfl⟩⟩

theorem bring_error {fault : MotionFault} (ran : (bring on).run s = (.error fault, t)) :
    fault = .spindle .outputOffline ∧ t = s := by
  rcases bring_cases on s with ⟨_, kept⟩ | ⟨_, down | ⟨line, switched⟩⟩
  · cases kept.symm.trans ran
  · cases down.symm.trans ran
    exact ⟨rfl, rfl⟩
  · cases switched.symm.trans ran

/-- Bringing the output to a level switches it there at most. -/
theorem Brought.switchings (brought : Brought on s t) :
    ∃ made, t.output.switching = s.output.switching ++ made ∧ ∀ level ∈ made, level = on := by
  by_cases there : s.level = on
  · rw [brought.kept there]
    exact ⟨[], (List.append_nil _).symm, nofun⟩
  · exact ⟨[on], (brought.switched there).2, fun _ => List.mem_singleton.mp⟩

theorem beforeMove_ok (ran : (beforeMove settings).run s = (.ok (), t)) :
    if settings.laserMode && s.enabled then Brought true s t else t = s := by
  unfold beforeMove at ran
  rw [run_bind_ok (run_read s)] at ran
  split at ran
  · next lit =>
    rw [if_pos lit]
    exact bring_ok ran
  · next unlit =>
    rw [if_neg unlit]
    cases ran
    rfl

theorem afterMove_ok (ran : (afterMove settings).run s = (.ok (), t)) :
    if settings.laserMode then Brought false s t else t = s := by
  unfold afterMove at ran
  split at ran
  · next laser =>
    rw [if_pos laser]
    exact bring_ok ran
  · next spindle =>
    rw [if_neg spindle]
    cases ran
    rfl

theorem setPercent_level (percent : Float) (settings : Setting.SpindleSnapshot) :
    Preserves (fun t => t.enabled = s.enabled ∧ t.level = s.level) (setPercent percent settings) := by
  refine preserves_setPercent (fun _ _ same => ?_) fun _ same => ?_
  · exact same
  · exact same

structure InStep (s : Spindle) : Prop where
  reliable : s.Reliable
  level : s.output.enabled = s.level

theorem brought_inStep (brought : Brought on s t) (same : s.output.enabled = s.level) :
    t.output.enabled = t.level := by
  by_cases there : s.level = on
  · rwa [brought.kept there]
  · rw [(brought.switched there).1, brought.level]

private theorem bring_inStep (on : Bool) : Preserves InStep (bring on) := by
  intro s inStep
  obtain ⟨t, ran, reliable⟩ := bring_reliable inStep.reliable on
  rw [ran]
  exact ⟨reliable, brought_inStep (bring_ok ran) inStep.level⟩

theorem settings_laser {store : Setting.Store} (asked : Spindle.settings store = .ok settings) :
    store.flag .laserMode = .ok settings.laserMode := by
  obtain ⟨_, _, asked⟩ := except_bind_eq_ok.mp asked
  obtain ⟨_, _, asked⟩ := except_bind_eq_ok.mp asked
  obtain ⟨laser, flag, answered⟩ := except_bind_eq_ok.mp asked
  cases answered
  exact flag

theorem inStep_kept : Kept InStep := by
  refine kept_of_bring bring_inStep (fun _ _ inStep => ⟨inStep.reliable, inStep.level⟩) fun _ _ =>
    preserves_setPercent (fun s duty inStep => ?_) fun _ inStep => ⟨inStep.reliable, inStep.level⟩
  exact ⟨adjust_callsLeft duty inStep.reliable, (adjust_enabled duty s.output).trans inStep.level⟩

end Crawler.Spindle

import Crawler.Proofs.StartTimes

/-! What a coordinated move starts, whatever state its axes are in and however it ends. The starts are
those that are due, in their order, up to the axis that refuses; nothing else is started. -/
namespace Crawler.Drives

open Crawler.Action
open Hardware (Platform Event Occurrence)
open Hardware.Platform (OnlyAt Quiet)

def Gains (a : Axis) (p q : Platform) (starts : List Occurrence) : Prop :=
  ∃ added, (q.log a).toList = (p.log a).toList ++ added ∧
    (added.filter (·.what.startedMove?.isSome)).map (·.what) = starts

variable {a b : Axis} {p q r : Platform} {starts later : List Occurrence}

theorem gains_of_log_eq (same : q.log a = p.log a) : Gains a p q [] := by
  refine ⟨[], ?_, rfl⟩
  rw [same, List.append_nil]

private theorem gains_trans (first : Gains a p q starts) (second : Gains a q r later) :
    Gains a p r (starts ++ later) := by
  obtain ⟨new₁, log₁, same₁⟩ := first
  obtain ⟨new₂, log₂, same₂⟩ := second
  refine ⟨new₁ ++ new₂, by rw [log₂, log₁, List.append_assoc], ?_⟩
  rw [List.filter_append, List.map_append, same₁, same₂]

private theorem gains_of_quiet (quiet : Quiet a p q) : Gains a p q [] := by
  obtain ⟨added, log, quiet⟩ := quiet
  exact ⟨added, log, by rw [filter_uneventful quiet, List.map_nil]⟩

/-- An axis that is not touched starts nothing, and neither does one that only makes quiet events. -/
theorem gains_of_onlyAt (elsewhere : OnlyAt b p q) (quiet : Quiet b p q) (a : Axis) :
    Gains a p q [] := by
  by_cases same : a = b
  · exact same ▸ gains_of_quiet quiet
  · exact gains_of_log_eq (elsewhere a same).2

theorem starts_of_gains (gains : Gains a p q starts) : (startsSince p q a).map (·.what) = starts := by
  obtain ⟨added, log, same⟩ := gains
  unfold startsSince
  rw [log, ← Array.length_toList, List.drop_left, same]

variable {move : JointMove} {lead : Axis} {d d' : Drives}

def startOf (move : JointMove) (a : Axis) : Occurrence :=
  .moveStarted (move.steps.get a) (Number.ofInt (move.hz.get a))

def due (move : JointMove) (a : Axis) (axes : List Axis) : List Occurrence :=
  (axes.filter fun b => b = a ∧ move.steps.get b ≠ 0).map (startOf move)

private theorem due_of_still (still : move.steps.get b = 0) (axes : List Axis) :
    due move a (b :: axes) = due move a axes := by
  unfold due
  rw [List.filter_cons_of_neg (by simp [still])]

private theorem due_of_moved (some_steps : move.steps.get b ≠ 0) (axes : List Axis) :
    due move a (b :: axes) = (if b = a then [startOf move b] else []) ++ due move a axes := by
  unfold due
  by_cases same : b = a
  · rw [List.filter_cons_of_pos (by simp [same, same ▸ some_steps]), if_pos same]
    rfl
  · rw [List.filter_cons_of_neg (by simp [same]), if_neg same]
    rfl

theorem launch_ok (some_steps : move.steps.get b ≠ 0) {waiting : Waiting}
    (ran : (launch move b waiting).run d = (.ok (), d')) :
    Launched b (move.steps.get b) (Number.ofInt (move.hz.get b)) waiting d.platform d'.platform := by
  rcases awaitRest_cases d b with ⟨bounded, _⟩ | ⟨fault, refused⟩
  · rcases launch_cases bounded some_steps waiting with ⟨_, same, launched⟩ | ⟨_, _, refused, _⟩
    · rw [ran] at same
      cases same
      exact launched
    · rw [ran] at refused
      cases refused
  · unfold launch at ran
    rw [run_bind_error refused] at ran
    cases ran

theorem launch_error (some_steps : move.steps.get b ≠ 0) {waiting : Waiting} {fault : Hardware.Fault}
    (ran : (launch move b waiting).run d = (.error fault, d')) :
    OnlyAt b d.platform d'.platform ∧ Quiet b d.platform d'.platform := by
  rcases awaitRest_cases d b with ⟨bounded, _⟩ | ⟨fault, refused⟩
  · rcases launch_cases bounded some_steps waiting with ⟨_, launched, _⟩ | ⟨_, _, same, settled⟩
    · rw [ran] at launched
      cases launched
    · rw [ran] at same
      cases same
      exact ⟨settled.elsewhere, settled.quiet⟩
  · unfold launch at ran
    rw [run_bind_error refused] at ran
    cases ran
    exact ⟨Platform.onlyAt_refl _ _, [], (List.append_nil _).symm, nofun⟩

private theorem gains_of_launched {steps : Int} {hz : Float} {waiting : Waiting}
    (launched : Launched b steps hz waiting p q) (a : Axis) :
    Gains a p q (if b = a then [.moveStarted steps hz] else []) := by
  by_cases same : b = a
  · subst same
    obtain ⟨before, seq, after, log, quiet⟩ := launched.log
    have earlier := filter_uneventful fun event inside => quiet event (List.mem_append_left _ inside)
    have later := filter_uneventful fun event inside => quiet event (List.mem_append_right _ inside)
    rw [if_pos rfl]
    refine ⟨_, by rw [log, List.append_assoc], ?_⟩
    rw [List.filter_append, List.filter_cons_of_pos rfl, earlier, later]
    rfl
  · rw [if_neg same]
    exact gains_of_log_eq (launched.elsewhere a (Ne.symm same)).2

private theorem stopAll_gains (axes : List Axis) (d : Drives) (a : Axis) :
    Gains a d.platform ((stopAll axes).run d).2.platform [] := by
  induction axes generalizing d with
  | nil => exact gains_of_log_eq rfl
  | cons b rest ih =>
    have stopped : (stop b).run d = _ := run_engage rfl
    unfold stopAll
    rw [run_bind_ok stopped]
    have silent : Quiet b d.platform (d.platform.commit b
        (Hardware.Engine.stop d.platform.now (d.platform.engine b))) := by
      apply Platform.commit_quiet
      rintro what ⟨⟩
      exact ⟨rfl, rfl⟩
    exact gains_trans (gains_of_onlyAt (Platform.commit_onlyAt _) silent a) (ih _)

private theorem launchAll_gains {axes started : List Axis} {result : Except MotionFault Unit}
    (ran : (launchAll move lead axes started).run d = (result, d')) (a : Axis) :
    ∃ starts, Gains a d.platform d'.platform starts ∧ starts <+: due move a axes ∧
      (result = .ok () → starts = due move a axes) := by
  induction axes generalizing d started with
  | nil =>
    cases ran
    exact ⟨[], gains_of_log_eq rfl, List.nil_prefix, fun _ => rfl⟩
  | cons b rest ih =>
    by_cases still : move.steps.get b = 0
    · rw [launchAll_skip still] at ran
      rw [due_of_still still]
      exact ih ran
    · cases launched : (launch move b (waitingOf lead b)).run d with
      | mk answer next =>
        cases answer with
        | ok u =>
          rw [run_launchAll_of_ok still launched] at ran
          obtain ⟨starts, gained, among, all⟩ := ih ran
          have first := gains_of_launched (launch_ok still launched) a
          rw [due_of_moved still]
          exact ⟨_, gains_trans first gained, (List.prefix_append_right_inj _).mpr among,
            fun answered => congrArg _ (all answered)⟩
        | error cause =>
          rw [run_launchAll_of_error still launched] at ran
          obtain ⟨elsewhere, quiet⟩ := launch_error still launched
          cases ran
          refine ⟨[], ?_, List.nil_prefix, nofun⟩
          exact gains_trans (gains_of_onlyAt elsewhere quiet a) (stopAll_gains started next a)

private theorem due_launchOrder (move : JointMove) (a lead : Axis) :
    due move a (launchOrder lead) = if move.steps.get a = 0 then [] else [startOf move a] := by
  have once : (launchOrder lead).filter (· = a) = [a] := by cases lead <;> cases a <;> rfl
  have same : (launchOrder lead).filter (fun b => b = a ∧ move.steps.get b ≠ 0) =
      [a].filter (move.steps.get · ≠ 0) := by
    rw [← once, List.filter_filter]
    simp [Bool.and_comm]
  unfold due
  rw [same]
  by_cases still : move.steps.get a = 0 <;> simp [still]

/-- A coordinated move starts the axes that have steps, once each; if it fails, some of them at most. -/
theorem carryOut_gains {result : Except MotionFault Axis}
    (ran : (carryOut move).run d = (result, d')) (a : Axis) :
    ∃ starts, Gains a d.platform d'.platform starts ∧
      starts <+: (if move.steps.get a = 0 then [] else [startOf move a]) ∧
      ∀ lead, result = .ok lead → starts = if move.steps.get a = 0 then [] else [startOf move a] := by
  unfold carryOut at ran
  cases launched : (launchAll move (leadAxis move.steps) (launchOrder (leadAxis move.steps)) []).run d
    with
  | mk answer next =>
    obtain ⟨starts, gained, among, all⟩ := launchAll_gains launched a
    rw [due_launchOrder] at among all
    cases answer with
    | ok u =>
      rw [run_bind_ok launched] at ran
      cases ran
      exact ⟨starts, gained, among, fun _ _ => all rfl⟩
    | error fault =>
      rw [run_bind_error launched] at ran
      cases ran
      exact ⟨starts, gained, among, nofun⟩

end Crawler.Drives

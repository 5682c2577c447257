import Crawler.Motion.Dispatch
import Crawler.Proofs.Drives

/-! Launching moves. An axis is started once, when the move that it was in is over, or refuses and
stays at rest; the other axes are left alone either way. -/
namespace Crawler.Drives

open Crawler.Action
open Hardware (Platform Engine Event Occurrence)
open Hardware.Platform (Settled OnlyAt Quiet)

structure Launched (a : Axis) (steps : Int) (hz : Float) (waiting : Waiting) (p q : Platform) :
    Prop where
  elsewhere : OnlyAt a p q
  log : ∃ before seq after, (q.log a).toList = (p.log a).toList ++ before ++
      ⟨seq, max p.now (p.engine a).restTime, .moveStarted steps hz⟩ :: after ∧
    ∀ event ∈ before ++ after, event.what.Uneventful
  bounded : (q.engine a).Bounded
  restPosition : (q.engine a).restPosition = (p.engine a).restPosition + steps
  now : waiting = .unattended → q.now = max p.now (p.engine a).restTime
  idle : waiting = .attended → (q.engine a).motion = .idle

variable {d d' : Drives} {a : Axis} {p q : Platform}

theorem moved_launched (settled : Settled a p q) (steps : Int) (waiting : Waiting) :
    Launched a steps (q.engine a).speed waiting p (attend waiting a (moved a steps q)) := by
  have engine : (moved a steps q).engine a = (q.engine a).started steps q.now :=
    Platform.commit_engine _ _ _
  have bounded : ((moved a steps q).engine a).Bounded := engine ▸ Engine.started_bounded _ _ _
  have elsewhere : OnlyAt a p (moved a steps q) :=
    Platform.onlyAt_trans settled.elsewhere (Platform.commit_onlyAt _)
  have rest : ((moved a steps q).engine a).restPosition = (p.engine a).restPosition + steps := by
    rw [engine, Engine.restPosition, Engine.started_destination, Engine.started_offset,
      settled.physical, settled.offset, Engine.restPosition]
    omega
  have now : (moved a steps q).now = max p.now (p.engine a).restTime :=
    (Platform.commit_now _ _ _).trans settled.now
  obtain ⟨before, grown, quiet⟩ := settled.quiet
  have log : ((moved a steps q).log a).toList = (p.log a).toList ++ before ++
      [⟨q.eventCount, max p.now (p.engine a).restTime, .moveStarted steps (q.engine a).speed⟩] := by
    rw [← settled.now, ← grown]
    exact Platform.commit_log _ _ _
  cases waiting with
  | unattended =>
    refine ⟨elsewhere, ⟨before, q.eventCount, [], log, ?_⟩, bounded, rest, fun _ => now, nofun⟩
    rwa [List.append_nil]
  | attended =>
    have attended := Platform.awaited_settled bounded
    obtain ⟨after, more, still⟩ := attended.quiet
    refine ⟨Platform.onlyAt_trans elsewhere attended.elsewhere, ⟨before, q.eventCount, after, ?_, ?_⟩,
      Engine.bounded_of_idle attended.idle, (Platform.settled_restPosition attended).trans rest, nofun,
      fun _ => attended.idle⟩
    · rw [log, List.append_assoc, List.singleton_append] at more
      exact more
    · intro event member
      rcases List.mem_append.mp member with earlier | later
      · exact quiet event earlier
      · exact still event later

theorem launch_cases {move : JointMove} (bounded : (d.platform.engine a).Bounded)
    (some_steps : move.steps.get a ≠ 0) (waiting : Waiting) :
    (∃ d', (launch move a waiting).run d = (.ok (), d') ∧
        Launched a (move.steps.get a) (Number.ofInt (move.hz.get a)) waiting d.platform d'.platform) ∨
      ∃ fault d', (launch move a waiting).run d = (.error fault, d') ∧
        Settled a d.platform d'.platform := by
  have waited := run_awaitRest bounded
  have rested := Platform.awaited_settled bounded
  unfold launch
  rw [run_bind_ok waited]
  obtain ⟨powered, enabled, settled, _⟩ :=
    enable_settled (d := { d with platform := d.platform.awaited a }) rested
  rw [run_bind_ok enabled]
  cases quickened : (setAcceleration a (move.acceleration.get a)).run
      { d with platform := powered } with
  | mk result next =>
    have settled := setAcceleration_settled settled quickened
    cases result with
    | error fault => exact .inr ⟨fault, next, run_bind_error quickened, settled⟩
    | ok u =>
      rw [run_bind_ok quickened]
      cases set : (setSpeed a (Number.ofInt (move.hz.get a))).run next with
      | mk result ready =>
        obtain ⟨settled, speed⟩ := setSpeed_settled settled set
        cases result with
        | error fault => exact .inr ⟨fault, ready, run_bind_error set, settled⟩
        | ok u =>
          rw [run_bind_ok set]
          rcases startMove_cases settled.idle some_steps waiting with
            ⟨_, started⟩ | ⟨q, fault, refused, same⟩
          · refine .inl ⟨_, started, ?_⟩
            rw [← speed rfl]
            exact moved_launched settled _ _
          · exact .inr ⟨fault, _, refused, Platform.settled_trans settled same⟩

def waitingOf (lead a : Axis) : Waiting := if a = lead then .attended else .unattended

inductive LaunchedAll (move : JointMove) (lead : Axis) : List Axis → Platform → Platform → Prop
  | nil (p : Platform) : LaunchedAll move lead [] p p
  | cons {a : Axis} {axes : List Axis} {p q r : Platform}
      (first : Launched a (move.steps.get a) (Number.ofInt (move.hz.get a)) (waitingOf lead a) p q)
      (rest : LaunchedAll move lead axes q r) : LaunchedAll move lead (a :: axes) p r

variable {move : JointMove} {lead : Axis}

theorem launched_bounded {steps : Int} {hz : Float} {waiting : Waiting}
    (launched : Launched a steps hz waiting p q) (bounded : Platform.Bounded p) : Platform.Bounded q := by
  intro b
  by_cases same : b = a
  · exact same ▸ launched.bounded
  · exact (launched.elsewhere b same).1 ▸ bounded b

section LaunchAll

variable {rest started : List Axis}

theorem launchAll_skip (still : move.steps.get a = 0) :
    launchAll move lead (a :: rest) started = launchAll move lead rest started := by
  rw [launchAll, if_pos still]

theorem run_launchAll_of_ok (some_steps : move.steps.get a ≠ 0)
    (launched : (launch move a (waitingOf lead a)).run d = (.ok (), d')) :
    (launchAll move lead (a :: rest) started).run d =
      (launchAll move lead rest (started ++ [a])).run d' := by
  rw [launchAll, if_neg some_steps]
  exact run_bind_ok (run_attempt_eq launched)

theorem run_launchAll_of_error (some_steps : move.steps.get a ≠ 0) {fault : Hardware.Fault}
    (refused : (launch move a (waitingOf lead a)).run d = (.error fault, d')) :
    (launchAll move lead (a :: rest) started).run d =
      (.error (.actuation a fault), ((stopAll started).run d').2) := by
  rw [launchAll, if_neg some_steps]
  exact run_bind_ok (run_attempt_eq refused)

private theorem launchAll_ok {axes : List Axis} (bounded : Platform.Bounded d.platform)
    (ran : (launchAll move lead axes started).run d = (.ok (), d')) :
    LaunchedAll move lead (axes.filter (move.steps.get · ≠ 0)) d.platform d'.platform := by
  induction axes generalizing d started with
  | nil =>
    cases ran
    exact .nil _
  | cons a rest ih =>
    by_cases still : move.steps.get a = 0
    · rw [launchAll_skip still] at ran
      rw [List.filter_cons_of_neg (by simpa using still)]
      exact ih bounded ran
    · rw [List.filter_cons_of_pos (by simpa using still)]
      rcases launch_cases (bounded a) still (waitingOf lead a) with
        ⟨next, launched, state⟩ | ⟨fault, stopped, refused, _⟩
      · rw [run_launchAll_of_ok still launched] at ran
        exact .cons state (ih (launched_bounded state bounded) ran)
      · rw [run_launchAll_of_error still refused] at ran
        cases ran

private theorem launchAll_error {axes : List Axis} {fault : MotionFault}
    (ran : (launchAll move lead axes started).run d = (.error fault, d')) :
    ∃ a cause, fault = .actuation a cause := by
  induction axes generalizing d started with
  | nil => cases ran
  | cons a rest ih =>
    by_cases still : move.steps.get a = 0
    · rw [launchAll_skip still] at ran
      exact ih ran
    · cases launched : (launch move a (waitingOf lead a)).run d with
      | mk result next =>
        cases result with
        | ok u =>
          rw [run_launchAll_of_ok still launched] at ran
          exact ih ran
        | error cause =>
          rw [run_launchAll_of_error still launched] at ran
          cases ran
          exact ⟨a, cause, rfl⟩

/-- Only axes that were started are stopped, so what is said of the axes with steps is enough. -/
theorem preserves_launchAll {P : Drives → Prop}
    (launched : ∀ a, move.steps.get a ≠ 0 → Preserves P (launch move a (waitingOf lead a)))
    (stopped : ∀ a, move.steps.get a ≠ 0 → Preserves P (stop a)) (axes : List Axis)
    (inside : ∀ a ∈ started, move.steps.get a ≠ 0) : Preserves P (launchAll move lead axes started) := by
  have stops : ∀ axes : List Axis, (∀ a ∈ axes, move.steps.get a ≠ 0) → Preserves P (stopAll axes) := by
    intro axes moved
    induction axes with
    | nil => exact preserves_pure ()
    | cons a rest ih =>
      exact preserves_bind (stopped a (moved a List.mem_cons_self)) fun _ =>
        ih fun b later => moved b (List.mem_cons_of_mem a later)
  induction axes generalizing started with
  | nil => exact preserves_pure ()
  | cons a rest ih =>
    by_cases still : move.steps.get a = 0
    · rw [launchAll_skip still]
      exact ih inside
    · intro d held
      have kept := launched a still d held
      cases ran : (launch move a (waitingOf lead a)).run d with
      | mk result d' =>
        rw [ran] at kept
        cases result with
        | ok u =>
          rw [run_launchAll_of_ok still ran]
          refine ih (fun b member => ?_) d' kept
          rcases List.mem_append.mp member with earlier | last
          · exact inside b earlier
          · exact List.mem_singleton.mp last ▸ still
        | error fault =>
          rw [run_launchAll_of_error still ran]
          exact stops started inside d' kept

end LaunchAll

section Every

variable {P : Drives → Prop}

theorem preserves_awaitAll (waited : ∀ a, Preserves P (awaitRest a)) : Preserves P awaitAll := by
  refine preserves_bind (preserves_mapError (waited .left)) fun _ => ?_
  refine preserves_bind (preserves_mapError (waited .right)) fun _ => ?_
  exact preserves_mapError (waited .z)

theorem preserves_emergencyStop (stopped : ∀ a, Preserves P (stop a))
    (disabled : ∀ a, Preserves P (disable a)) : Preserves P emergencyStop := by
  refine preserves_bind (stopped .left) fun _ => ?_
  refine preserves_bind (disabled .left) fun _ => ?_
  refine preserves_bind (stopped .right) fun _ => ?_
  refine preserves_bind (disabled .right) fun _ => ?_
  refine preserves_bind (stopped .z) fun _ => ?_
  exact disabled .z

end Every

section CarryOut

def issued (move : JointMove) : List Axis :=
  (launchOrder (leadAxis move.steps)).filter (move.steps.get · ≠ 0)

theorem launchedAll_elsewhere {axes : List Axis} (launched : LaunchedAll move lead axes p q)
    (outside : a ∉ axes) : q.engine a = p.engine a ∧ q.log a = p.log a := by
  induction launched with
  | nil => exact ⟨rfl, rfl⟩
  | cons first _ ih =>
    obtain ⟨other, outside⟩ := not_or.mp (mt List.mem_cons.mpr outside)
    obtain ⟨engine₁, log₁⟩ := first.elsewhere a other
    obtain ⟨engine₂, log₂⟩ := ih outside
    exact ⟨engine₂.trans engine₁, log₂.trans log₁⟩

theorem launchedAll_restPosition {axes : List Axis} (launched : LaunchedAll move lead axes p q)
    (distinct : axes.Nodup) (inside : a ∈ axes) :
    (q.engine a).restPosition = (p.engine a).restPosition + move.steps.get a := by
  induction launched with
  | nil => cases inside
  | cons first rest ih =>
    rename_i b axes _ _ _
    obtain ⟨front, distinct⟩ := List.nodup_cons.mp distinct
    rcases List.mem_cons.mp inside with same | later
    · subst same
      rw [(launchedAll_elsewhere rest front).1]
      exact first.restPosition
    · have other : a ≠ b := fun same => front (same ▸ later)
      rw [ih distinct later, (first.elsewhere a other).1]

theorem issued_ordered (move : JointMove) :
    (issued move).Pairwise fun a b => a ≠ leadAxis move.steps ∧ a ≠ b := by
  unfold issued
  apply List.Pairwise.filter
  cases leadAxis move.steps <;> decide

theorem mem_issued : a ∈ issued move ↔ move.steps.get a ≠ 0 := by
  have every : a ∈ launchOrder (leadAxis move.steps) := by
    cases leadAxis move.steps <;> cases a <;> decide
  simp [issued, every]

theorem carryOut_ok (bounded : Platform.Bounded d.platform)
    (carried : (carryOut move).run d = (.ok lead, d')) :
    lead = leadAxis move.steps ∧
      LaunchedAll move (leadAxis move.steps) (issued move) d.platform d'.platform := by
  unfold carryOut at carried
  obtain ⟨_, _, launched, answered⟩ := run_bind_eq_ok.mp carried
  cases answered
  exact ⟨rfl, launchAll_ok bounded launched⟩

theorem carryOut_error {fault : MotionFault} (refused : (carryOut move).run d = (.error fault, d')) :
    ∃ a cause, fault = .actuation a cause := by
  unfold carryOut at refused
  cases launched : (launchAll move (leadAxis move.steps) (launchOrder (leadAxis move.steps)) []).run d
    with
  | mk result next =>
    cases result with
    | ok u =>
      rw [run_bind_ok launched] at refused
      cases refused
    | error fault =>
      rw [run_bind_error launched] at refused
      cases refused
      exact launchAll_error launched

theorem carryOut_restPosition (bounded : Platform.Bounded d.platform)
    (carried : (carryOut move).run d = (.ok lead, d')) (a : Axis) :
    (d'.platform.engine a).restPosition =
      (d.platform.engine a).restPosition + move.steps.get a := by
  obtain ⟨_, launched⟩ := carryOut_ok bounded carried
  by_cases none : move.steps.get a = 0
  · rw [(launchedAll_elsewhere launched fun inside => mem_issued.mp inside none).1, none]
    omega
  · have distinct : (issued move).Nodup := (issued_ordered move).imp And.right
    exact launchedAll_restPosition launched distinct (mem_issued.mpr none)

end CarryOut

end Crawler.Drives

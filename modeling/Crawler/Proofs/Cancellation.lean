import Crawler.Proofs.Sequence

/-! A coordinated move that fails. Its axes are launched one after another up to the first that refuses.
Those before it are under way by then and are stopped on their way; those after it, and those that have
no steps to make, are not touched. -/
namespace Crawler.Drives

open Crawler.Action
open Hardware (Platform Engine Event Occurrence)
open Hardware.Platform (OnlyAt Quiet Settled)

variable {d d' u v : Drives} {a b : Axis} {axes started : List Axis} {p q : Platform}
  {move : JointMove} {lead : Axis} {cause : Hardware.Fault}

section StopAll

structure Arrested (a : Axis) (p q : Platform) : Prop where
  engine : q.engine a = (p.engine a).freeze p.now
  log : ∃ seq, (q.log a).toList = (p.log a).toList ++ [⟨seq, p.now, .stopped⟩]

private theorem arrested_congr {r s : Platform} (arrested : Arrested a p q)
    (before : p.engine a = r.engine a ∧ p.log a = r.log a) (now : p.now = r.now)
    (after : s.engine a = q.engine a ∧ s.log a = q.log a) : Arrested a r s := by
  obtain ⟨engine, seq, log⟩ := arrested
  rw [before.1, now] at engine
  rw [before.2, now] at log
  exact ⟨after.1.trans engine, seq, after.2 ▸ log⟩

private theorem stop_arrested (a : Axis) (d : Drives) :
    ∃ d', (stop a).run d = (.ok (), d') ∧ d'.platform.now = d.platform.now ∧
      Arrested a d.platform d'.platform ∧ OnlyAt a d.platform d'.platform := by
  refine ⟨_, run_engage rfl, Platform.commit_now _ _ _, ⟨?_, ?_⟩, Platform.commit_onlyAt _⟩
  · exact Platform.commit_engine _ _ _
  · exact ⟨_, Platform.commit_log _ _ _⟩

/-- Stopping the axes of a list stops each of them at once and no other. -/
theorem stopAll_arrested (distinct : axes.Nodup) (d : Drives) :
    ((stopAll axes).run d).2.platform.now = d.platform.now ∧
      (∀ b ∈ axes, Arrested b d.platform ((stopAll axes).run d).2.platform) ∧
      ∀ b ∉ axes, ((stopAll axes).run d).2.platform.engine b = d.platform.engine b ∧
        ((stopAll axes).run d).2.platform.log b = d.platform.log b := by
  induction axes generalizing d with
  | nil => exact ⟨rfl, nofun, fun _ _ => ⟨rfl, rfl⟩⟩
  | cons a rest ih =>
    obtain ⟨front, distinct⟩ := List.nodup_cons.mp distinct
    obtain ⟨u, stopped, now, arrested, elsewhere⟩ := stop_arrested a d
    obtain ⟨later, among, outside⟩ := ih distinct u
    unfold stopAll
    rw [run_bind_ok stopped]
    refine ⟨later.trans now, fun b inside => ?_, fun b apart => ?_⟩
    · by_cases same : b = a
      · subst same
        exact arrested_congr arrested ⟨rfl, rfl⟩ rfl (outside b front)
      · exact arrested_congr (among b ((List.mem_cons.mp inside).resolve_left same))
          (elsewhere b same) now ⟨rfl, rfl⟩
    · obtain ⟨other, apart⟩ := not_or.mp (mt List.mem_cons.mpr apart)
      obtain ⟨engine, log⟩ := outside b apart
      exact ⟨engine.trans (elsewhere b other).1, log.trans (elsewhere b other).2⟩

end StopAll

section Launch

inductive InTurn (move : JointMove) (lead : Axis) : List Axis → Drives → Drives → Prop
  | nil (d : Drives) : InTurn move lead [] d d
  | cons {a : Axis} {axes : List Axis} {d u d' : Drives}
      (first : (launch move a (waitingOf lead a)).run d = (.ok (), u))
      (rest : InTurn move lead axes u d') : InTurn move lead (a :: axes) d d'

private theorem inTurn_issued (turn : InTurn move lead axes d d')
    (moved : ∀ a ∈ axes, move.steps.get a ≠ 0) : IssuedAll move lead axes d.platform d'.platform := by
  induction turn with
  | nil => exact .nil _
  | cons first _ ih =>
    obtain ⟨here, later⟩ := List.forall_mem_cons.mp moved
    exact .cons (launch_issued here first) (ih later)

/-- A launch that is refused leaves the axis at rest, or in the run without end that it is in. -/
theorem launch_refused (moved : move.steps.get a ≠ 0) {waiting : Waiting}
    (refused : (launch move a waiting).run d = (.error cause, d')) :
    Settled a d.platform d'.platform ∨
      (∃ r, (d.platform.engine a).motion = .run r) ∧ d' = d := by
  have settled (bounded : (d.platform.engine a).Bounded) : Settled a d.platform d'.platform := by
    rcases launch_cases bounded moved waiting with ⟨_, launched, _⟩ | ⟨_, _, same, settled⟩
    · cases refused.symm.trans launched
    · cases refused.symm.trans same
      exact settled
  cases motion : (d.platform.engine a).motion with
  | idle => exact .inl (settled (Engine.bounded_of_idle motion))
  | move m => exact .inl (settled (Engine.bounded_of_move motion))
  | run r =>
    unfold launch at refused
    rw [run_bind_error (run_awaitRest_of_run motion)] at refused
    cases refused
    exact .inr ⟨⟨r, rfl⟩, rfl⟩

/-- All that launching a list of axes does if it fails: the axes up to the first that refuses are
launched, and then those that have started are stopped. -/
theorem launchAll_refused {fault : MotionFault}
    (failed : (launchAll move lead axes started).run d = (.error fault, d')) :
    ∃ before a after cause u v, axes.filter (move.steps.get · ≠ 0) = before ++ a :: after ∧
      fault = .actuation a cause ∧ InTurn move lead before d u ∧
      (launch move a (waitingOf lead a)).run u = (.error cause, v) ∧
      d' = ((stopAll (started ++ before)).run v).2 := by
  induction axes generalizing d started with
  | nil => cases failed
  | cons a rest ih =>
    by_cases still : move.steps.get a = 0
    · rw [launchAll_skip still] at failed
      rw [List.filter_cons_of_neg (by simpa using still)]
      exact ih failed
    · rw [List.filter_cons_of_pos (by simpa using still)]
      cases launched : (launch move a (waitingOf lead a)).run d with
      | mk result u =>
        cases result with
        | ok _ =>
          rw [run_launchAll_of_ok still launched] at failed
          obtain ⟨before, b, after, cause, w, v, same, named, turn, refused, stopped⟩ := ih failed
          rw [List.append_assoc] at stopped
          exact ⟨a :: before, b, after, cause, w, v, congrArg (a :: ·) same, named,
            .cons launched turn, refused, stopped⟩
        | error cause =>
          rw [run_launchAll_of_error still launched] at failed
          cases failed
          exact ⟨[], a, _, cause, d, u, rfl, rfl, .nil d, launched, by rw [List.append_nil]⟩

end Launch

section CarryOut

structure Cancelled (move : JointMove) (a : Axis) (p q : Platform) (start stop : Event)
    (m : Hardware.Move) : Prop where
  log : ∃ before after, (q.log a).toList = (p.log a).toList ++ before ++ start :: after ++ [stop] ∧
    ∀ event ∈ before ++ after, event.what.Uneventful
  started : start.what = startOf move a
  stopped : stop.what = .stopped ∧ stop.time = q.now
  idle : (q.engine a).motion = .idle
  underway : m.start = start.time ∧ m.steps = move.steps.get a
  place : q.physical a = m.positionAt q.now

/-- An axis that refused made no start. It is at rest where its last move ended, or still in its run
without end. -/
structure Unstarted (a : Axis) (p q : Platform) : Prop where
  quiet : Quiet a p q
  motion : ((q.engine a).motion = .idle ∧ q.position a = (p.engine a).restPosition) ∨
    (∃ r, (p.engine a).motion = .run r) ∧ q.engine a = p.engine a ∧ q.log a = p.log a

private theorem issuedAll_cancelled (issued : IssuedAll move lead axes p q)
    (ordered : axes.Pairwise fun a b => a ≠ lead ∧ a ≠ b) (inside : a ∈ axes) (other : a ≠ lead)
    {r s : Platform} (kept : r.engine a = q.engine a ∧ r.log a = q.log a)
    (arrested : Arrested a r s) (now : s.now = r.now) :
    ∃ start stop m, Cancelled move a p s start stop m := by
  obtain ⟨before, seq, after, log, quiet⟩ :=
    launchedAll_log (issuedAll_launched issued) ordered inside
  have among : ⟨seq, turn p a p.now axes, startOf move a⟩ ∈ startsSince p q a := by
    rw [starts_of_log log rfl quiet]
    exact List.mem_singleton_self _
  obtain ⟨m, motion, begun, what⟩ := (issuedAll_underway issued ordered inside other _ among).flight
  obtain ⟨steps, _⟩ := Occurrence.moveStarted.inj what
  obtain ⟨frozen, stopSeq, stopped⟩ := arrested
  have engine : s.engine a = (q.engine a).freeze s.now := by rw [frozen, kept.1, now]
  refine ⟨_, ⟨stopSeq, r.now, .stopped⟩, m, ⟨before, after, ?_, quiet⟩, rfl, ⟨rfl, now.symm⟩, ?_,
    ⟨begun, steps.symm⟩, ?_⟩
  · rw [stopped, kept.2, log]
    rfl
  · rw [engine]
    rfl
  · unfold Platform.physical
    rw [engine, Engine.absoluteAt_of_idle rfl]
    change (q.engine a).absoluteAt s.now = m.positionAt s.now
    unfold Engine.absoluteAt
    rw [motion]

private theorem unstarted_of_refused (moved : move.steps.get a ≠ 0) {waiting : Waiting}
    (refused : (launch move a waiting).run u = (.error cause, v))
    (before : u.platform.engine a = p.engine a ∧ u.platform.log a = p.log a)
    (after : q.engine a = v.platform.engine a ∧ q.log a = v.platform.log a) : Unstarted a p q := by
  rcases launch_refused moved refused with settled | ⟨⟨r, running⟩, rfl⟩
  · obtain ⟨added, log, quiet⟩ := settled.quiet
    refine ⟨⟨added, by rw [after.2, log, before.2], quiet⟩, .inl ⟨after.1 ▸ settled.idle, ?_⟩⟩
    unfold Platform.position Engine.positionAt
    rw [after.1, Engine.absoluteAt_of_idle settled.idle, settled.physical, settled.offset, before.1]
    rfl
  · have log := after.2.trans before.2
    exact ⟨⟨[], by rw [log, List.append_nil], nofun⟩,
      .inr ⟨⟨r, before.1 ▸ running⟩, after.1.trans before.1, log⟩⟩

/-- A coordinated move fails with the first axis that refuses to start. The axes that started before it
are stopped on their way, it makes no start itself, and no other axis is touched. -/
theorem carryOut_cancelled {fault : MotionFault}
    (failed : (carryOut move).run d = (.error fault, d')) :
    ∃ before a after cause u v, issued move = before ++ a :: after ∧ fault = .actuation a cause ∧
      InTurn move (leadAxis move.steps) before d u ∧
      (launch move a (waitingOf (leadAxis move.steps) a)).run u = (.error cause, v) ∧
      (∀ b ∈ before, ∃ start stop m, Cancelled move b d.platform d'.platform start stop m) ∧
      Unstarted a d.platform d'.platform ∧
      ∀ b, b ∈ after ∨ move.steps.get b = 0 →
        d'.platform.engine b = d.platform.engine b ∧ d'.platform.log b = d.platform.log b := by
  have failed : (launchAll move (leadAxis move.steps) (launchOrder (leadAxis move.steps)) []).run d =
      (.error fault, d') := by
    unfold carryOut at failed
    rcases run_bind_eq_error.mp failed with failed | ⟨_, _, _, answered⟩
    · exact failed
    · cases answered
  obtain ⟨before, a, after, cause, u, v, order, named, turn, refused, rfl⟩ := launchAll_refused failed
  change issued move = before ++ a :: after at order
  have ordered := issued_ordered move
  rw [order] at ordered
  obtain ⟨first, rest, front⟩ := List.pairwise_append.mp ordered
  have moved (b : Axis) (inside : b ∈ before ++ a :: after) : move.steps.get b ≠ 0 :=
    mem_issued.mp (order ▸ inside)
  have issued := inTurn_issued turn fun b inside => moved b (List.mem_append_left _ inside)
  have among : a ∈ before ++ a :: after := List.mem_append_right _ List.mem_cons_self
  have apart : a ∉ before := fun inside => (front a inside a List.mem_cons_self).2 rfl
  have launching : OnlyAt a u.platform v.platform := (launch_error (moved a among) refused).1
  obtain ⟨now, stopped, outside⟩ := stopAll_arrested (first.imp And.right) v
  have unlaunched (b : Axis) (away : b ∉ before) :=
    launchedAll_elsewhere (issuedAll_launched issued) away
  have untouched (b : Axis) (idle : b ∈ after ∨ move.steps.get b = 0) : b ∉ before ∧ b ≠ a := by
    rcases idle with later | still
    · exact ⟨fun inside => (front b inside b (List.mem_cons_of_mem a later)).2 rfl,
        fun same => ((List.pairwise_cons.mp rest).1 b later).2 same.symm⟩
    · exact ⟨fun inside => moved b (List.mem_append_left _ inside) still,
        fun same => moved a among (same ▸ still)⟩
  refine ⟨before, a, after, cause, u, v, order, named, turn, refused, fun b inside => ?_, ?_,
    fun b idle => ?_⟩
  · have other : b ≠ a := fun same => apart (same ▸ inside)
    exact issuedAll_cancelled issued first inside (front b inside a List.mem_cons_self).1
      (launching b other) (stopped b inside) now
  · exact unstarted_of_refused (moved a among) refused (unlaunched a apart) (outside a apart)
  · obtain ⟨away, other⟩ := untouched b idle
    obtain ⟨engine₁, log₁⟩ := unlaunched b away
    obtain ⟨engine₂, log₂⟩ := launching b other
    obtain ⟨engine₃, log₃⟩ := outside b away
    exact ⟨engine₃.trans (engine₂.trans engine₁), log₃.trans (log₂.trans log₁)⟩

def jammed : Drives :=
  let d := ((launch ⟨⟨0, 0, 110⟩, ⟨0, 0, 10⟩, ⟨0, 0, 0⟩⟩ .z .unattended).run lagging).2
  { d with platform := d.platform.failNext .z "jam" }

def crawling : JointMove := ⟨⟨-30, 20, 10⟩, ⟨100, 5, 100⟩, ⟨0, 0, 0⟩⟩

def abandoned : Drives := ((carryOut crawling).run jammed).2

private theorem crawling_refused : (carryOut crawling).run jammed =
    (.error (.actuation .z (.moveRejected "z@gpio17" "jam")), abandoned) := by
  refine run_eq_of_result ?_
  decide +kernel

theorem crawling_cancelled :
    (∃ start stop m, Cancelled crawling .right jammed.platform abandoned.platform start stop m) ∧
      abandoned.platform.physical .right = 110 ∧ Unstarted .z jammed.platform abandoned.platform ∧
      abandoned.platform.engine .left = jammed.platform.engine .left ∧
      abandoned.platform.log .left = jammed.platform.log .left := by
  obtain ⟨before, a, after, cause, u, v, order, named, _, _, stopped, unstarted, untouched⟩ :=
    carryOut_cancelled crawling_refused
  obtain ⟨rfl, _⟩ := MotionFault.actuation.inj named
  have order : [.right, .z, .left] = before ++ .z :: after := order
  obtain ⟨rfl, rfl⟩ : before = [.right] ∧ after = [.left] := by
    rcases before with _ | ⟨b, _ | ⟨c, _ | ⟨e, before⟩⟩⟩ <;> simp_all
  exact ⟨stopped .right List.mem_cons_self, by decide +kernel, unstarted,
    untouched .left (.inl List.mem_cons_self)⟩

end CarryOut

end Crawler.Drives

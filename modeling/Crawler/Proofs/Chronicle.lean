import Crawler.Hardware.Operation
import Crawler.Proofs.Frame

/-! The logs of the engines as one timeline. Every event takes the next number and the time of the clock,
whichever axis it is of, and the clock never goes back; so the logs are the parts of one list in which
numbers grow and times do not fall. A log that is cleared takes its part out of the list. -/
namespace Crawler

open Crawler.Action

namespace Hardware

def Event.Precedes (e f : Event) : Prop := e.seq < f.seq ∧ e.time ≤ f.time

namespace Platform

def share (a : Axis) (timeline : List (Axis × Event)) : List Event :=
  (timeline.filter (·.1 = a)).map (·.2)

structure Chronicle (timeline : List (Axis × Event)) (p : Platform) : Prop where
  logs : ∀ a, (p.log a).toList = share a timeline
  ordered : timeline.Pairwise fun x y => x.2.Precedes y.2
  past : ∀ x ∈ timeline, x.2.seq < p.eventCount ∧ x.2.time ≤ p.now

def Recorded (p : Platform) : Prop := ∃ timeline, Chronicle timeline p

structure InOrder (p : Platform) : Prop where
  increasing : ∀ a, (p.log a).toList.Pairwise fun e f => e.seq < f.seq
  distinct : ∀ a b, a ≠ b → ∀ e ∈ (p.log a).toList, ∀ f ∈ (p.log b).toList, e.seq ≠ f.seq
  timely : ∀ a b, ∀ e ∈ (p.log a).toList, ∀ f ∈ (p.log b).toList, e.seq < f.seq → e.time ≤ f.time
  past : ∀ a, ∀ e ∈ (p.log a).toList, e.time ≤ p.now

section Share

variable {a b : Axis} {timeline : List (Axis × Event)}

private theorem mem_share {e : Event} : e ∈ share a timeline ↔ (a, e) ∈ timeline := by
  unfold share
  simp

private theorem share_append (a : Axis) (early late : List (Axis × Event)) :
    share a (early ++ late) = share a early ++ share a late := by
  unfold share
  rw [List.filter_append, List.map_append]

private theorem share_self (a : Axis) (events : List Event) : share a (events.map (a, ·)) = events := by
  induction events with
  | nil => rfl
  | cons e rest ih => simpa [share] using ih

private theorem share_of_ne (other : b ≠ a) (events : List Event) : share b (events.map (a, ·)) = [] := by
  simp [share, other.symm]

private theorem share_without (a b : Axis) (timeline : List (Axis × Event)) :
    share b (timeline.filter (·.1 ≠ a)) = if b = a then [] else share b timeline := by
  unfold share
  rw [List.filter_filter]
  split
  · next here => simp [here]
  · next other =>
    congr 1
    refine List.filter_congr fun x _ => ?_
    by_cases here : x.1 = b <;> simp [here, other]

end Share

section Chronicle

variable {timeline : List (Axis × Event)} {p q : Platform}

private theorem fresh_chronicle (pins : PerAxis Nat) (trigger : Int) :
    Chronicle [] (fresh pins trigger) where
  logs a := by cases a <;> rfl
  ordered := .nil
  past := nofun

private theorem Chronicle.later (chronicle : Chronicle timeline p) (logs : q.logs = p.logs)
    (count : p.eventCount ≤ q.eventCount) (now : p.now ≤ q.now) : Chronicle timeline q where
  logs a := by
    unfold log
    rw [logs]
    exact chronicle.logs a
  ordered := chronicle.ordered
  past x inside := by
    obtain ⟨numbered, passed⟩ := chronicle.past x inside
    exact ⟨Nat.lt_of_lt_of_le numbered count, Nat.le_trans passed now⟩

private theorem commit_eventCount {α : Type} (p : Platform) (a : Axis) (outcome : Engine.Outcome α) :
    (p.commit a outcome).eventCount = p.eventCount + (p.entry outcome.occurrence).length := by
  unfold commit entry
  cases outcome.occurrence <;> rfl

private theorem entry_eq {what : Option Occurrence} {event : Event} (entered : event ∈ p.entry what) :
    p.entry what = [event] ∧ event.seq = p.eventCount ∧ event.time = p.now := by
  cases what with
  | none => simp [entry] at entered
  | some what =>
    obtain rfl := List.mem_singleton.mp entered
    exact ⟨rfl, rfl, rfl⟩

/-- What an engine tells of comes to the end of the timeline. -/
theorem Chronicle.commit {α : Type} (chronicle : Chronicle timeline p) (a : Axis)
    (outcome : Engine.Outcome α) :
    Chronicle (timeline ++ (p.entry outcome.occurrence).map (a, ·)) (p.commit a outcome) where
  logs b := by
    rw [share_append]
    by_cases here : b = a
    · subst here
      rw [commit_log, chronicle.logs, share_self]
    · rw [commit_log_of_ne _ _ _ here, chronicle.logs, share_of_ne here, List.append_nil]
  ordered := by
    refine List.pairwise_append.mpr ⟨chronicle.ordered, ?_, fun x inside y last => ?_⟩
    · cases outcome.occurrence with
      | none => exact .nil
      | some what => exact List.pairwise_singleton _ _
    · obtain ⟨event, entered, rfl⟩ := List.mem_map.mp last
      obtain ⟨_, seq, time⟩ := entry_eq entered
      unfold Event.Precedes
      rw [seq, time]
      exact chronicle.past x inside
  past x inside := by
    rw [commit_eventCount, commit_now]
    rcases List.mem_append.mp inside with earlier | last
    · obtain ⟨numbered, passed⟩ := chronicle.past x earlier
      exact ⟨Nat.lt_add_right _ numbered, passed⟩
    · obtain ⟨event, entered, rfl⟩ := List.mem_map.mp last
      obtain ⟨alone, seq, time⟩ := entry_eq entered
      rw [alone, seq, time]
      exact ⟨Nat.lt_succ_self _, Nat.le_refl _⟩

private theorem Chronicle.clearLog (chronicle : Chronicle timeline p) (a : Axis) :
    Chronicle (timeline.filter (·.1 ≠ a)) (p.clearLog a) where
  logs b := by
    have cleared : (p.clearLog a).log b = if b = a then #[] else p.log b := PerAxis.get_set p.logs a b #[]
    rw [cleared, share_without]
    split
    · rfl
    · exact chronicle.logs b
  ordered := chronicle.ordered.filter _
  past x inside := chronicle.past x (List.mem_filter.mp inside).1

/-- Of two events on the timeline one precedes the other. -/
theorem Chronicle.comparable (chronicle : Chronicle timeline p) {x y : Axis × Event}
    (left : x ∈ timeline) (right : y ∈ timeline) :
    x = y ∨ x.2.Precedes y.2 ∨ y.2.Precedes x.2 := by
  have early := chronicle.ordered.imp fun {x y} before =>
    (.inr (.inl before) : x = y ∨ x.2.Precedes y.2 ∨ y.2.Precedes x.2)
  have late := chronicle.ordered.imp fun {x y} before =>
    (.inr (.inr before) : y = x ∨ y.2.Precedes x.2 ∨ x.2.Precedes y.2)
  exact early.forall_of_forall_of_flip (fun _ _ => .inl rfl) late left right

private theorem Chronicle.inOrder (chronicle : Chronicle timeline p) : InOrder p where
  increasing a := by
    rw [chronicle.logs]
    refine List.pairwise_map.mpr ((chronicle.ordered.filter _).imp fun before => before.1)
  distinct a b apart e left f right same := by
    rw [chronicle.logs, mem_share] at left right
    rcases chronicle.comparable left right with equal | before | after
    · exact apart (congrArg Prod.fst equal)
    · exact Nat.ne_of_lt before.1 same
    · exact Nat.ne_of_gt after.1 same
  timely a b e left f right before := by
    rw [chronicle.logs, mem_share] at left right
    rcases chronicle.comparable left right with equal | precedes | after
    · cases equal
      exact Nat.le_refl _
    · exact precedes.2
    · exact absurd before (Nat.lt_asymm after.1)
  past a e inside := by
    rw [chronicle.logs, mem_share] at inside
    exact (chronicle.past (a, e) inside).2

end Chronicle

section Recorded

variable {p q : Platform}

private theorem Recorded.later (recorded : Recorded p) (logs : q.logs = p.logs)
    (count : p.eventCount ≤ q.eventCount) (now : p.now ≤ q.now) : Recorded q := by
  obtain ⟨timeline, chronicle⟩ := recorded
  exact ⟨timeline, chronicle.later logs count now⟩

private theorem Recorded.serve (recorded : Recorded p) (edge : Bool) : Recorded (p.serve edge) := by
  obtain ⟨now, _, logs, count, _⟩ := p.serve_fields edge
  exact recorded.later logs (Nat.le_of_eq count.symm) (Nat.le_of_eq now.symm)

private theorem Recorded.advance (recorded : Recorded p) (us : Nat) : Recorded (p.advance us) := by
  have passed : Recorded { p with now := p.now + us } :=
    recorded.later rfl (Nat.le_refl _) (Nat.le_add_right _ _)
  exact passed.serve false

private theorem Recorded.retire (recorded : Recorded p) (a : Axis) : Recorded (p.retire a) := by
  exact recorded.later rfl (Nat.le_refl _) (Nat.le_refl _)

private theorem engage_recorded {α : Type} (a : Axis) (op : Nat → Engine → Engine.Outcome α) :
    Preserves Recorded (engage a op) := by
  rintro p ⟨timeline, chronicle⟩
  rw [run_engage]
  exact ⟨_, chronicle.commit a _⟩

private theorem attach_recorded (handler : Handler) : Preserves Recorded (attach handler) := by
  intro p recorded
  change Recorded (attach handler p).2
  unfold attach
  split
  · exact recorded
  · have armed : Recorded { p with limit := { p.limit with armed := some handler } } :=
      recorded.later rfl (Nat.le_refl _) (Nat.le_refl _)
    exact armed.serve false

private theorem apply_recorded (passage : Passage) (recorded : Recorded p) :
    Recorded (passage.apply p) := by
  cases passage with
  | advance us => exact recorded.advance us
  | advanceUntil us => exact advanceUntil_keeps us (fun us _ recorded => recorded.advance us) recorded
  | delay ms => exact recorded.advance _

private theorem ask_recorded (query : Query) : Preserves Recorded query.ask := by
  cases query with
  | moving a =>
    refine preserves_map (fun p recorded => ?_)
    rw [run_queryMoving]
    exact recorded.retire a
  | _ => exact fun _ recorded => recorded

private theorem call_recorded (a : Axis) (call : Engine.Call) : Preserves Recorded (call.action a) := by
  cases call with
  | awaitEnd =>
    exact preserves_awaitEnd (engage_recorded a _) (fun us _ recorded => recorded.advance us)
      fun _ recorded => recorded.retire a
  | _ => exact engage_recorded a _

private theorem action_recorded (operation : Operation) : Preserves Recorded operation.action := by
  have noted {action : Action Platform Fault Unit} (kept : Preserves Recorded action) :
      Preserves Recorded (Operation.action.noted action) := preserves_map kept
  have same {f : Platform → Platform} (logs : ∀ p, (f p).logs = p.logs)
      (count : ∀ p, (f p).eventCount = p.eventCount) (now : ∀ p, (f p).now = p.now) :
      Preserves Recorded (.modify f : Action Platform Fault Unit) := fun p recorded =>
    recorded.later (logs p) (Nat.le_of_eq (count p).symm) (Nat.le_of_eq (now p).symm)
  cases operation with
  | query asked => exact ask_recorded asked
  | call a told => exact noted (call_recorded a told)
  | pass passage => exact noted (preserves_modify fun _ => apply_recorded passage)
  | failNext a reason => exact noted (same (fun _ => rfl) (fun _ => rfl) fun _ => rfl)
  | clearLog a => exact noted (preserves_modify fun _ ⟨_, chronicle⟩ => ⟨_, chronicle.clearLog a⟩)
  | takeNumber =>
    refine preserves_map (fun p recorded => ?_)
    exact recorded.later rfl (Nat.le_succ _) (Nat.le_refl _)
  | attach handler => exact noted (attach_recorded handler)
  | detach => exact noted (same (fun _ => rfl) (fun _ => rfl) fun _ => rfl)
  | trigger => exact noted (preserves_modify fun _ recorded => recorded.serve true)
  | overrideLevel level => exact noted (same (fun _ => rfl) (fun _ => rfl) fun _ => rfl)

private theorem answers_recorded (operations : List Operation) (recorded : Recorded p) :
    Recorded (p.answers operations).2 := by
  induction operations generalizing p with
  | nil => exact recorded
  | cons operation rest ih => exact ih (action_recorded operation p recorded)

end Recorded

/-- Whatever is asked of a platform, its logs tell of one order in which everything happened. -/
theorem answers_inOrder (pins : PerAxis Nat) (trigger : Int) (operations : List Operation) :
    InOrder ((fresh pins trigger).answers operations).2 := by
  obtain ⟨timeline, chronicle⟩ := answers_recorded operations ⟨[], fresh_chronicle pins trigger⟩
  exact chronicle.inOrder

def errands : List Operation :=
  [.call .left (.setSpeed 1000), .call .z (.setSpeed 1000), .call .left (.startMove 5),
    .call .left .awaitEnd, .clearLog .z, .takeNumber, .call .z .stop]

example : Axis.all.map (fun a => ((((fresh ⟨26, 14, 17⟩ (-50)).answers errands).2.log a).toList.map
    fun e => (e.seq, e.time))) = [[(0, 0), (2, 0), (3, 0)], [], [(5, 5000)]] := by decide +kernel

section Kept

private theorem recorded_impassive : Drives.Impassive Recorded where
  engaged a op _ := engage_recorded a op
  retired a _ recorded := recorded.retire a
  advanced us _ recorded := recorded.advance us

private theorem recorded_aside : Homing.Aside fun d => Recorded d.platform where
  toFrame := recorded_impassive.frame .z
  placed d recorded := engage_recorded .z (Engine.setPosition 0) d.platform recorded
  attached d recorded := attach_recorded .homing d.platform recorded
  detached _ recorded := recorded.later rfl (Nat.le_refl _) (Nat.le_refl _)
  signalled _ _ recorded := recorded.later rfl (Nat.le_refl _) (Nat.le_refl _)

private theorem disturbed_recorded {p : Platform} {f : Platform → Platform} (disturbance : Disturbance f)
    (recorded : Recorded p) : Recorded (f p) := by
  cases disturbance with
  | advance us => exact apply_recorded (.advance us) recorded
  | advanceUntil us => exact apply_recorded (.advanceUntil us) recorded
  | failNext a reason => exact recorded.later rfl (Nat.le_refl _) (Nat.le_refl _)
  | overrideLevel level => exact recorded.later rfl (Nat.le_refl _) (Nat.le_refl _)
  | edge => exact recorded.serve true

end Kept

end Platform

end Hardware

namespace Homing.Station

open Hardware.Platform

private theorem recorded_kept : Kept fun s => Recorded s.drives.platform ∧ True where
  toDriven := driven_of_impassive recorded_impassive
    (fun _ disturbance _ _ => disturbed_recorded disturbance) fun _ => True
  forced _ level _ recorded := ⟨disturbed_recorded (.overrideLevel level) recorded.1, trivial⟩
  emergencyStop _ d recorded :=
    ⟨Drives.emergencyStop_frame recorded_impassive.frame d recorded.1, trivial⟩
  released s recorded := ⟨recorded_aside.detached s.drives recorded.1, trivial⟩
  home limits store s recorded := ⟨home_keeps recorded_aside.invariant limits store s recorded.1, trivial⟩

end Homing.Station

/-- So it is with the logs of a machine, whatever it was asked for and whatever disturbed its hardware. -/
theorem Machine.run_inOrder (store : Setting.Store) (pins : PerAxis Nat) (trigger : Int)
    (output : Hardware.SpindleOutput) (limits : Homing.Limits) (console : Console)
    (stimuli : List Stimulus) :
    (run stimuli (fresh store (.fresh pins trigger) output limits console)).2.drives.platform.InOrder := by
  have recorded : Hardware.Platform.Recorded
      (run stimuli (fresh store (.fresh pins trigger) output limits console)).2.drives.platform :=
    (run_held Homing.Station.recorded_kept Spindle.true_kept
      ⟨⟨[], Hardware.Platform.fresh_chronicle pins trigger⟩, trivial⟩ trivial stimuli).station.1
  obtain ⟨timeline, chronicle⟩ := recorded
  exact chronicle.inOrder

end Crawler

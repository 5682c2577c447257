import Crawler.Proofs.Launch

/-! When the axes of a move start. Each axis waits for the move that it is in before it starts, and
the next axis is looked at only then, so the starts coincide unless a later axis is still busy when
the first one starts. -/
namespace Crawler.Drives

open Crawler.Action
open Hardware (Platform Engine Event)

/-- When an axis of a list starts, if one axis after another waits for the move that it is in. -/
def turn (p : Platform) (a : Axis) : Nat → List Axis → Nat
  | now, [] => now
  | now, b :: later =>
    let past := max now (p.engine b).restTime
    if b = a then past else turn p a past later

def startsSince (p q : Platform) (a : Axis) : List Event :=
  ((q.log a).toList.drop (p.log a).size).filter (·.what.startedMove?.isSome)

variable {p q : Platform} {a : Axis} {move : JointMove} {lead : Axis} {d d' : Drives}

private theorem turn_congr {axes : List Axis} (same : ∀ b ∈ axes, q.engine b = p.engine b) (now : Nat) :
    turn q a now axes = turn p a now axes := by
  induction axes generalizing now with
  | nil => rfl
  | cons b later ih =>
    have here := same b List.mem_cons_self
    have there := ih fun c inside => same c (List.mem_cons_of_mem b inside)
    unfold turn
    rw [here]
    dsimp only
    rw [there]

private theorem restTime_le_turn {axes : List Axis} (inside : a ∈ axes) (now : Nat) :
    (p.engine a).restTime ≤ turn p a now axes := by
  induction axes generalizing now with
  | nil => cases inside
  | cons b later ih =>
    unfold turn
    by_cases same : b = a
    · rw [if_pos same, same]
      exact Nat.le_max_right _ _
    · rw [if_neg same]
      rcases List.mem_cons.mp inside with first | after
      · exact absurd first.symm same
      · exact ih after _

private theorem turn_of_over {axes : List Axis} {now : Nat}
    (past : ∀ b ∈ axes, (p.engine b).restTime ≤ now) : turn p a now axes = now := by
  induction axes with
  | nil => rfl
  | cons b later ih =>
    have here := past b List.mem_cons_self
    have there := ih fun c inside => past c (List.mem_cons_of_mem b inside)
    have reached : max now (p.engine b).restTime = now := by omega
    unfold turn
    rw [reached]
    split
    · rfl
    · exact there

/-- All axes of a list start together exactly if none of them is in a move that outlasts the start of
the first. -/
theorem turns_agree_iff {axes : List Axis} {now : Nat} :
    (∃ t, ∀ a ∈ axes, turn p a now axes = t) ↔
      ∀ first ∈ axes.head?, ∀ a ∈ axes,
        (p.engine a).restTime ≤ max now (p.engine first).restTime := by
  cases axes with
  | nil => simp
  | cons first later =>
    have start : turn p first now (first :: later) = max now (p.engine first).restTime := by
      unfold turn
      rw [if_pos rfl]
    constructor
    · rintro ⟨t, together⟩ b ⟨⟩ a inside
      have bound := restTime_le_turn (p := p) inside now
      rw [together a inside, ← together first List.mem_cons_self, start] at bound
      exact bound
    · intro past
      refine ⟨max now (p.engine first).restTime, fun a inside => ?_⟩
      have past := past first rfl
      unfold turn
      split
      · rfl
      · exact turn_of_over fun b after => past b (List.mem_cons_of_mem first after)

/-- Each axis starts once, at its turn, if no axis is named twice and only the last is waited for. -/
theorem launchedAll_log {axes : List Axis} (launched : LaunchedAll move lead axes p q)
    (ordered : axes.Pairwise fun a b => a ≠ lead ∧ a ≠ b) (inside : a ∈ axes) :
    ∃ before seq after, (q.log a).toList = (p.log a).toList ++ before ++
        ⟨seq, turn p a p.now axes, .moveStarted (move.steps.get a) (Number.ofInt (move.hz.get a))⟩ ::
          after ∧
      ∀ event ∈ before ++ after, event.what.Uneventful := by
  induction launched with
  | nil => cases inside
  | cons first rest ih =>
    rename_i b axes p q r
    obtain ⟨front, ordered⟩ := List.pairwise_cons.mp ordered
    unfold turn
    by_cases same : b = a
    · subst same
      rw [if_pos rfl, (launchedAll_elsewhere rest fun again => (front b again).2 rfl).2]
      exact first.log
    -- The axes after `b` find their own moves as they were, and the clock where `b` left it.
    · have later : a ∈ axes := (List.mem_cons.mp inside).resolve_left (Ne.symm same)
      have unattended : waitingOf lead b = .unattended := if_neg (front a later).1
      have others : ∀ c ∈ axes, q.engine c = p.engine c :=
        fun c among => (first.elsewhere c (front c among).2.symm).1
      have started := ih ordered later
      rw [turn_congr others, first.now unattended, (first.elsewhere a (Ne.symm same)).2] at started
      rw [if_neg same]
      exact started

theorem filter_uneventful {events : List Event} (quiet : ∀ event ∈ events, event.what.Uneventful) :
    events.filter (·.what.startedMove?.isSome) = [] := by
  rw [List.filter_eq_nil_iff]
  intro event member
  rw [(quiet event member).1]
  simp

theorem starts_of_log {before after : List Event} {event : Event}
    (grown : (q.log a).toList = (p.log a).toList ++ before ++ event :: after)
    (started : event.what.startedMove?.isSome)
    (quiet : ∀ event ∈ before ++ after, event.what.Uneventful) : startsSince p q a = [event] := by
  have left := filter_uneventful fun event inside => quiet event (List.mem_append_left _ inside)
  have right := filter_uneventful fun event inside => quiet event (List.mem_append_right _ inside)
  have here : (event :: after).filter (·.what.startedMove?.isSome) = [event] := by
    rw [List.filter_cons, if_pos started, right]
  unfold startsSince
  rw [grown, ← Array.length_toList, List.append_assoc, List.drop_left, List.filter_append, left, here]
  rfl

theorem starts_of_same (same : q.log a = p.log a) : startsSince p q a = [] := by
  unfold startsSince
  rw [same, ← Array.length_toList, List.drop_length]
  rfl

/-- A move that is carried out starts each of its axes once, at its turn; and all of them together
exactly if none is still busy when the first one starts. -/
theorem carryOut_starts (bounded : Platform.Bounded d.platform)
    (carried : (carryOut move).run d = (.ok lead, d')) :
    (∀ a, (startsSince d.platform d'.platform a).map (fun event => (event.time, event.what)) =
        if move.steps.get a = 0 then []
        else [(turn d.platform a d.platform.now (issued move),
          .moveStarted (move.steps.get a) (Number.ofInt (move.hz.get a)))]) ∧
      ((∃ t, ∀ a, ∀ event ∈ startsSince d.platform d'.platform a, event.time = t) ↔
        ∀ first ∈ (issued move).head?, ∀ a, move.steps.get a ≠ 0 →
          (d.platform.engine a).restTime ≤
            max d.platform.now (d.platform.engine first).restTime) := by
  obtain ⟨_, launched⟩ := carryOut_ok bounded carried
  have still : ∀ a, move.steps.get a = 0 → startsSince d.platform d'.platform a = [] := by
    intro a none
    have outside : a ∉ issued move := fun inside => mem_issued.mp inside none
    exact starts_of_same (launchedAll_elsewhere launched outside).2
  have once : ∀ a, move.steps.get a ≠ 0 → ∃ seq, startsSince d.platform d'.platform a =
      [⟨seq, turn d.platform a d.platform.now (issued move),
        .moveStarted (move.steps.get a) (Number.ofInt (move.hz.get a))⟩] := by
    intro a some_steps
    obtain ⟨before, seq, after, grown, quiet⟩ :=
      launchedAll_log launched (issued_ordered move) (mem_issued.mpr some_steps)
    exact ⟨seq, starts_of_log grown rfl quiet⟩
  constructor
  · intro a
    by_cases none : move.steps.get a = 0
    · rw [if_pos none, still a none]
      rfl
    · obtain ⟨seq, started⟩ := once a none
      rw [if_neg none, started]
      rfl
  · have turns : (∃ t, ∀ a, ∀ event ∈ startsSince d.platform d'.platform a, event.time = t) ↔
        ∃ t, ∀ a ∈ issued move, turn d.platform a d.platform.now (issued move) = t := by
      apply exists_congr
      intro t
      apply forall_congr'
      intro a
      by_cases none : move.steps.get a = 0
      · rw [still a none, mem_issued]
        simp [none]
      · obtain ⟨seq, started⟩ := once a none
        rw [started, mem_issued]
        simp [none]
    rw [turns, turns_agree_iff]
    simp only [mem_issued]

def uneven : JointMove := ⟨⟨0, 100, 100⟩, ⟨0, 10, 100⟩, ⟨0, 0, 0⟩⟩

def bothTracks : JointMove := ⟨⟨10, 10, 0⟩, ⟨100, 100, 0⟩, ⟨0, 0, 0⟩⟩

def lagging : Drives := ((carryOut uneven).run (fresh (.fresh ⟨26, 14, 17⟩ (-2000)))).2

def sentOn : Drives := ((carryOut bothTracks).run lagging).2

private theorem lagging_bounded : Platform.Bounded lagging.platform := by
  intro a
  cases a <;> decide +kernel

private theorem lagging_carries : (carryOut bothTracks).run lagging = (.ok .z, sentOn) := by
  refine run_eq_of_result ?_
  decide +kernel

theorem lagging_starts :
    (startsSince lagging.platform sentOn.platform .left).map (fun event => (event.time, event.what)) =
        [(1000000, .moveStarted 10 (Number.ofInt 100))] ∧
      (startsSince lagging.platform sentOn.platform .right).map
          (fun event => (event.time, event.what)) =
        [(10000000, .moveStarted 10 (Number.ofInt 100))] := by
  have starts := (carryOut_starts lagging_bounded lagging_carries).1
  have left : turn lagging.platform .left lagging.platform.now (issued bothTracks) = 1000000 := by
    decide +kernel
  have right : turn lagging.platform .right lagging.platform.now (issued bothTracks) = 10000000 := by
    decide +kernel
  constructor
  · rw [starts .left, left]
    rfl
  · rw [starts .right, right]
    rfl

/-- The axes of one move need not start at the same time. -/
theorem starts_apart :
    ¬ ∀ (d d' : Drives) (move : JointMove) (lead : Axis), Platform.Bounded d.platform →
      (carryOut move).run d = (.ok lead, d') →
      ∃ t, ∀ a, ∀ event ∈ startsSince d.platform d'.platform a, event.time = t := by
  intro simultaneous
  obtain ⟨t, together⟩ :=
    simultaneous lagging sentOn bothTracks .z lagging_bounded lagging_carries
  have left : (startsSince lagging.platform sentOn.platform .left).map (·.time) = [1000000] := by
    decide +kernel
  have right : (startsSince lagging.platform sentOn.platform .right).map (·.time) = [10000000] := by
    decide +kernel
  have reached : ∀ a time, (startsSince lagging.platform sentOn.platform a).map (·.time) = [time] →
      time = t := by
    intro a time alone
    have inside : time ∈ (startsSince lagging.platform sentOn.platform a).map (·.time) := by
      rw [alone]
      exact List.mem_cons_self
    obtain ⟨event, member, same⟩ := List.mem_map.mp inside
    exact same.symm.trans (together a event member)
  have at_left := reached .left 1000000 left
  have at_right := reached .right 10000000 right
  omega

end Crawler.Drives

import Crawler.Proofs.Frame
import Crawler.Proofs.Sound
import Crawler.Proofs.Starts

/-! The order in which a coordinated move starts its axes. Events are numbered across all axes as they
happen. The axis that is waited for starts last and is at rest in the end; nothing more is done to the
others once they have started. -/
namespace Crawler

open Crawler.Action
open Hardware (Platform Engine Event Occurrence)

namespace Hardware.Platform

structure Grown (p q : Platform) : Prop where
  count : p.eventCount ≤ q.eventCount
  logs : ∀ a, ∃ added, (q.log a).toList = (p.log a).toList ++ added ∧
    ∀ event ∈ added, p.eventCount ≤ event.seq ∧ event.seq < q.eventCount

variable {p q r : Platform}

private theorem grown_same (count : q.eventCount = p.eventCount) (logs : q.logs = p.logs) : Grown p q := by
  refine ⟨Nat.le_of_eq count.symm, fun a => ⟨[], ?_, nofun⟩⟩
  unfold log
  rw [logs, List.append_nil]

private theorem grown_trans (first : Grown p q) (second : Grown q r) : Grown p r := by
  refine ⟨Nat.le_trans first.count second.count, fun a => ?_⟩
  obtain ⟨new₁, log₁, numbers₁⟩ := first.logs a
  obtain ⟨new₂, log₂, numbers₂⟩ := second.logs a
  refine ⟨new₁ ++ new₂, by rw [log₂, log₁, List.append_assoc], fun event inside => ?_⟩
  rcases List.mem_append.mp inside with earlier | later
  · obtain ⟨least, below⟩ := numbers₁ event earlier
    exact ⟨least, Nat.lt_of_lt_of_le below second.count⟩
  · obtain ⟨least, below⟩ := numbers₂ event later
    exact ⟨Nat.le_trans first.count least, below⟩

/-- The event of an operation has the next number. -/
theorem grown_commit {α : Type} (a : Axis) (outcome : Engine.Outcome α) : Grown p (p.commit a outcome) := by
  cases came : outcome.occurrence with
  | none =>
    have same : p.commit a outcome = { p with engines := p.engines.set a outcome.engine } := by
      unfold commit
      rw [came]
    rw [same]
    exact grown_same rfl rfl
  | some what =>
    have count : (p.commit a outcome).eventCount = p.eventCount + 1 := by
      unfold commit
      rw [came]
      rfl
    refine ⟨by omega, fun b => ?_⟩
    by_cases same : b = a
    · subst same
      refine ⟨_, p.commit_log b outcome, fun event inside => ?_⟩
      rw [came] at inside
      cases List.mem_singleton.mp inside
      rw [count]
      exact ⟨Nat.le_refl _, Nat.lt_succ_self _⟩
    · exact ⟨[], by rw [p.commit_log_of_ne a outcome same, List.append_nil], nofun⟩

private theorem grown_impassive (p : Platform) : Drives.Impassive (Grown p) where
  engaged a op _ q grown := by
    rw [run_engage]
    exact grown_trans grown (grown_commit a _)
  retired a q grown := grown_trans grown (grown_same rfl rfl)
  advanced us q grown := by
    have count := (serve_fields { q with now := q.now + us } false).2.2.2.1
    exact grown_trans grown (grown_same count (q.advance_logs us))

end Hardware.Platform

namespace Drives

open Hardware.Platform (Grown grown_same grown_trans grown_impassive)

variable {a b : Axis} {p q r : Platform} {move : JointMove} {lead : Axis} {d d' : Drives} {start : Event}

section Starts

private theorem mem_startsSince (grown : Grown p q) (inside : start ∈ startsSince p q a) :
    p.eventCount ≤ start.seq ∧ start.seq < q.eventCount := by
  obtain ⟨added, log, numbers⟩ := grown.logs a
  unfold startsSince at inside
  rw [log, ← Array.length_toList, List.drop_left] at inside
  exact numbers start (List.mem_filter.mp inside).1

/-- An axis that was not touched later has no later starts. -/
theorem startsSince_left (same : r.log a = q.log a) : startsSince p r a = startsSince p q a := by
  unfold startsSince
  rw [same]

private theorem startsSince_right (same : q.log a = p.log a) : startsSince p r a = startsSince q r a := by
  unfold startsSince
  rw [same]

structure Underway (a : Axis) (start : Event) (p : Platform) : Prop where
  last : (p.log a).toList.getLast? = some start
  flight : ∃ m, (p.engine a).motion = .move m ∧ m.start = start.time ∧
    start.what = .moveStarted m.steps m.hz

private theorem moved_underway (a : Axis) (steps : Int) (p : Platform) :
    Underway a ⟨p.eventCount, p.now, .moveStarted steps (p.engine a).speed⟩ (moved a steps p) := by
  constructor
  · unfold moved
    rw [Platform.commit_log]
    exact List.getLast?_concat
  · unfold moved
    rw [Platform.commit_engine]
    exact ⟨_, rfl, rfl, rfl⟩

/-- What an axis ends with is what it started. -/
theorem underway_of_last {steps : Int} {hz : Float} {waiting : Waiting}
    (launched : Launched a steps hz waiting p q) (underway : Underway a start q) :
    startsSince p q a = [start] := by
  obtain ⟨before, seq, after, log, quiet⟩ := launched.log
  have started := starts_of_log log rfl quiet
  have last := underway.last
  rw [log, List.getLast?_append, List.getLast?_cons] at last
  obtain ⟨m, _, _, what⟩ := underway.flight
  cases ending : after.getLast? with
  | none =>
    rw [ending] at last
    rw [started]
    exact congrArg (fun event => [event]) (Option.some.inj last)
  | some event =>
    rw [ending] at last
    obtain rfl : event = start := Option.some.inj last
    have still := (quiet event (List.mem_append_right _ (List.mem_of_getLast? ending))).1
    rw [what] at still
    cases still

end Starts

section Issue

structure Issued (move : JointMove) (lead a : Axis) (p q : Platform) : Prop extends
    Launched a (move.steps.get a) (Number.ofInt (move.hz.get a)) (waitingOf lead a) p q where
  grown : Grown p q
  underway : a ≠ lead → ∀ start ∈ startsSince p q a, Underway a start q

inductive IssuedAll (move : JointMove) (lead : Axis) : List Axis → Platform → Platform → Prop
  | nil (p : Platform) : IssuedAll move lead [] p p
  | cons {a : Axis} {axes : List Axis} {p q r : Platform} (first : Issued move lead a p q)
      (rest : IssuedAll move lead axes q r) : IssuedAll move lead (a :: axes) p r

private theorem startMove_underway {steps : Int} (some_steps : steps ≠ 0)
    (ran : (startMove a steps .unattended).run d = (.ok (), d')) :
    ∃ start, Underway a start d'.platform := by
  unfold startMove at ran
  rw [if_pos some_steps] at ran
  rcases awaitRest_cases d a with ⟨bounded, waited⟩ | ⟨fault, refused⟩
  · rw [run_bind_ok waited] at ran
    obtain ⟨_, next, asked, ended⟩ := run_bind_eq_ok.mp ran
    cases ended
    obtain ⟨answered, left⟩ := engage_ok asked
    rcases Engine.startMove_cases (Platform.awaited_settled bounded).idle some_steps
      (d.platform.awaited a).now with ⟨_, outcome⟩ | ⟨_, _, _, outcome, _⟩
    · rw [left, outcome]
      exact ⟨_, moved_underway a steps _⟩
    · rw [outcome] at answered
      cases answered
  · rw [run_bind_error refused] at ran
    cases ran

private theorem launch_underway (some_steps : move.steps.get a ≠ 0)
    (ran : (launch move a .unattended).run d = (.ok (), d')) : ∃ start, Underway a start d'.platform := by
  obtain ⟨_, _, _, ran⟩ := run_bind_eq_ok.mp ran
  obtain ⟨_, _, _, ran⟩ := run_bind_eq_ok.mp ran
  obtain ⟨_, _, _, ran⟩ := run_bind_eq_ok.mp ran
  obtain ⟨_, _, _, ran⟩ := run_bind_eq_ok.mp ran
  exact startMove_underway some_steps ran

theorem launch_issued (some_steps : move.steps.get a ≠ 0)
    (ran : (launch move a (waitingOf lead a)).run d = (.ok (), d')) :
    Issued move lead a d.platform d'.platform := by
  have launched := launch_ok some_steps ran
  have grown := launch_frame ((grown_impassive d.platform).frame a) move (waitingOf lead a) d
    (grown_same rfl rfl)
  rw [ran] at grown
  refine ⟨launched, grown, fun other start inside => ?_⟩
  rw [waitingOf, if_neg other] at ran
  obtain ⟨last, underway⟩ := launch_underway some_steps ran
  rw [underway_of_last launched underway] at inside
  exact List.mem_singleton.mp inside ▸ underway

private theorem launchAll_issued {axes started : List Axis}
    (ran : (launchAll move lead axes started).run d = (.ok (), d')) :
    IssuedAll move lead (axes.filter (move.steps.get · ≠ 0)) d.platform d'.platform := by
  induction axes generalizing d started with
  | nil =>
    cases ran
    exact .nil _
  | cons a rest ih =>
    by_cases still : move.steps.get a = 0
    · rw [launchAll_skip still] at ran
      rw [List.filter_cons_of_neg (by simpa using still)]
      exact ih ran
    · rw [List.filter_cons_of_pos (by simpa using still)]
      cases launched : (launch move a (waitingOf lead a)).run d with
      | mk result next =>
        cases result with
        | ok u =>
          rw [run_launchAll_of_ok still launched] at ran
          exact .cons (launch_issued still launched) (ih ran)
        | error fault =>
          rw [run_launchAll_of_error still launched] at ran
          cases ran

variable {axes : List Axis}

theorem issuedAll_launched (issued : IssuedAll move lead axes p q) : LaunchedAll move lead axes p q := by
  induction issued with
  | nil p => exact .nil p
  | cons first _ ih => exact .cons first.toLaunched ih

private theorem issuedAll_grown (issued : IssuedAll move lead axes p q) : Grown p q := by
  induction issued with
  | nil p => exact grown_same rfl rfl
  | cons first _ ih => exact grown_trans first.grown ih

/-- Whoever is earlier in the list has the lower number. -/
theorem issuedAll_ordered (issued : IssuedAll move lead axes p q)
    (ordered : axes.Pairwise fun a b => a ≠ lead ∧ a ≠ b) :
    axes.Pairwise fun a b =>
      ∀ first ∈ startsSince p q a, ∀ later ∈ startsSince p q b, first.seq < later.seq := by
  induction issued with
  | nil => exact .nil
  | cons first rest ih =>
    rename_i b axes p q r
    obtain ⟨front, ordered⟩ := List.pairwise_cons.mp ordered
    have alone : startsSince p r b = startsSince p q b :=
      startsSince_left (launchedAll_elsewhere (issuedAll_launched rest) fun again => (front b again).2 rfl).2
    have others (c : Axis) (among : c ∈ axes) : startsSince p r c = startsSince q r c :=
      startsSince_right (first.elsewhere c (front c among).2.symm).2
    refine List.pairwise_cons.mpr ⟨fun c among start here later there => ?_, ?_⟩
    · rw [alone] at here
      rw [others c among] at there
      have below := (mem_startsSince first.grown here).2
      have above := (mem_startsSince (issuedAll_grown rest) there).1
      exact Nat.lt_of_lt_of_le below above
    · refine List.Pairwise.imp_of_mem (fun {c e} among also before => ?_) (ih ordered)
      rw [others c among, others e also]
      exact before

theorem issuedAll_underway (issued : IssuedAll move lead axes p q)
    (ordered : axes.Pairwise fun a b => a ≠ lead ∧ a ≠ b) (inside : a ∈ axes) (other : a ≠ lead) :
    ∀ start ∈ startsSince p q a, Underway a start q := by
  induction issued with
  | nil => cases inside
  | cons first rest ih =>
    rename_i b axes p q r
    obtain ⟨front, ordered⟩ := List.pairwise_cons.mp ordered
    intro start here
    by_cases same : a = b
    · subst same
      obtain ⟨engine, log⟩ :=
        launchedAll_elsewhere (issuedAll_launched rest) fun again => (front a again).2 rfl
      rw [startsSince_left log] at here
      obtain ⟨last, flight⟩ := first.underway other start here
      exact ⟨log ▸ last, engine ▸ flight⟩
    · rw [startsSince_right (first.elsewhere a same).2] at here
      exact ih ordered ((List.mem_cons.mp inside).resolve_left same) start here

/-- The axis that is waited for is at rest when all have been started. -/
theorem issuedAll_idle (issued : IssuedAll move lead axes p q)
    (ordered : axes.Pairwise fun a b => a ≠ lead ∧ a ≠ b) (inside : lead ∈ axes) :
    (q.engine lead).motion = .idle := by
  induction issued with
  | nil => cases inside
  | cons first rest ih =>
    rename_i b axes p q r
    obtain ⟨front, ordered⟩ := List.pairwise_cons.mp ordered
    by_cases same : lead = b
    · subst same
      have outside : lead ∉ axes := fun again => (front lead again).2 rfl
      rw [(launchedAll_elsewhere (issuedAll_launched rest) outside).1]
      exact first.idle (if_pos rfl)
    · exact ih ordered ((List.mem_cons.mp inside).resolve_left same)

end Issue

section CarryOut

def Exceeds (steps : PerAxis Int) (a : Axis) : Prop :=
  ∀ b, b ≠ a → (steps.get b).natAbs < (steps.get a).natAbs

/-- The axis that makes the most steps leads, or the depth axis if there is none. -/
theorem leadAxis_exceeds (steps : PerAxis Int) :
    Exceeds steps (leadAxis steps) ∨ leadAxis steps = .z ∧ ∀ a, ¬ Exceeds steps a := by
  have left : leadAxis steps = .left ↔ Exceeds steps .left := by
    rw [leadAxis_eq_left_iff]
    refine ⟨fun most b other => ?_, fun most => ⟨most .right (by decide), most .z (by decide)⟩⟩
    cases b with
    | left => exact absurd rfl other
    | right => exact most.1
    | z => exact most.2
  have right : leadAxis steps = .right ↔ Exceeds steps .right := by
    rw [leadAxis_eq_right_iff]
    refine ⟨fun most b other => ?_, fun most => ⟨most .left (by decide), most .z (by decide)⟩⟩
    cases b with
    | left => exact most.1
    | right => exact absurd rfl other
    | z => exact most.2
  cases led : leadAxis steps with
  | left => exact .inl (left.mp led)
  | right => exact .inl (right.mp led)
  | z =>
    rw [led] at left right
    by_cases most : Exceeds steps .z
    · exact .inl most
    · refine .inr ⟨rfl, fun a => ?_⟩
      cases a with
      | left => exact fun most => Axis.noConfusion (left.mpr most)
      | right => exact fun most => Axis.noConfusion (right.mpr most)
      | z => exact most

theorem carryOut_issued (carried : (carryOut move).run d = (.ok lead, d')) :
    lead = leadAxis move.steps ∧ IssuedAll move lead (issued move) d.platform d'.platform := by
  unfold carryOut at carried
  obtain ⟨_, _, launched, answered⟩ := run_bind_eq_ok.mp carried
  cases answered
  exact ⟨rfl, launchAll_issued launched⟩

/-- The axis that is waited for starts last. -/
theorem issued_split (moved : move.steps.get (leadAxis move.steps) ≠ 0) :
    issued move = ((Axis.all.filter (· ≠ leadAxis move.steps)).filter (move.steps.get · ≠ 0)) ++
      [leadAxis move.steps] := by
  unfold issued launchOrder
  rw [List.filter_append, List.filter_cons_of_pos (by simpa using moved)]
  rfl

private theorem issued_of_start (issued_all : IssuedAll move lead (issued move) p q)
    (inside : start ∈ startsSince p q a) : a ∈ issued move := by
  refine Decidable.byContradiction fun outside => ?_
  rw [starts_of_same (launchedAll_elsewhere (issuedAll_launched issued_all) outside).2] at inside
  cases inside

/-- The starts of the other axes have lower numbers than the start of the one that is waited for. -/
theorem lead_last (issued_all : IssuedAll move (leadAxis move.steps) (issued move) p q)
    (other : a ≠ leadAxis move.steps) {first last : Event} (here : first ∈ startsSince p q a)
    (there : last ∈ startsSince p q (leadAxis move.steps)) : first.seq < last.seq := by
  have moved := mem_issued.mp (issued_of_start issued_all here)
  have led := mem_issued.mp (issued_of_start issued_all there)
  have ordered := issuedAll_ordered issued_all (issued_ordered move)
  rw [issued_split led] at ordered
  have before : a ∈ (Axis.all.filter (· ≠ leadAxis move.steps)).filter (move.steps.get · ≠ 0) :=
    List.mem_filter.mpr
      ⟨List.mem_filter.mpr ⟨a.mem_all, by simpa using other⟩, by simpa using moved⟩
  exact (List.pairwise_append.mp ordered).2.2 a before _ List.mem_cons_self first here last there

/-- A move that is carried out: which axis is waited for, what each axis logs, in which order, and how
it is left. The others are still in the moves that they started, with nothing logged since. -/
theorem carryOut_sequence (carried : (carryOut move).run d = (.ok lead, d')) :
    (Exceeds move.steps lead ∨ lead = .z ∧ ∀ a, ¬ Exceeds move.steps a) ∧
      (∀ a, (startsSince d.platform d'.platform a).map (·.what) =
        if move.steps.get a = 0 then []
        else [.moveStarted (move.steps.get a) (Number.ofInt (move.hz.get a))]) ∧
      (∀ a, move.steps.get a = 0 → d'.platform.log a = d.platform.log a) ∧
      (∀ a, a ≠ lead → ∀ start ∈ startsSince d.platform d'.platform a,
        Underway a start d'.platform ∧
          ∀ last ∈ startsSince d.platform d'.platform lead, start.seq < last.seq) ∧
      (move.steps.get lead ≠ 0 → (d'.platform.engine lead).motion = .idle ∧
        d'.position lead = (d.platform.engine lead).restPosition + move.steps.get lead) := by
  obtain ⟨rfl, issued_all⟩ := carryOut_issued carried
  have launched := issuedAll_launched issued_all
  have ordered := issued_ordered move
  refine ⟨leadAxis_exceeds move.steps, fun a => ?starts, fun a still => ?still,
    fun a other start inside => ?others, fun moved => ?lead⟩
  case starts =>
    obtain ⟨starts, gained, _, all⟩ := carryOut_gains carried a
    rw [starts_of_gains gained]
    exact all _ rfl
  case still =>
    exact (launchedAll_elsewhere launched fun inside => mem_issued.mp inside still).2
  case others =>
    have among := issued_of_start issued_all inside
    exact ⟨issuedAll_underway issued_all ordered among other start inside,
      fun _ there => lead_last issued_all other inside there⟩
  case lead =>
    have among := mem_issued.mpr moved
    have idle := issuedAll_idle issued_all ordered among
    refine ⟨idle, ?_⟩
    rw [position_of_idle idle]
    exact launchedAll_restPosition launched (ordered.imp And.right) among

def veering : JointMove := ⟨⟨-30, 20, 10⟩, ⟨100, 100, 100⟩, ⟨0, 0, 0⟩⟩

def veered : Drives := ((carryOut veering).run lagging).2

private theorem veering_carried : (carryOut veering).run lagging = (.ok .left, veered) := by
  refine run_eq_of_result ?_
  decide +kernel

theorem veering_sequence :
    Exceeds veering.steps .left ∧
      (∀ a, (startsSince lagging.platform veered.platform a).map (·.what) =
        [.moveStarted (veering.steps.get a) (Number.ofInt 100)]) ∧
      (∀ start ∈ startsSince lagging.platform veered.platform .right,
        Underway .right start veered.platform ∧ start.time = 10000000) ∧
      (veered.platform.engine .left).motion = .idle ∧ veered.position .left = -30 := by
  obtain ⟨leads, starts, _, others, last⟩ := carryOut_sequence veering_carried
  have waited : (startsSince lagging.platform veered.platform .right).map (·.time) = [10000000] := by
    decide +kernel
  have most := leads.resolve_right fun depth => Axis.noConfusion depth.1
  refine ⟨most, fun a => ?_, fun start inside => ?_, ?_⟩
  · rw [starts a]
    cases a <;> rfl
  · refine ⟨(others .right (by decide) start inside).1, List.mem_singleton.mp ?_⟩
    rw [← waited]
    exact List.mem_map_of_mem inside
  · obtain ⟨idle, reached⟩ := last (by decide)
    refine ⟨idle, reached.trans ?_⟩
    decide +kernel

end CarryOut

end Drives

end Crawler

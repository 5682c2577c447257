import Crawler.Configuration.Basic
import Crawler.Proofs.Homing
import Mathlib.Algebra.Order.Floor.Div

/-! Homing returns. Its two loops wait for what the hardware does, so they are stated here as relations
that hold of finite runs only, without a count that runs out, and among surroundings that do anything to
the platform whenever it is waited for. Limits that pass their check bound both loops. -/
namespace Crawler

open Hardware (Platform)

structure Effort where
  polls : Nat
  steps : Nat
deriving DecidableEq, Repr

namespace Effort

instance : Zero Effort := ⟨⟨0, 0⟩⟩

instance : Add Effort := ⟨fun e f => ⟨e.polls + f.polls, e.steps + f.steps⟩⟩

instance : LE Effort := ⟨fun e f => e.polls ≤ f.polls ∧ e.steps ≤ f.steps⟩

@[simp] theorem polls_zero : (0 : Effort).polls = 0 := rfl

@[simp] theorem polls_add (e f : Effort) : (e + f).polls = e.polls + f.polls := rfl

@[simp] theorem steps_add (e f : Effort) : (e + f).steps = e.steps + f.steps := rfl

private theorem le_iff {e f : Effort} : e ≤ f ↔ e.polls ≤ f.polls ∧ e.steps ≤ f.steps := Iff.rfl

private theorem zero_add (e : Effort) : 0 + e = e := by
  change Effort.mk (0 + e.polls) (0 + e.steps) = e
  rw [Nat.zero_add, Nat.zero_add]

private theorem add_zero (e : Effort) : e + 0 = e := rfl

private theorem le_refl (e : Effort) : e ≤ e := by
  exact ⟨Nat.le_refl _, Nat.le_refl _⟩

private theorem zero_le (e : Effort) : 0 ≤ e := by
  exact ⟨Nat.zero_le _, Nat.zero_le _⟩

private theorem add_le_add {e e' f f' : Effort} (left : e ≤ e') (right : f ≤ f') : e + f ≤ e' + f' := by
  obtain ⟨polls, steps⟩ := left
  obtain ⟨polls', steps'⟩ := right
  exact ⟨Nat.add_le_add polls polls', Nat.add_le_add steps steps'⟩

end Effort

/-- An operation that may not return, by the runs that do: the state that a run starts from, the effort
that it takes, what it answers and the state that it leaves. -/
def Process (σ ε α : Type) : Type := σ → Effort → Except ε α × σ → Prop

namespace Process

variable {σ ε δ α β : Type}

inductive Of (action : Action σ ε α) (s : σ) : Effort → Except ε α × σ → Prop
  | ran : Of action s 0 (action.run s)

inductive Then (first : Process σ ε α) (next : α → Process σ ε β) (s : σ) :
    Effort → Except ε β × σ → Prop
  | failed {effort : Effort} {e : ε} {t : σ} (ran : first s effort (.error e, t)) :
      Then first next s effort (.error e, t)
  | passed {before after : Effort} {a : α} {t : σ} {outcome : Except ε β × σ}
      (ran : first s before (.ok a, t)) (rest : next a t after outcome) :
      Then first next s (before + after) outcome

inductive Attempt (process : Process σ ε α) (s : σ) : Effort → Except δ (Except ε α) × σ → Prop
  | ended {effort : Effort} {result : Except ε α} {t : σ} (ran : process s effort (result, t)) :
      Attempt process s effort (.ok result, t)

inductive On {τ : Type} (part : τ → σ) (replace : τ → σ → τ) (process : Process σ ε α) (s : τ) :
    Effort → Except ε α × τ → Prop
  | ran {effort : Effort} {result : Except ε α} {t : σ}
      (ran : process (part s) effort (result, t)) :
      On part replace process s effort (result, replace s t)

def of (action : Action σ ε α) : Process σ ε α := Of action

instance : Monad (Process σ ε) where
  pure a := of (pure a)
  bind := Then

def attempt (process : Process σ ε α) : Process σ δ (Except ε α) := Attempt process

section Returns

/-- From every state there is exactly one run. It takes no more effort than it may, and what it answers
goes with the effort that it took. -/
def Returns (most : Effort) (told : Effort → α → Prop) (process : Process σ ε α) : Prop :=
  ∀ s, ∃ effort result t, process s effort (result, t) ∧ effort ≤ most ∧
    (∀ a, result = .ok a → told effort a) ∧
    ∀ effort' outcome, process s effort' outcome → effort' = effort ∧ outcome = (result, t)

variable {most further : Effort} {told : Effort → α → Prop}

private theorem returns_of (action : Action σ ε α) :
    Returns 0 (fun effort _ => effort = 0) (of action) := by
  intro s
  refine ⟨0, _, _, .ran, Effort.le_refl 0, fun _ _ => rfl, ?_⟩
  rintro effort outcome ⟨⟩
  exact ⟨rfl, rfl⟩

private theorem returns_pure {a : α} (holds : told 0 a) : Returns 0 told (pure a : Process σ ε α) := by
  intro s
  refine ⟨0, .ok a, s, .ran, Effort.le_refl 0, ?_, ?_⟩
  · rintro _ ⟨⟩
    exact holds
  · rintro effort outcome ⟨⟩
    exact ⟨rfl, rfl⟩

private theorem returns_fail (e : ε) : Returns most told (of (.fail e) : Process σ ε α) := by
  intro s
  refine ⟨0, .error e, s, .ran, Effort.zero_le most, nofun, ?_⟩
  rintro effort outcome ⟨⟩
  exact ⟨rfl, rfl⟩

private theorem returns_bind {first : Process σ ε α} {next : α → Process σ ε β}
    {answered : Effort → β → Prop} (before : Returns most told first)
    (after : ∀ effort a, told effort a →
      Returns further (fun later b => answered (effort + later) b) (next a)) :
    Returns (most + further) answered (first >>= next) := by
  intro s
  obtain ⟨effort, result, t, ran, within, answers, only⟩ := before s
  cases result with
  | error e =>
    refine ⟨effort, .error e, t, .failed ran, ?_, nofun, fun effort' outcome again => ?_⟩
    · exact Effort.add_zero effort ▸ Effort.add_le_add within (Effort.zero_le further)
    · cases again with
      | failed also =>
        obtain ⟨rfl, same⟩ := only _ _ also
        cases same
        exact ⟨rfl, rfl⟩
      | passed also rest => cases (only _ _ also).2
  | ok a =>
    obtain ⟨later, result, u, rest, below, answers', only'⟩ := after effort a (answers a rfl) t
    refine ⟨effort + later, result, u, .passed ran rest, Effort.add_le_add within below, answers',
      fun effort' outcome again => ?_⟩
    cases again with
    | failed also => cases (only _ _ also).2
    | passed also rest' =>
      obtain ⟨rfl, same⟩ := only _ _ also
      cases same
      obtain ⟨rfl, rfl⟩ := only' _ _ rest'
      exact ⟨rfl, rfl⟩

private theorem returns_after {action : Action σ ε α} {next : α → Process σ ε β}
    {answered : Effort → β → Prop} (after : ∀ a, Returns most answered (next a)) :
    Returns most answered (of action >>= next) := by
  have both := returns_bind (returns_of action) fun effort a none => by
    subst none
    simpa only [Effort.zero_add] using after a
  rwa [Effort.zero_add] at both

private theorem returns_attempt {process : Process σ ε α} (returns : Returns most told process) :
    Returns most (fun effort result => ∀ a, result = .ok a → told effort a)
      (attempt process : Process σ δ (Except ε α)) := by
  intro s
  obtain ⟨effort, result, t, ran, within, answers, only⟩ := returns s
  refine ⟨effort, .ok result, t, .ended ran, within, ?_, ?_⟩
  · rintro _ ⟨⟩
    exact answers
  · rintro effort' outcome ⟨again⟩
    obtain ⟨rfl, same⟩ := only _ _ again
    cases same
    exact ⟨rfl, rfl⟩

private theorem returns_on {τ : Type} {part : τ → σ} {replace : τ → σ → τ} {process : Process σ ε α}
    (returns : Returns most told process) : Returns most told (On part replace process) := by
  intro s
  obtain ⟨effort, result, t, ran, within, answers, only⟩ := returns (part s)
  refine ⟨effort, result, _, .ran ran, within, answers, ?_⟩
  rintro effort' outcome ⟨again⟩
  obtain ⟨rfl, same⟩ := only _ _ again
  cases same
  exact ⟨rfl, rfl⟩

end Returns

section Follows

def Follows (process : Process σ ε α) (action : Action σ ε α) : Prop :=
  ∀ s, ∃ effort, process s effort (action.run s)

private theorem follows_of (action : Action σ ε α) : Follows (of action) action := by
  intro s
  exact ⟨0, .ran⟩

private theorem follows_bind {first : Process σ ε α} {next : α → Process σ ε β} {action : Action σ ε α}
    {further : α → Action σ ε β} (before : Follows first action)
    (after : ∀ a, Follows (next a) (further a)) : Follows (first >>= next) (action >>= further) := by
  intro s
  obtain ⟨effort, ran⟩ := before s
  rw [Action.run_bind]
  cases came : action.run s with
  | mk result t =>
    rw [came] at ran
    cases result with
    | error e => exact ⟨effort, .failed ran⟩
    | ok a =>
      obtain ⟨later, rest⟩ := after a t
      exact ⟨effort + later, .passed ran rest⟩

private theorem follows_after {action : Action σ ε α} {next : α → Process σ ε β}
    {further : α → Action σ ε β}
    (after : ∀ a, Follows (next a) (further a)) : Follows (of action >>= next) (action >>= further) := by
  exact follows_bind (follows_of action) after

private theorem follows_attempt {process : Process σ ε α} {action : Action σ ε α}
    (follows : Follows process action) :
    Follows (attempt process : Process σ δ (Except ε α)) action.attempt := by
  intro s
  obtain ⟨effort, ran⟩ := follows s
  exact ⟨effort, .ended ran⟩

end Follows

end Process

namespace Homing

open Process

inductive Seeks (world : Platform → Platform) (limits : Limits) :
    Nat → Platform → Effort → Except HomingFault Nat × Platform → Prop
  | reached {elapsed : Nat} {p : Platform} (up : p.homingSignal = true) :
      Seeks world limits elapsed p 0 (.ok elapsed, p)
  | late {elapsed : Nat} {p : Platform} (down : p.homingSignal = false)
      (past : limits.timeoutMs ≤ elapsed) :
      Seeks world limits elapsed p 0 (.error (.notReached limits.timeoutMs), p)
  | poll {elapsed : Nat} {p : Platform} {effort : Effort} {outcome : Except HomingFault Nat × Platform}
      (down : p.homingSignal = false) (within : elapsed < limits.timeoutMs)
      (rest : Seeks world limits (elapsed + limits.pollMs) (world (p.delay limits.pollMs)) effort
        outcome) :
      Seeks world limits elapsed p (⟨1, 0⟩ + effort) outcome

inductive Releases (world : Platform → Platform) (limits : Limits) :
    Nat → Platform → Effort → Except HomingFault Nat × Platform → Prop
  | clear {made : Nat} {p : Platform} (off : p.switchActive = false) :
      Releases world limits made p 0 (.ok made, p)
  | stuck {made : Nat} {p : Platform} (on : p.switchActive = true) (past : limits.releaseSteps ≤ made) :
      Releases world limits made p 0 (.error (.stillActive made), p)
  | refused {made : Nat} {p q : Platform} {cause : Hardware.Fault} (on : p.switchActive = true)
      (within : made < limits.releaseSteps)
      (failed : (Platform.step .z .forward).run p = (.error cause, q)) :
      Releases world limits made p ⟨0, 1⟩ (.error (.actuation cause), q)
  | step {made : Nat} {p q : Platform} {effort : Effort}
      {outcome : Except HomingFault Nat × Platform} (on : p.switchActive = true)
      (within : made < limits.releaseSteps) (stepped : (Platform.step .z .forward).run p = (.ok (), q))
      (rest : Releases world limits (made + 1) (world q) effort outcome) :
      Releases world limits made p (⟨0, 1⟩ + effort) outcome

variable {world : Platform → Platform} {limits : Limits}

section Seek

private theorem seeks_unique {elapsed : Nat} {p : Platform} {effort effort' : Effort}
    {outcome outcome' : Except HomingFault Nat × Platform}
    (seeks : Seeks world limits elapsed p effort outcome)
    (again : Seeks world limits elapsed p effort' outcome') : effort' = effort ∧ outcome' = outcome := by
  induction seeks generalizing effort' with
  | reached up =>
    cases again with
    | reached => exact ⟨rfl, rfl⟩
    | late down | poll down => cases up.symm.trans down
  | late down past =>
    cases again with
    | reached up => cases up.symm.trans down
    | late => exact ⟨rfl, rfl⟩
    | poll _ within => omega
  | poll down within _ ih =>
    cases again with
    | reached up => cases up.symm.trans down
    | late _ past => omega
    | poll _ _ rest =>
      obtain ⟨rfl, same⟩ := ih rest
      exact ⟨rfl, same⟩

/-- A search ends within any number of polls that would outlast its time. -/
theorem seeks_ends (world : Platform → Platform) (polls : Nat) {elapsed : Nat}
    (enough : limits.timeoutMs ≤ elapsed + polls * limits.pollMs)
    (early : elapsed < limits.timeoutMs + limits.pollMs) (p : Platform) :
    ∃ effort result q, Seeks world limits elapsed p effort (result, q) ∧ effort ≤ ⟨polls, 0⟩ ∧
      ∀ ms, result = .ok ms → ms = elapsed + effort.polls * limits.pollMs ∧
        ms < limits.timeoutMs + limits.pollMs := by
  cases flag : p.homingSignal with
  | true =>
    refine ⟨0, .ok elapsed, p, .reached flag, Effort.zero_le _, ?_⟩
    rintro ms ⟨⟩
    rw [Effort.polls_zero, Nat.zero_mul]
    exact ⟨rfl, early⟩
  | false =>
    rcases Nat.lt_or_ge elapsed limits.timeoutMs with within | past
    · cases polls with
      | zero => omega
      | succ polls =>
        have enough : limits.timeoutMs ≤ elapsed + limits.pollMs + polls * limits.pollMs := by
          rw [Nat.succ_mul] at enough
          omega
        obtain ⟨effort, result, q, rest, below, answers⟩ :=
          seeks_ends world polls enough (by omega) (world (p.delay limits.pollMs))
        refine ⟨_, result, q, .poll flag within rest, ?_, fun ms answered => ?_⟩
        · rw [Effort.le_iff] at below ⊢
          simp only [Effort.polls_add, Effort.steps_add] at below ⊢
          omega
        · obtain ⟨took, bounded⟩ := answers ms answered
          rw [Effort.polls_add, Nat.add_mul, Nat.one_mul]
          exact ⟨by omega, bounded⟩
    · exact ⟨0, _, p, .late flag past, Effort.zero_le _, nofun⟩

private theorem validate_ok (valid : limits.validate = .ok ()) :
    0 < limits.pollMs ∧ 0 < limits.releaseSteps ∧ limits.pollMs ≤ limits.timeoutMs := by
  unfold Limits.validate at valid
  split at valid
  · cases valid
  split at valid
  · cases valid
  split at valid
  · cases valid
  omega

private theorem polls_enough (some : 0 < limits.pollMs) :
    limits.timeoutMs ≤ limits.polls * limits.pollMs := by
  rw [Nat.mul_comm]
  exact le_smul_ceilDiv some

private theorem polls_few (some : 0 < limits.pollMs) :
    limits.polls * limits.pollMs < limits.timeoutMs + limits.pollMs := by
  have := Nat.div_mul_le_self (limits.timeoutMs + limits.pollMs - 1) limits.pollMs
  unfold Limits.polls
  omega

private theorem seeks_returns (valid : limits.validate = .ok ()) : Returns
    ⟨limits.timeoutMs ⌈/⌉ limits.pollMs, 0⟩
    (fun effort ms => effort.steps = 0 ∧ ms = effort.polls * limits.pollMs ∧
      ms < limits.timeoutMs + limits.pollMs)
    (Seeks world limits 0) := by
  intro p
  obtain ⟨some, _, _⟩ := validate_ok valid
  have enough := polls_enough some
  obtain ⟨effort, result, q, seeks, within, answers⟩ := seeks_ends world limits.polls
    (by omega : limits.timeoutMs ≤ 0 + limits.polls * limits.pollMs) (by omega) p
  refine ⟨effort, result, q, seeks, within, fun ms answered => ?_,
    fun _ _ again => seeks_unique seeks again⟩
  obtain ⟨took, early⟩ := answers ms answered
  exact ⟨Nat.le_zero.mp within.2, took.trans (Nat.zero_add _), early⟩

private theorem delay_still {p : Platform} (off : p.switchActive = false) : p.delay 0 = p := by
  change p.serve false = p
  unfold Platform.serve
  split
  · rfl
  · rw [if_neg (by simp [off])]

/-- Without time between its polls a search for a switch that stays inactive goes on for ever. -/
theorem seeks_endless {elapsed : Nat} {p : Platform} {effort : Effort}
    {outcome : Except HomingFault Nat × Platform} (hasty : limits.pollMs = 0)
    (early : elapsed < limits.timeoutMs) (down : p.homingSignal = false) (off : p.switchActive = false) :
    ¬ Seeks id limits elapsed p effort outcome := by
  intro seeks
  induction seeks with
  | reached up => cases up.symm.trans down
  | late _ past => omega
  | poll _ _ _ ih =>
    rw [hasty, delay_still off] at ih
    exact ih early down off

/-- A search that runs out of polls has run out of time, and not before. -/
theorem seek_seeks {polls elapsed : Nat} (enough : limits.timeoutMs ≤ elapsed + polls * limits.pollMs)
    (few : elapsed + polls * limits.pollMs < limits.timeoutMs + limits.pollMs) (p : Platform) :
    ∃ effort, Seeks id limits elapsed p effort ((seek limits polls elapsed).run p) := by
  induction polls generalizing elapsed p with
  | zero =>
    cases flag : p.homingSignal with
    | true => exact ⟨0, seek_up 0 elapsed flag ▸ .reached flag⟩
    | false => exact ⟨0, seek_late elapsed flag ▸ .late flag (by omega)⟩
  | succ polls ih =>
    cases flag : p.homingSignal with
    | true => exact ⟨0, seek_up _ elapsed flag ▸ .reached flag⟩
    | false =>
      rw [Nat.succ_mul] at enough few
      have enough : limits.timeoutMs ≤ elapsed + limits.pollMs + polls * limits.pollMs := by omega
      obtain ⟨effort, rest⟩ := ih enough (by omega) (p.delay limits.pollMs)
      exact ⟨⟨1, 0⟩ + effort, seek_poll polls elapsed flag ▸ .poll flag (by omega) rest⟩

end Seek

section Release

private theorem releases_unique {made : Nat} {p : Platform} {effort effort' : Effort}
    {outcome outcome' : Except HomingFault Nat × Platform}
    (releases : Releases world limits made p effort outcome)
    (again : Releases world limits made p effort' outcome') :
    effort' = effort ∧ outcome' = outcome := by
  induction releases generalizing effort' with
  | clear off =>
    cases again with
    | clear => exact ⟨rfl, rfl⟩
    | stuck on | refused on | step on => cases on.symm.trans off
  | stuck on past =>
    cases again with
    | clear off => cases on.symm.trans off
    | stuck => exact ⟨rfl, rfl⟩
    | refused _ within | step _ within => omega
  | refused on within failed =>
    cases again with
    | clear off => cases on.symm.trans off
    | stuck _ past => omega
    | refused _ _ also =>
      cases failed.symm.trans also
      exact ⟨rfl, rfl⟩
    | step _ _ stepped => cases failed.symm.trans stepped
  | step on within stepped _ ih =>
    cases again with
    | clear off => cases on.symm.trans off
    | stuck _ past => omega
    | refused _ _ failed => cases stepped.symm.trans failed
    | step _ _ also rest =>
      cases stepped.symm.trans also
      obtain ⟨rfl, same⟩ := ih rest
      exact ⟨rfl, same⟩

/-- Stepping off the switch ends within the steps that are left, counting one that is refused. -/
theorem releases_ends (world : Platform → Platform) (left : Nat) {made : Nat}
    (all : limits.releaseSteps ≤ made + left) (p : Platform) :
    ∃ effort result q, Releases world limits made p effort (result, q) ∧ effort ≤ ⟨0, left⟩ ∧
      ∀ n, result = .ok n → n = made + effort.steps := by
  cases active : p.switchActive with
  | false =>
    refine ⟨0, .ok made, p, .clear active, Effort.zero_le _, ?_⟩
    rintro n ⟨⟩
    rfl
  | true =>
    rcases Nat.lt_or_ge made limits.releaseSteps with within | past
    · cases left with
      | zero => omega
      | succ left =>
        cases ran : (Platform.step .z .forward).run p with
        | mk result q =>
          cases result with
          | error cause =>
            exact ⟨_, _, q, .refused active within ran, ⟨Nat.le_refl 0, Nat.le_add_left 1 left⟩, nofun⟩
          | ok _ =>
            obtain ⟨effort, result, r, rest, below, answers⟩ :=
              releases_ends world left (by omega : limits.releaseSteps ≤ made + 1 + left) (world q)
            refine ⟨_, result, r, .step active within ran rest, ?_, fun n answered => ?_⟩
            · rw [Effort.le_iff] at below ⊢
              simp only [Effort.polls_add, Effort.steps_add] at below ⊢
              omega
            · rw [answers n answered, Effort.steps_add, Nat.add_assoc]
    · exact ⟨0, _, p, .stuck active past, Effort.zero_le _, nofun⟩

private theorem releases_returns : Returns ⟨0, limits.releaseSteps⟩
    (fun effort n => effort.polls = 0 ∧ n = effort.steps)
    (Releases world limits 0) := by
  intro p
  obtain ⟨effort, result, q, releases, within, answers⟩ :=
    releases_ends world limits.releaseSteps (by omega : limits.releaseSteps ≤ 0 + _) p
  refine ⟨effort, result, q, releases, within, fun n answered => ?_,
    fun _ _ again => releases_unique releases again⟩
  exact ⟨Nat.le_zero.mp within.1, (answers n answered).trans (Nat.zero_add _)⟩

private theorem release_releases {left made : Nat} (all : made + left = limits.releaseSteps)
    (p : Platform) :
    ∃ effort, Releases id limits made p effort ((release left made).run p) := by
  cases active : p.switchActive with
  | false => exact ⟨0, release_clear left made active ▸ .clear active⟩
  | true =>
    cases left with
    | zero => exact ⟨0, release_stuck made active ▸ .stuck active (by omega)⟩
    | succ left =>
      cases ran : (Platform.step .z .forward).run p with
      | mk result q =>
        cases result with
        | error cause =>
          exact ⟨⟨0, 1⟩, release_refused left made active ran ▸ .refused active (by omega) ran⟩
        | ok _ =>
          obtain ⟨effort, rest⟩ := release_releases (by omega : made + 1 + left = _) q
          exact ⟨⟨0, 1⟩ + effort,
            release_active left made active ran ▸ .step active (by omega) ran rest⟩

end Release

section Cycle

/-! The phases of a cycle as the operations of the station carry them out, but with the loops as
relations and the surroundings at work. -/
namespace Surrounded

def onPlatform {α : Type} (process : Process Platform HomingFault α) : Process Station HomingFault α :=
  On (·.drives.platform)
    (fun station platform => { station with drives := { station.drives with platform } }) process

variable (world : Platform → Platform) (limits : Limits) (parameters : Parameters)

def seekSwitch : Process Station HomingFault Nat := do
  .of (Station.enter .seeking)
  .of (Station.onDrives (Drives.awaitRest .z))
  .of (Station.onDrives (Drives.enable .z))
  .of (Station.onDrives (Drives.setAcceleration .z parameters.acceleration))
  .of (Station.onDrives (Drives.setSpeed .z (Number.ofInt parameters.hz)))
  .of (Station.onPlatform ((Platform.attach .homing).mapError .actuation))
  .of (Station.onDrives (Drives.startRun .z .reverse))
  onPlatform (Seeks world limits 0)

def debounce : Process Station HomingFault Unit := do
  .of (Station.enter .debouncing)
  .of (Station.onDrives (Drives.stop .z))
  .of (Station.onDrives (Drives.disable .z))
  .of (Station.onPlatform (.modify fun p => world (p.delay parameters.debounceMs)))
  .of (Station.onDrives (Drives.enable .z))

def pullOff : Process Station HomingFault Nat := do
  .of (Station.enter .pullingOff)
  let steps ← onPlatform (Releases world limits 0)
  .of (Station.onDrives (Drives.startMove .z parameters.pullOffSteps .attended))
  .of (Station.onDrives (Drives.setOrigin .z))
  .of (Station.setFlag false)
  .of (Station.onPlatform (.modify Platform.detach))
  return steps

def sequence : Process Station HomingFault Report := do
  let seekMs ← seekSwitch world limits parameters
  debounce world parameters
  let releaseSteps ← pullOff world limits parameters
  return ⟨parameters.hz, seekMs, releaseSteps, parameters.pullOffSteps⟩

def home (store : Setting.Store) : Process Station HomingFault Report := do
  .of (Station.enter .idle)
  .of (Station.setFlag false)
  match Parameters.load store with
  | .error fault =>
    .of (Station.enter .faulted)
    .of (.fail fault)
  | .ok parameters =>
    match ← (sequence world limits parameters).attempt with
    | .ok report =>
      .of (Station.enter .homed)
      return report
    | .error fault =>
      .of Station.abandon
      .of (Station.enter .faulted)
      .of (.fail fault)

end Surrounded

open Surrounded

variable {parameters : Parameters}

private theorem seekSwitch_returns (valid : limits.validate = .ok ()) (parameters : Parameters) : Returns
    ⟨limits.timeoutMs ⌈/⌉ limits.pollMs, 0⟩
    (fun effort ms => effort.steps = 0 ∧ ms = effort.polls * limits.pollMs ∧
      ms < limits.timeoutMs + limits.pollMs)
    (seekSwitch world limits parameters) := by
  -- Everything before the search returns without polls or steps.
  refine returns_after fun _ => returns_after fun _ => returns_after fun _ => returns_after fun _ => ?_
  refine returns_after fun _ => returns_after fun _ => returns_after fun _ => ?_
  exact returns_on (seeks_returns valid)

private theorem debounce_returns (parameters : Parameters) :
    Returns 0 (fun effort _ => effort = 0) (debounce world parameters) := by
  refine returns_after fun _ => returns_after fun _ => ?_
  refine returns_after fun _ => returns_after fun _ => ?_
  exact returns_of _

private theorem pullOff_returns (limits : Limits) (parameters : Parameters) :
    Returns ⟨0, limits.releaseSteps⟩ (fun effort n => effort.polls = 0 ∧ n = effort.steps)
      (pullOff world limits parameters) := by
  refine returns_after fun _ => ?_
  change Returns (⟨0, limits.releaseSteps⟩ + 0) _ _
  refine returns_bind (returns_on releases_returns) fun _ _ counted => ?_
  refine returns_after fun _ => returns_after fun _ => ?_
  refine returns_after fun _ => returns_after fun _ => ?_
  exact returns_pure counted

structure Accounted (limits : Limits) (effort : Effort) (report : Report) : Prop where
  seek : report.seekMs = effort.polls * limits.pollMs
  early : report.seekMs < limits.timeoutMs + limits.pollMs
  release : report.releaseSteps = effort.steps

private theorem sequence_returns (valid : limits.validate = .ok ()) (parameters : Parameters) : Returns
    ⟨limits.timeoutMs ⌈/⌉ limits.pollMs, limits.releaseSteps⟩ (Accounted limits)
    (sequence world limits parameters) := by
  have whole : Effort.mk (limits.timeoutMs ⌈/⌉ limits.pollMs) 0 +
      (0 + (⟨0, limits.releaseSteps⟩ + 0)) = ⟨limits.timeoutMs ⌈/⌉ limits.pollMs, limits.releaseSteps⟩ := by
    rw [Effort.zero_add]
    exact congrArg (Effort.mk _) (Nat.zero_add _)
  rw [← whole]
  refine returns_bind (seekSwitch_returns valid parameters) fun sought ms searched => ?_
  refine returns_bind (debounce_returns parameters) fun rested _ idle => ?_
  refine returns_bind (pullOff_returns limits parameters) fun pulled steps released => ?_
  refine returns_pure ?_
  obtain ⟨unstepped, took, early⟩ := searched
  obtain ⟨unpolled, counted⟩ := released
  subst idle
  rw [Effort.zero_add]
  refine ⟨?_, early, ?_⟩
  · change ms = (sought.polls + (pulled.polls + 0)) * limits.pollMs
    rw [took, unpolled]
    rfl
  · change steps = sought.steps + (pulled.steps + 0)
    rw [counted, unstepped, Nat.zero_add]
    rfl

/-- Homing among any surroundings has exactly one run from any state. -/
theorem surrounded_returns (valid : limits.validate = .ok ()) (world : Platform → Platform)
    (store : Setting.Store) : Returns
    ⟨limits.timeoutMs ⌈/⌉ limits.pollMs, limits.releaseSteps⟩ (Accounted limits)
    (Surrounded.home world limits store) := by
  refine returns_after fun _ => returns_after fun _ => ?_
  cases Parameters.load store with
  | error fault =>
    refine returns_after fun _ => ?_
    exact returns_fail fault
  | ok parameters =>
    dsimp only
    rw [← Effort.add_zero ⟨_, _⟩]
    refine returns_bind (returns_attempt (sequence_returns valid parameters)) fun effort result told => ?_
    cases result with
    | ok report =>
      refine returns_after fun _ => ?_
      exact returns_pure (told report rfl)
    | error fault =>
      refine returns_after fun _ => returns_after fun _ => ?_
      exact returns_fail fault

private theorem follows_onPlatform {α : Type} {process : Process Platform HomingFault α}
    {action : Action Platform HomingFault α} (follows : Follows process action) :
    Follows (onPlatform process) (Station.onPlatform action) := by
  intro s
  obtain ⟨effort, ran⟩ := follows s.drives.platform
  exact ⟨effort, .ran ran⟩

private theorem sequence_follows (valid : limits.validate = .ok ()) (parameters : Parameters) :
    Follows (sequence id limits parameters) (Station.sequence limits parameters) := by
  obtain ⟨some, _, _⟩ := validate_ok valid
  have enough := polls_enough some
  have few := polls_few some
  have seeking : Follows (Seeks id limits 0) (seek limits limits.polls 0) :=
    seek_seeks (by omega) (by omega)
  have releasing : Follows (Releases id limits 0) (release limits.releaseSteps 0) :=
    release_releases (Nat.zero_add _)
  have sought : Follows (seekSwitch id limits parameters) (Station.seekSwitch limits parameters) := by
    refine follows_after fun _ => follows_after fun _ => follows_after fun _ => follows_after fun _ => ?_
    refine follows_after fun _ => follows_after fun _ => follows_after fun _ => ?_
    exact follows_onPlatform seeking
  have rested : Follows (debounce id parameters) (Station.debounce parameters) := by
    refine follows_after fun _ => follows_after fun _ => ?_
    refine follows_after fun _ => follows_after fun _ => ?_
    exact follows_of _
  have pulled : Follows (pullOff id limits parameters) (Station.pullOff limits parameters) := by
    refine follows_after fun _ => ?_
    refine follows_bind (follows_onPlatform releasing) fun _ => ?_
    refine follows_after fun _ => follows_after fun _ => ?_
    refine follows_after fun _ => follows_after fun _ => ?_
    exact follows_of _
  refine follows_bind sought fun _ => ?_
  refine follows_bind rested fun _ => ?_
  refine follows_bind pulled fun _ => ?_
  exact follows_of _

/-- Where nothing else is at work, homing is one of these runs. -/
theorem home_follows (valid : limits.validate = .ok ()) (store : Setting.Store) :
    Follows (Surrounded.home id limits store) (Station.home limits store) := by
  refine follows_after fun _ => follows_after fun _ => ?_
  cases Parameters.load store with
  | error fault =>
    refine follows_after fun _ => ?_
    exact follows_of _
  | ok parameters =>
    refine follows_bind (follows_attempt (sequence_follows valid parameters)) fun result => ?_
    cases result with
    | ok report =>
      refine follows_after fun _ => ?_
      exact follows_of _
    | error fault =>
      refine follows_after fun _ => follows_after fun _ => ?_
      exact follows_of _

/-- With limits that pass their check homing returns, whatever the hardware does meanwhile. It polls for no
longer than the time that it has for the search and makes no more steps than it may, and the time that it
reports is the time of its polls. -/
theorem home_returns (valid : limits.validate = .ok ()) (world : Platform → Platform)
    (store : Setting.Store) (s : Station) :
    ∃ effort result t, Surrounded.home world limits store s effort (result, t) ∧
      (∀ effort' outcome, Surrounded.home world limits store s effort' outcome →
        effort' = effort ∧ outcome = (result, t)) ∧
      effort.polls ≤ limits.timeoutMs ⌈/⌉ limits.pollMs ∧ effort.steps ≤ limits.releaseSteps ∧
      (∀ report, result = .ok report → Accounted limits effort report) ∧
      (world = id → (Station.home limits store).run s = (result, t)) := by
  obtain ⟨effort, result, t, ran, ⟨polls, steps⟩, answers, only⟩ :=
    surrounded_returns valid world store s
  refine ⟨effort, result, t, ran, only, polls, steps, answers, ?_⟩
  rintro rfl
  obtain ⟨_, also⟩ := home_follows valid store s
  exact (only _ _ also).2

def stuck : Station :=
  ⟨{ waiting.drives with platform := waiting.drives.platform.overrideLevel (some true) }, .idle⟩

theorem waiting_returns :
    (∃ t, Surrounded.home id Machine.bench.limits Machine.bench.store waiting ⟨1, 6⟩
        (.ok ⟨104, 100, 6, 250⟩, t)) ∧
      ∃ effort t, effort.polls ≤ 20 ∧ effort.steps ≤ 10 ∧
        Surrounded.home id Machine.bench.limits Machine.bench.store stuck effort
          (.error (.stillActive 10), t) := by
  have valid : Machine.bench.limits.validate = .ok () := rfl
  constructor
  · obtain ⟨⟨polls, steps⟩, result, t, ran, _, _, _, accounted, same⟩ :=
      home_returns valid id Machine.bench.store waiting
    obtain ⟨rfl, rfl⟩ := Prod.mk.inj (waiting_homes.symm.trans (same rfl))
    obtain ⟨took, _, released⟩ := accounted _ rfl
    have took : 100 = polls * 100 := took
    obtain rfl : polls = 1 := by omega
    obtain rfl : 6 = steps := released
    exact ⟨_, ran⟩
  · obtain ⟨effort, result, t, ran, _, polls, steps, _, same⟩ :=
      home_returns valid id Machine.bench.store stuck
    have failed : ((Station.home Machine.bench.limits Machine.bench.store).run stuck).1 =
        .error (.stillActive 10) := by decide +kernel
    rw [same rfl] at failed
    obtain rfl : result = .error (.stillActive 10) := failed
    exact ⟨effort, t, polls, steps, ran⟩

end Cycle

end Homing

end Crawler

import Crawler.Hardware.Engine

/-! Where and when the move of an engine ends. Neither depends on the time of asking, so both outlive
every wait: a move is over from its end on, and ending it changes nothing that a query could tell. -/
namespace Crawler.Hardware

def Occurrence.Uneventful (what : Occurrence) : Prop :=
  what.startedMove? = none ∧ what.isDrop = false

namespace Engine

def Bounded (e : Engine) : Prop := ∀ r, e.motion ≠ .run r

def destination (e : Engine) : Int :=
  match e.motion with
  | .move m => m.origin + m.steps
  | _ => e.physical

def restPosition (e : Engine) : Int := e.destination - e.offset

def restTime (e : Engine) : Nat :=
  match e.motion with
  | .move m => m.finish
  | _ => 0

def SameMotion (e e' : Engine) : Prop :=
  e'.motion = e.motion ∧ e'.physical = e.physical ∧ e'.offset = e.offset

theorem bounded_of_idle {e : Engine} (idle : e.motion = .idle) : e.Bounded := by
  intro r running
  rw [idle] at running
  cases running

theorem bounded_of_move {e : Engine} {m : Move} (motion : e.motion = .move m) : e.Bounded := by
  intro r running
  rw [motion] at running
  cases running

instance (e : Engine) : Decidable e.Bounded :=
  match motion : e.motion with
  | .idle => .isTrue (bounded_of_idle motion)
  | .move _ => .isTrue (bounded_of_move motion)
  | .run r => .isFalse fun bounded => bounded r motion

theorem absoluteAt_of_sameMotion {e e' : Engine} (same : SameMotion e e') (now : Nat) :
    e'.absoluteAt now = e.absoluteAt now := by
  obtain ⟨motion, physical, _⟩ := same
  unfold absoluteAt
  rw [motion, physical]

theorem restTime_of_idle {e : Engine} (idle : e.motion = .idle) : e.restTime = 0 := by
  unfold restTime
  rw [idle]

theorem destination_of_idle {e : Engine} (idle : e.motion = .idle) : e.destination = e.physical := by
  unfold destination
  rw [idle]

theorem absoluteAt_of_idle {e : Engine} (idle : e.motion = .idle) (now : Nat) :
    e.absoluteAt now = e.physical := by
  unfold absoluteAt
  rw [idle]

theorem isMoving_eq_false {e : Engine} : e.isMoving = false ↔ e.motion = .idle := by
  unfold isMoving
  cases e.motion <;> simp

/-- From the end of its move on an engine stands at its destination. -/
theorem absoluteAt_of_over {e : Engine} {now : Nat} (bounded : e.Bounded) (past : e.restTime ≤ now) :
    e.absoluteAt now = e.destination := by
  unfold absoluteAt destination
  cases motion : e.motion with
  | idle => rfl
  | run r => exact absurd motion (bounded r)
  | move m =>
    have finished : m.finish ≤ now := by simpa [restTime, motion] using past
    simp only [Move.positionAt, finished, if_true]

theorem retire_of_over {e : Engine} {now : Nat} (bounded : e.Bounded) (past : e.restTime ≤ now) :
    e.retire now = { e with physical := e.destination, motion := .idle } := by
  have reached := absoluteAt_of_over bounded past
  unfold retire
  cases motion : e.motion with
  | idle =>
    cases e
    cases motion
    rfl
  | run r => exact absurd motion (bounded r)
  | move m =>
    have finished : m.finish ≤ now := by simpa [restTime, motion] using past
    simp only [finished, if_true, freeze, reached]

private theorem retire_of_lt {e : Engine} {now : Nat} (ahead : now < e.restTime) : e.retire now = e := by
  unfold retire
  cases motion : e.motion with
  | idle => rfl
  | run r => rfl
  | move m =>
    have unfinished : ¬ m.finish ≤ now := by simpa [restTime, motion] using ahead
    simp only [unfinished, if_false]

theorem retire_of_run {e : Engine} {r : Run} (running : e.motion = .run r) (now : Nat) :
    e.retire now = e := by
  unfold retire
  rw [running]

theorem retire_of_idle {e : Engine} (idle : e.motion = .idle) (now : Nat) : e.retire now = e := by
  unfold retire
  rw [idle]

theorem retire_cases {e : Engine} (bounded : e.Bounded) (now : Nat) :
    (e.restTime ≤ now ∧ e.retire now = { e with physical := e.destination, motion := .idle }) ∨
      (now < e.restTime ∧ e.retire now = e) := by
  rcases Nat.lt_or_ge now e.restTime with ahead | past
  · exact .inr ⟨ahead, retire_of_lt ahead⟩
  · exact .inl ⟨past, retire_of_over bounded past⟩

/-- Ending a move that is over changes nothing of where the engine is from then on. -/
theorem absoluteAt_retire_of_le (e : Engine) {now later : Nat} (le : now ≤ later) :
    (e.retire now).absoluteAt later = e.absoluteAt later := by
  cases motion : e.motion with
  | idle => rw [retire_of_idle motion]
  | run r => rw [retire_of_run motion]
  | move m =>
    have bounded := bounded_of_move motion
    rcases retire_cases bounded now with ⟨past, retired⟩ | ⟨_, same⟩
    · rw [retired, absoluteAt_of_over bounded (Nat.le_trans past le)]
      exact absoluteAt_of_idle rfl later
    · rw [same]

theorem absoluteAt_retire (e : Engine) (now : Nat) :
    (e.retire now).absoluteAt now = e.absoluteAt now := by
  exact e.absoluteAt_retire_of_le (Nat.le_refl now)

/-- A move that was ended before is not ended again. -/
theorem retire_retire_of_le (e : Engine) {now later : Nat} (le : now ≤ later) :
    (e.retire now).retire later = e.retire later := by
  cases motion : e.motion with
  | idle => rw [retire_of_idle motion]
  | run r => rw [retire_of_run motion]
  | move m =>
    have bounded := bounded_of_move motion
    rcases retire_cases bounded now with ⟨past, retired⟩ | ⟨_, same⟩
    · rw [retired, retire_of_over bounded (Nat.le_trans past le)]
      exact retire_of_idle rfl later
    · rw [same]

theorem retire_retire (e : Engine) (now : Nat) : (e.retire now).retire now = e.retire now := by
  exact e.retire_retire_of_le (Nat.le_refl now)

section Retire

variable (e : Engine) (now : Nat)

/-- Ending a move touches where the engine is and nothing else. -/
theorem retire_fields :
    e.retire now = { e with physical := (e.retire now).physical, motion := (e.retire now).motion } := by
  unfold retire freeze
  split
  · split <;> rfl
  · rfl

@[simp] theorem retire_offset : (e.retire now).offset = e.offset := by rw [retire_fields]

@[simp] theorem retire_name : (e.retire now).name = e.name := by rw [retire_fields]

@[simp] theorem retire_speed : (e.retire now).speed = e.speed := by rw [retire_fields]

@[simp] theorem retire_acceleration : (e.retire now).acceleration = e.acceleration := by
  rw [retire_fields]

@[simp] theorem retire_enabled : (e.retire now).enabled = e.enabled := by rw [retire_fields]

@[simp] theorem retire_nextFault : (e.retire now).nextFault = e.nextFault := by rw [retire_fields]

theorem freeze_retire : (e.retire now).freeze now = e.freeze now := by
  unfold freeze
  rw [absoluteAt_retire, retire_fields]

/-- An engine that does not move stays as it is when it is stopped. -/
theorem freeze_of_still (still : (e.retire now).isMoving = false) : e.freeze now = e.retire now := by
  have idle : (e.retire now).motion = .idle := isMoving_eq_false.mp still
  rw [← freeze_retire]
  unfold freeze
  rw [absoluteAt_of_idle idle, ← idle]

/-- What touches neither the place nor the motion of an engine can be done before or after. -/
theorem retire_comm (change : Engine → Engine)
    (apart : ∀ e x m, change { e with physical := x, motion := m } =
      { change e with physical := x, motion := m }) :
    (change e).retire now = change (e.retire now) := by
  have unmoved : change e = { change e with physical := e.physical, motion := e.motion } :=
    apart e e.physical e.motion
  have motion : (change e).motion = e.motion := by rw [unmoved]
  have still : (change e).retire now =
      { change e with physical := (e.retire now).physical, motion := (e.retire now).motion } := by
    unfold retire freeze absoluteAt
    rw [motion]
    cases moving : e.motion with
    | move m =>
      dsimp only
      split
      · rfl
      · exact unmoved
    | idle | run => exact unmoved
  rw [still, ← apart, ← retire_fields]

@[simp] theorem retire_destination : (e.retire now).destination = e.destination := by
  cases motion : e.motion with
  | run r => rw [retire_of_run motion]
  | idle => rw [retire_of_idle motion]
  | move m =>
    rcases retire_cases (bounded_of_move motion) now with ⟨_, retired⟩ | ⟨_, retired⟩
    · rw [retired]
      rfl
    · rw [retired]

@[simp] theorem retire_restPosition : (e.retire now).restPosition = e.restPosition := by
  unfold restPosition
  rw [retire_destination, retire_offset]

theorem retire_bounded {e : Engine} (bounded : e.Bounded) (now : Nat) : (e.retire now).Bounded := by
  rcases retire_cases bounded now with ⟨_, retired⟩ | ⟨_, retired⟩
  · rw [retired]
    exact bounded_of_idle rfl
  · rwa [retired]

end Retire

section Prepare

variable (e : Engine)

theorem setSpeed_sameMotion (hz : Float) : SameMotion e (setSpeed hz e).engine := by
  unfold setSpeed
  split <;> exact ⟨rfl, rfl, rfl⟩

theorem setSpeed_uneventful (hz : Float) : ∀ what ∈ (setSpeed hz e).occurrence, what.Uneventful := by
  unfold setSpeed
  split
  · rintro what ⟨⟩
    exact ⟨rfl, rfl⟩
  · exact nofun

theorem setSpeed_ok {hz : Float} (fit : (setSpeed hz e).result = .ok ()) :
    isSpeed hz = true ∧ (setSpeed hz e).engine = { e with speed := hz } := by
  unfold setSpeed at fit ⊢
  split at fit
  · next speed =>
    rw [if_pos speed]
    exact ⟨speed, rfl⟩
  · cases fit

theorem setAcceleration_sameMotion (x : Float) : SameMotion e (setAcceleration x e).engine := by
  unfold setAcceleration
  split <;> exact ⟨rfl, rfl, rfl⟩

theorem setAcceleration_uneventful (x : Float) :
    ∀ what ∈ (setAcceleration x e).occurrence, what.Uneventful := by
  unfold setAcceleration
  split
  · rintro what ⟨⟩
    exact ⟨rfl, rfl⟩
  · exact nofun

theorem setAcceleration_ok {x : Float} (fit : (setAcceleration x e).result = .ok ()) :
    isSpeed x = true ∧ (setAcceleration x e).engine = { e with acceleration := x } := by
  unfold setAcceleration at fit ⊢
  split at fit
  · next speed =>
    rw [if_pos speed]
    exact ⟨speed, rfl⟩
  · cases fit

theorem enable_sameMotion : SameMotion e (enable e).engine := by
  unfold enable
  split <;> exact ⟨rfl, rfl, rfl⟩

theorem enable_uneventful : ∀ what ∈ (enable e).occurrence, what.Uneventful := by
  unfold enable
  split
  · exact nofun
  · rintro what ⟨⟩
    exact ⟨rfl, rfl⟩

theorem enable_result : (enable e).result = .ok () := by
  unfold enable
  split <;> rfl

theorem enable_enabled : (enable e).engine.enabled = true := by
  unfold enable
  split
  · next powered => exact powered
  · rfl

end Prepare

def started (steps : Int) (now : Nat) (e : Engine) : Engine :=
  { e with
    motion := .move ⟨now, e.physical, steps, e.speed, e.acceleration, e.moveDuration steps⟩ }

structure Fit (e : Engine) : Prop where
  idle : e.motion = .idle
  powered : e.enabled = true
  faultless : e.nextFault = none
  quick : ¬ e.speed ≤ 0

theorem startMove_of_fit {e : Engine} (fit : e.Fit) {steps : Int} (some_steps : steps ≠ 0) (now : Nat) :
    startMove steps now e = ⟨e.started steps now, some (.moveStarted steps e.speed), .ok ()⟩ := by
  have still : e.isMoving = false := isMoving_eq_false.mpr fit.idle
  unfold startMove
  rw [retire_of_idle fit.idle]
  simp only [started, fit.powered, fit.faultless, some_steps, still, fit.quick, Bool.not_true,
    Bool.false_eq_true, if_false]

/-- An engine at rest carries out a move or refuses it; it never drops one. -/
theorem startMove_cases {e : Engine} (idle : e.motion = .idle) {steps : Int} (some_steps : steps ≠ 0)
    (now : Nat) :
    (e.Fit ∧
        startMove steps now e =
          ⟨e.started steps now, some (.moveStarted steps e.speed), .ok ()⟩) ∨
      ∃ e' occurrence fault, startMove steps now e = ⟨e', occurrence, .error fault⟩ ∧
        SameMotion e e' ∧ ∀ what ∈ occurrence, what.Uneventful := by
  cases powered : e.enabled with
  | false =>
    refine .inr ⟨e, none, .unpowered e.name, ?_, ⟨rfl, rfl, rfl⟩, nofun⟩
    unfold startMove
    simp [retire_of_idle idle, powered]
  | true =>
    cases faultless : e.nextFault with
    | some reason =>
      refine .inr ⟨{ e with nextFault := none }, some (.moveRejected steps), .moveRejected e.name reason,
        ?_, ⟨rfl, rfl, rfl⟩, ?_⟩
      · unfold startMove
        simp [retire_of_idle idle, powered, faultless]
      · rintro what ⟨⟩
        exact ⟨rfl, rfl⟩
    | none =>
      by_cases slow : e.speed ≤ 0
      · refine .inr ⟨e, none, .speedNotSet e.name, ?_, ⟨rfl, rfl, rfl⟩, nofun⟩
        unfold startMove
        simp [retire_of_idle idle, powered, faultless, some_steps, isMoving_eq_false.mpr idle, slow]
      · have fit : e.Fit := ⟨idle, powered, faultless, slow⟩
        exact .inl ⟨fit, startMove_of_fit fit some_steps now⟩

@[simp] theorem started_destination (e : Engine) (steps : Int) (now : Nat) :
    (e.started steps now).destination = e.physical + steps := rfl

@[simp] theorem started_offset (e : Engine) (steps : Int) (now : Nat) :
    (e.started steps now).offset = e.offset := rfl

theorem started_bounded (e : Engine) (steps : Int) (now : Nat) : (e.started steps now).Bounded := by
  exact bounded_of_move rfl

theorem disable_physical (e : Engine) (now : Nat) :
    (disable now e).engine.physical = e.absoluteAt now := by
  unfold disable
  dsimp only
  split <;> rfl

end Engine

end Crawler.Hardware

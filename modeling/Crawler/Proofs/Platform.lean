import Crawler.Hardware.Platform
import Crawler.Proofs.Action
import Crawler.Proofs.Engine

/-! What the operations of the platform leave alone. An operation of one engine touches that engine
and its log; a wait moves the clock and serves the limit switch, and no engine is touched by either. -/
namespace Crawler.Hardware.Platform

open Crawler.Action

def Bounded (p : Platform) : Prop := ∀ a, (p.engine a).Bounded

variable (p : Platform) (a : Axis)

section Clock

private theorem tell_fields (handler : Handler) :
    (p.tell handler).now = p.now ∧ (p.tell handler).engines = p.engines ∧
      (p.tell handler).logs = p.logs ∧ (p.tell handler).eventCount = p.eventCount ∧
      (p.tell handler).limit.trigger = p.limit.trigger ∧
      (p.tell handler).limit.levelOverride = p.limit.levelOverride := by
  cases handler <;> exact ⟨rfl, rfl, rfl, rfl, rfl, rfl⟩

theorem serve_fields (edge : Bool) :
    (p.serve edge).now = p.now ∧ (p.serve edge).engines = p.engines ∧
      (p.serve edge).logs = p.logs ∧ (p.serve edge).eventCount = p.eventCount ∧
      (p.serve edge).limit.trigger = p.limit.trigger ∧
      (p.serve edge).limit.levelOverride = p.limit.levelOverride := by
  unfold serve
  split
  · exact ⟨rfl, rfl, rfl, rfl, rfl, rfl⟩
  · split
    · exact tell_fields p _
    · exact ⟨rfl, rfl, rfl, rfl, rfl, rfl⟩

@[simp] theorem serve_now (edge : Bool) : (p.serve edge).now = p.now := by
  obtain ⟨now, _⟩ := p.serve_fields edge
  exact now

@[simp] theorem serve_engines (edge : Bool) : (p.serve edge).engines = p.engines := by
  obtain ⟨_, engines, _⟩ := p.serve_fields edge
  exact engines

@[simp] theorem serve_logs (edge : Bool) : (p.serve edge).logs = p.logs := by
  obtain ⟨_, _, logs, _⟩ := p.serve_fields edge
  exact logs

@[simp] theorem serve_trigger (edge : Bool) : (p.serve edge).limit.trigger = p.limit.trigger := by
  obtain ⟨_, _, _, _, trigger, _⟩ := p.serve_fields edge
  exact trigger

@[simp] theorem serve_levelOverride (edge : Bool) :
    (p.serve edge).limit.levelOverride = p.limit.levelOverride := by
  obtain ⟨_, _, _, _, _, level⟩ := p.serve_fields edge
  exact level

theorem serve_unarmed {p : Platform} (unarmed : p.limit.armed = none) (edge : Bool) :
    p.serve edge = p := by
  unfold serve
  rw [unarmed]

variable (us : Nat)

theorem advance_unarmed {p : Platform} (unarmed : p.limit.armed = none) :
    p.advance us = { p with now := p.now + us } := by
  exact serve_unarmed (p := { p with now := p.now + us }) unarmed false

@[simp] theorem advance_now : (p.advance us).now = p.now + us := by
  unfold advance
  rw [serve_now]

@[simp] theorem advance_engines : (p.advance us).engines = p.engines := by
  unfold advance
  rw [serve_engines]

@[simp] theorem advance_logs : (p.advance us).logs = p.logs := by
  unfold advance
  rw [serve_logs]

@[simp] theorem advance_trigger : (p.advance us).limit.trigger = p.limit.trigger := by
  unfold advance
  rw [serve_trigger]

@[simp] theorem advance_levelOverride :
    (p.advance us).limit.levelOverride = p.limit.levelOverride := by
  unfold advance
  rw [serve_levelOverride]

@[simp] theorem advanceUntil_now : (p.advanceUntil us).now = max p.now us := by
  unfold advanceUntil
  split
  · rw [advance_now]
    omega
  · omega

@[simp] theorem advanceUntil_engines : (p.advanceUntil us).engines = p.engines := by
  unfold advanceUntil
  split
  · exact p.advance_engines _
  · rfl

@[simp] theorem advanceUntil_logs : (p.advanceUntil us).logs = p.logs := by
  unfold advanceUntil
  split
  · exact p.advance_logs _
  · rfl

@[simp] theorem advanceUntil_trigger : (p.advanceUntil us).limit.trigger = p.limit.trigger := by
  unfold advanceUntil
  split
  · exact p.advance_trigger _
  · rfl

@[simp] theorem advanceUntil_levelOverride :
    (p.advanceUntil us).limit.levelOverride = p.limit.levelOverride := by
  unfold advanceUntil
  split
  · exact p.advance_levelOverride _
  · rfl

variable {p}

theorem advanceUntil_keeps {P : Platform → Prop} (advanced : ∀ us p, P p → P (p.advance us))
    (held : P p) : P (p.advanceUntil us) := by
  unfold advanceUntil
  split
  · exact advanced _ p held
  · exact held

end Clock

section Engage

/-- An engine that is put where it is. -/
theorem set_engine : { p with engines := p.engines.set a (p.engine a) } = p := by
  exact congrArg (fun engines => { p with engines }) (PerAxis.set_get p.engines a)

def commit {α : Type} (outcome : Engine.Outcome α) : Platform :=
  let p := { p with engines := p.engines.set a outcome.engine }
  match outcome.occurrence with
  | none => p
  | some what => p.note a what

theorem run_engage {α : Type} (op : Nat → Engine → Engine.Outcome α) :
    (engage a op).run p = ((op p.now (p.engine a)).result, p.commit a (op p.now (p.engine a))) := by
  change engage a op p = _
  unfold engage commit engine
  dsimp only
  cases (op p.now (p.engines.get a)).occurrence <;> rfl

variable {α : Type} (outcome : Engine.Outcome α)

private theorem commit_fields :
    (p.commit a outcome).now = p.now ∧ (p.commit a outcome).limit = p.limit ∧
      (p.commit a outcome).homingSignal = p.homingSignal ∧
      (p.commit a outcome).engines = p.engines.set a outcome.engine := by
  unfold commit
  cases outcome.occurrence <;> exact ⟨rfl, rfl, rfl, rfl⟩

@[simp] theorem commit_now : (p.commit a outcome).now = p.now := by
  obtain ⟨now, _⟩ := p.commit_fields a outcome
  exact now

@[simp] theorem commit_limit : (p.commit a outcome).limit = p.limit := by
  obtain ⟨_, limit, _⟩ := p.commit_fields a outcome
  exact limit

@[simp] theorem commit_homingSignal : (p.commit a outcome).homingSignal = p.homingSignal := by
  obtain ⟨_, _, signal, _⟩ := p.commit_fields a outcome
  exact signal

@[simp] theorem commit_engine : (p.commit a outcome).engine a = outcome.engine := by
  unfold engine
  rw [(p.commit_fields a outcome).2.2.2, PerAxis.get_set_self]

theorem commit_engine_of_ne {b : Axis} (other : b ≠ a) : (p.commit a outcome).engine b = p.engine b := by
  unfold engine
  rw [(p.commit_fields a outcome).2.2.2, PerAxis.get_set_of_ne _ _ other]

theorem commit_log_of_ne {b : Axis} (other : b ≠ a) : (p.commit a outcome).log b = p.log b := by
  unfold commit
  cases outcome.occurrence with
  | none => rfl
  | some what => exact PerAxis.get_modify_of_ne _ _ other

def entry (what : Option Occurrence) : List Event := (what.map (⟨p.eventCount, p.now, ·⟩)).toList

@[simp] theorem commit_log :
    ((p.commit a outcome).log a).toList = (p.log a).toList ++ p.entry outcome.occurrence := by
  unfold commit entry
  cases outcome.occurrence with
  | none => simp [log]
  | some what =>
    have pushed := PerAxis.get_modify_self p.logs a (·.push ⟨p.eventCount, p.now, what⟩)
    change ((p.logs.modify a (·.push ⟨p.eventCount, p.now, what⟩)).get a).toList = _
    rw [pushed]
    simp [log]

end Engage

section Retire

@[simp] theorem retire_now : (p.retire a).now = p.now := rfl

@[simp] theorem retire_limit : (p.retire a).limit = p.limit := rfl

@[simp] theorem retire_log (b : Axis) : (p.retire a).log b = p.log b := rfl

@[simp] theorem retire_engine : (p.retire a).engine a = (p.engine a).retire p.now := by
  exact PerAxis.get_modify_self _ _ _

theorem retire_engine_of_ne {b : Axis} (other : b ≠ a) : (p.retire a).engine b = p.engine b := by
  exact PerAxis.get_modify_of_ne _ _ other

theorem retire_engine_cases (b : Axis) :
    (p.retire a).engine b = p.engine b ∨ (p.retire a).engine b = (p.engine b).retire p.now := by
  by_cases same : b = a
  · subst same
    exact .inr (p.retire_engine b)
  · exact .inl (p.retire_engine_of_ne a same)

theorem run_queryMoving {ε : Type} :
    (queryMoving a : Action Platform ε Bool).run p =
      (.ok ((p.engine a).retire p.now).isMoving, p.retire a) := by
  change (Except.ok ((p.retire a).engine a).isMoving, p.retire a) = _
  rw [retire_engine]

theorem retire_eq_self (unchanged : (p.engine a).retire p.now = p.engine a) : p.retire a = p := by
  unfold retire
  rw [PerAxis.modify_eq_set]
  change { p with engines := p.engines.set a ((p.engine a).retire p.now) } = p
  rw [unchanged, set_engine]

end Retire

section AwaitEnd

def awaited : Platform :=
  if p.now < (p.engine a).restTime then
    ((p.note a .waitedIdle).advanceUntil (p.engine a).restTime).retire a
  else p.retire a

theorem run_awaitEnd (bounded : (p.engine a).Bounded) :
    (awaitEnd a).run p = (.ok (), p.awaited a) := by
  unfold awaitEnd awaited
  rcases Engine.retire_cases bounded p.now with ⟨past, retired⟩ | ⟨ahead, retired⟩
  · have asked : (engage a Engine.beginWait).run p = (.ok none, p.retire a) := by
      rw [run_engage]
      have outcome : Engine.beginWait p.now (p.engine a) =
          ⟨(p.engine a).retire p.now, none, .ok none⟩ := by
        unfold Engine.beginWait
        rw [retired]
      rw [outcome]
      unfold commit retire
      rw [PerAxis.modify_eq_set]
      rfl
    rw [run_bind_ok asked, if_neg (by omega)]
    rfl
  · cases motion : (p.engine a).motion with
    | idle => simp [Engine.restTime, motion] at ahead
    | run r => exact absurd motion (bounded r)
    | move m =>
      have finish : (p.engine a).restTime = m.finish := by simp [Engine.restTime, motion]
      have asked : (engage a Engine.beginWait).run p = (.ok (some m.finish), p.note a .waitedIdle) := by
        rw [run_engage]
        have outcome : Engine.beginWait p.now (p.engine a) =
            ⟨p.engine a, some .waitedIdle, .ok (some m.finish)⟩ := by
          unfold Engine.beginWait
          simp only [retired, motion]
        rw [outcome]
        unfold commit
        rw [set_engine]
      rw [run_bind_ok asked, if_pos ahead, finish]
      rfl

variable {p a}

@[simp] theorem awaited_now : (p.awaited a).now = max p.now (p.engine a).restTime := by
  unfold awaited
  split
  · rw [retire_now, advanceUntil_now]
    rfl
  · rw [retire_now]
    omega

theorem awaited_engine (bounded : (p.engine a).Bounded) :
    (p.awaited a).engine a =
      { p.engine a with physical := (p.engine a).destination, motion := .idle } := by
  unfold awaited
  split
  · next ahead =>
    rw [retire_engine]
    change (((p.note a .waitedIdle).advanceUntil _).engines.get a).retire _ = _
    rw [advanceUntil_engines]
    change (p.engine a).retire _ = _
    apply Engine.retire_of_over bounded
    rw [advanceUntil_now]
    exact Nat.le_max_right _ _
  · next past =>
    rw [retire_engine]
    exact Engine.retire_of_over bounded (by omega)

theorem awaited_engine_of_ne {b : Axis} (other : b ≠ a) : (p.awaited a).engine b = p.engine b := by
  unfold awaited
  split
  · rw [retire_engine_of_ne _ _ other]
    change ((p.note a .waitedIdle).advanceUntil _).engines.get b = _
    rw [advanceUntil_engines]
    rfl
  · exact p.retire_engine_of_ne a other

theorem awaited_log_of_ne {b : Axis} (other : b ≠ a) : (p.awaited a).log b = p.log b := by
  unfold awaited
  split
  · rw [retire_log]
    change ((p.note a .waitedIdle).advanceUntil _).logs.get b = _
    rw [advanceUntil_logs]
    exact PerAxis.get_modify_of_ne _ _ other
  · rfl

theorem awaited_log :
    ((p.awaited a).log a).toList = (p.log a).toList ++
      p.entry (if p.now < (p.engine a).restTime then some .waitedIdle else none) := by
  unfold awaited
  split
  · rw [retire_log]
    change (((p.note a .waitedIdle).advanceUntil _).logs.get a).toList = _
    rw [advanceUntil_logs]
    change ((p.logs.modify a (·.push ⟨p.eventCount, p.now, .waitedIdle⟩)).get a).toList = _
    rw [PerAxis.get_modify_self]
    simp [entry, log]
  · simp [entry]

@[simp] theorem awaited_trigger : (p.awaited a).limit.trigger = p.limit.trigger := by
  unfold awaited
  split
  · rw [retire_limit, advanceUntil_trigger]
    rfl
  · rfl

@[simp] theorem awaited_levelOverride :
    (p.awaited a).limit.levelOverride = p.limit.levelOverride := by
  unfold awaited
  split
  · rw [retire_limit, advanceUntil_levelOverride]
    rfl
  · rfl

theorem run_awaitEnd_of_run {r : Run} (running : (p.engine a).motion = .run r) :
    (awaitEnd a).run p = (.error (.endlessWait (p.engine a).name), p) := by
  have asked : (engage a Engine.beginWait).run p =
      (.error (.endlessWait (p.engine a).name), p) := by
    rw [run_engage]
    have outcome : Engine.beginWait p.now (p.engine a) =
        ⟨p.engine a, none, .error (.endlessWait (p.engine a).name)⟩ := by
      unfold Engine.beginWait
      simp only [Engine.retire_of_run running, running]
    rw [outcome]
    exact congrArg (Prod.mk (Except.error _)) (p.set_engine a)
  unfold awaitEnd
  rw [run_bind_error asked]

/-- What the parts of a wait keep is kept by the wait, whether it ends or not. -/
theorem preserves_awaitEnd {P : Platform → Prop} (engaged : Preserves P (engage a Engine.beginWait))
    (advanced : ∀ us p, P p → P (p.advance us)) (retired : ∀ p, P p → P (p.retire a)) :
    Preserves P (awaitEnd a) := by
  refine preserves_bind engaged fun finish => ?_
  cases finish with
  | none => exact preserves_pure ()
  | some finish =>
    refine preserves_bind (preserves_modify fun _ => advanceUntil_keeps finish advanced) fun _ => ?_
    exact preserves_modify retired

end AwaitEnd

section Settled

def OnlyAt (a : Axis) (p q : Platform) : Prop := ∀ b ≠ a, q.engine b = p.engine b ∧ q.log b = p.log b

def Quiet (a : Axis) (p q : Platform) : Prop :=
  ∃ added, (q.log a).toList = (p.log a).toList ++ added ∧ ∀ event ∈ added, event.what.Uneventful

structure Settled (a : Axis) (p q : Platform) : Prop where
  elsewhere : OnlyAt a p q
  quiet : Quiet a p q
  now : q.now = max p.now (p.engine a).restTime
  idle : (q.engine a).motion = .idle
  physical : (q.engine a).physical = (p.engine a).destination
  offset : (q.engine a).offset = (p.engine a).offset

variable {p a} {q r : Platform}

theorem onlyAt_refl (a : Axis) (p : Platform) : OnlyAt a p p := by
  intro b _
  exact ⟨rfl, rfl⟩

theorem onlyAt_trans (first : OnlyAt a p q) (second : OnlyAt a q r) : OnlyAt a p r := by
  intro b other
  obtain ⟨engine₁, log₁⟩ := first b other
  obtain ⟨engine₂, log₂⟩ := second b other
  exact ⟨engine₂.trans engine₁, log₂.trans log₁⟩

theorem quiet_trans (first : Quiet a p q) (second : Quiet a q r) : Quiet a p r := by
  obtain ⟨new₁, log₁, quiet₁⟩ := first
  obtain ⟨new₂, log₂, quiet₂⟩ := second
  refine ⟨new₁ ++ new₂, by rw [log₂, log₁, List.append_assoc], ?_⟩
  intro event member
  rcases List.mem_append.mp member with earlier | later
  · exact quiet₁ event earlier
  · exact quiet₂ event later

private theorem uneventful_entry {what : Option Occurrence} (quiet : ∀ w ∈ what, w.Uneventful) :
    ∀ event ∈ p.entry what, event.what.Uneventful := by
  intro event member
  cases what with
  | none => simp [entry] at member
  | some w =>
    have same : event = ⟨p.eventCount, p.now, w⟩ := by simpa [entry] using member
    rw [same]
    exact quiet w rfl

theorem commit_onlyAt {α : Type} (outcome : Engine.Outcome α) : OnlyAt a p (p.commit a outcome) := by
  intro b other
  exact ⟨p.commit_engine_of_ne a outcome other, p.commit_log_of_ne a outcome other⟩

theorem commit_quiet {α : Type} {outcome : Engine.Outcome α}
    (quiet : ∀ what ∈ outcome.occurrence, what.Uneventful) :
    Quiet a p (p.commit a outcome) := by
  refine ⟨_, p.commit_log a outcome, ?_⟩
  exact uneventful_entry quiet

theorem awaited_onlyAt : OnlyAt a p (p.awaited a) := by
  intro b other
  exact ⟨awaited_engine_of_ne other, awaited_log_of_ne other⟩

theorem awaited_quiet : Quiet a p (p.awaited a) := by
  refine ⟨_, awaited_log, uneventful_entry ?_⟩
  intro what written
  split at written
  · cases written
    exact ⟨rfl, rfl⟩
  · cases written

theorem awaited_settled (bounded : (p.engine a).Bounded) : Settled a p (p.awaited a) := by
  have past := awaited_engine bounded
  refine ⟨awaited_onlyAt, awaited_quiet, awaited_now, ?_, ?_, ?_⟩ <;> rw [past]

theorem commit_settled {α : Type} {outcome : Engine.Outcome α} (settled : Settled a p q)
    (same : Engine.SameMotion (q.engine a) outcome.engine)
    (quiet : ∀ what ∈ outcome.occurrence, what.Uneventful) :
    Settled a p (q.commit a outcome) := by
  obtain ⟨motion, physical, offset⟩ := same
  refine ⟨onlyAt_trans settled.elsewhere (commit_onlyAt outcome),
    quiet_trans settled.quiet (commit_quiet quiet), ?_, ?_, ?_, ?_⟩
  · rw [commit_now, settled.now]
  · rw [commit_engine, motion, settled.idle]
  · rw [commit_engine, physical, settled.physical]
  · rw [commit_engine, offset, settled.offset]

theorem settled_restPosition (settled : Settled a p q) :
    (q.engine a).restPosition = (p.engine a).restPosition := by
  unfold Engine.restPosition
  rw [settled.offset, Engine.destination_of_idle settled.idle, settled.physical]

theorem settled_of_idle (idle : (p.engine a).motion = .idle) : Settled a p p := by
  have past : (p.engine a).restTime = 0 := Engine.restTime_of_idle idle
  exact ⟨onlyAt_refl a p, ⟨[], (List.append_nil _).symm, nofun⟩, by omega, idle,
    (Engine.destination_of_idle idle).symm, rfl⟩

theorem settled_trans (first : Settled a p q) (second : Settled a q r) : Settled a p r := by
  have past : (q.engine a).restTime = 0 := Engine.restTime_of_idle first.idle
  refine ⟨onlyAt_trans first.elsewhere second.elsewhere, quiet_trans first.quiet second.quiet, ?_,
    second.idle, ?_, ?_⟩
  · rw [second.now, past, first.now]
    omega
  · rw [second.physical, Engine.destination_of_idle first.idle, first.physical]
  · rw [second.offset, first.offset]

theorem awaited_of_idle (idle : (p.engine a).motion = .idle) : p.awaited a = p := by
  unfold awaited
  rw [Engine.restTime_of_idle idle, if_neg (by omega)]
  exact p.retire_eq_self a (Engine.retire_of_idle idle _)

end Settled

end Crawler.Hardware.Platform

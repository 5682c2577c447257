import Crawler.Hardware.Operation
import Crawler.Proofs.Platform

/-! The engines know where they are from when they started, and end a move only when they are looked at.
None of that can be told: a run answers the same however often the platform is looked at in between, and
however finely time passes while nobody is to be told of the limit switch. -/
namespace Crawler.Hardware

open Crawler.Action

namespace Engine

variable {α : Type} {now : Nat} {e f : Engine}

structure Tolerant (op : Nat → Engine → Outcome α) : Prop where
  result : ∀ now e, (op now (e.retire now)).result = (op now e).result
  occurrence : ∀ now e, (op now (e.retire now)).occurrence = (op now e).occurrence
  engine : ∀ now e, (op now (e.retire now)).engine.retire now = (op now e).engine.retire now

private theorem tolerant_of_retired {op : Nat → Engine → Outcome α}
    (same : ∀ now e, op now (e.retire now) = op now e) : Tolerant op where
  result now e := by rw [same]
  occurrence now e := by rw [same]
  engine now e := by rw [same]

private theorem startMove_tolerant (steps : Int) : Tolerant (startMove steps) := by
  refine tolerant_of_retired fun now e => ?_
  unfold startMove
  rw [retire_retire]

private theorem startRun_tolerant (direction : Sense) : Tolerant (startRun direction) := by
  refine tolerant_of_retired fun now e => ?_
  unfold startRun
  rw [freeze_retire]

private theorem beginWait_tolerant : Tolerant beginWait := by
  refine tolerant_of_retired fun now e => ?_
  unfold beginWait
  rw [retire_retire]

private theorem stop_tolerant : Tolerant stop := by
  refine tolerant_of_retired fun now e => ?_
  unfold stop
  rw [freeze_retire]

private theorem step_tolerant (direction : Sense) : Tolerant (step direction) := by
  refine tolerant_of_retired fun now e => ?_
  unfold step
  rw [retire_retire]

private theorem setPosition_tolerant (position : Int) : Tolerant (setPosition position) := by
  refine tolerant_of_retired fun now e => ?_
  unfold setPosition
  rw [freeze_retire]

private theorem disable_tolerant : Tolerant disable := by
  refine tolerant_of_retired fun now e => ?_
  unfold disable
  rw [freeze_retire]

private theorem tolerant_of_comm {op : Engine → Outcome α}
    (comm : ∀ now e, op (e.retire now) = { op e with engine := (op e).engine.retire now }) :
    Tolerant fun _ => op where
  result now e := by rw [comm]
  occurrence now e := by rw [comm]
  engine now e := by
    rw [comm]
    exact retire_retire _ now

private theorem setSpeed_tolerant (hz : Float) : Tolerant fun _ => setSpeed hz := by
  refine tolerant_of_comm fun now e => ?_
  have told : { e with speed := hz }.retire now = { e.retire now with speed := hz } :=
    retire_comm e now (fun e => { e with speed := hz }) fun _ _ _ => rfl
  unfold setSpeed
  split
  · rw [told]
  · rw [retire_name]

private theorem setAcceleration_tolerant (acceleration : Float) :
    Tolerant fun _ => setAcceleration acceleration := by
  refine tolerant_of_comm fun now e => ?_
  have told : { e with acceleration := acceleration }.retire now =
      { e.retire now with acceleration := acceleration } :=
    retire_comm e now (fun e => { e with acceleration := acceleration }) fun _ _ _ => rfl
  unfold setAcceleration
  split
  · rw [told]
  · rw [retire_name]

private theorem enable_tolerant : Tolerant fun _ => enable := by
  refine tolerant_of_comm fun now e => ?_
  have told : { e with enabled := true }.retire now = { e.retire now with enabled := true } :=
    retire_comm e now (fun e => { e with enabled := true }) fun _ _ _ => rfl
  unfold enable
  rw [retire_enabled]
  split
  · rfl
  · rw [told]

private theorem Tolerant.same {op : Nat → Engine → Outcome α} (tolerant : Tolerant op)
    (alike : f.retire now = e.retire now) :
    (op now f).result = (op now e).result ∧ (op now f).occurrence = (op now e).occurrence ∧
      (op now f).engine.retire now = (op now e).engine.retire now := by
  refine ⟨?_, ?_, ?_⟩
  · rw [← tolerant.result now f, alike, tolerant.result]
  · rw [← tolerant.occurrence now f, alike, tolerant.occurrence]
  · rw [← tolerant.engine now f, alike, tolerant.engine]

end Engine

namespace Platform

structure Alike (p q : Platform) : Prop where
  now : q.now = p.now
  eventCount : q.eventCount = p.eventCount
  logs : q.logs = p.logs
  limit : q.limit = p.limit
  homingSignal : q.homingSignal = p.homingSignal
  engines : ∀ a, (q.engine a).retire p.now = (p.engine a).retire p.now

section Alike

variable {p q r : Platform}

private theorem alike_refl (p : Platform) : Alike p p := by
  exact ⟨rfl, rfl, rfl, rfl, rfl, fun _ => rfl⟩

private theorem Alike.symm (alike : Alike p q) : Alike q p where
  now := alike.now.symm
  eventCount := alike.eventCount.symm
  logs := alike.logs.symm
  limit := alike.limit.symm
  homingSignal := alike.homingSignal.symm
  engines a := by rw [alike.now, alike.engines]

private theorem Alike.trans (first : Alike p q) (second : Alike q r) : Alike p r where
  now := second.now.trans first.now
  eventCount := second.eventCount.trans first.eventCount
  logs := second.logs.trans first.logs
  limit := second.limit.trans first.limit
  homingSignal := second.homingSignal.trans first.homingSignal
  engines a := by
    have later := second.engines a
    rw [first.now] at later
    rw [later, first.engines]

theorem retire_alike (p : Platform) (a : Axis) : Alike p (p.retire a) where
  now := rfl
  eventCount := rfl
  logs := rfl
  limit := rfl
  homingSignal := rfl
  engines b := by
    rcases p.retire_engine_cases a b with same | retired
    · rw [same]
    · rw [retired, Engine.retire_retire]

private theorem Alike.absoluteAt (alike : Alike p q) (a : Axis) {later : Nat} (le : p.now ≤ later) :
    (q.engine a).absoluteAt later = (p.engine a).absoluteAt later := by
  rw [← Engine.absoluteAt_retire_of_le (q.engine a) le, alike.engines,
    Engine.absoluteAt_retire_of_le _ le]

private theorem Alike.physical (alike : Alike p q) (a : Axis) : q.physical a = p.physical a := by
  unfold Platform.physical
  rw [alike.now, alike.absoluteAt a (Nat.le_refl _)]

/-- A field that ending a move leaves alone. -/
theorem Alike.field {α : Type} {field : Engine → α}
    (kept : ∀ (e : Engine) (now : Nat), field (e.retire now) = field e) (alike : Alike p q)
    (a : Axis) : field (q.engine a) = field (p.engine a) := by
  rw [← kept (q.engine a) p.now, alike.engines, kept]

private theorem Alike.position (alike : Alike p q) (a : Axis) : q.position a = p.position a := by
  have offset := alike.field (fun e now => e.retire_offset now) a
  unfold Platform.position Engine.positionAt
  rw [offset, alike.now, alike.absoluteAt a (Nat.le_refl _)]

private theorem Alike.log (alike : Alike p q) (a : Axis) : q.log a = p.log a := by
  unfold Platform.log
  rw [alike.logs]

theorem Alike.switchActive (alike : Alike p q) : q.switchActive = p.switchActive := by
  unfold Platform.switchActive
  rw [alike.limit, alike.physical]

private theorem Alike.commit {α : Type} {ours theirs : Engine.Outcome α} (alike : Alike p q) (a : Axis)
    (occurrence : theirs.occurrence = ours.occurrence)
    (engine : theirs.engine.retire p.now = ours.engine.retire p.now) :
    Alike (p.commit a ours) (q.commit a theirs) := by
  have engines : ∀ b, ((q.commit a theirs).engine b).retire p.now =
      ((p.commit a ours).engine b).retire p.now := by
    intro b
    by_cases here : b = a
    · subst here
      rw [commit_engine, commit_engine, engine]
    · rw [commit_engine_of_ne _ _ _ here, commit_engine_of_ne _ _ _ here, alike.engines]
  have written : (q.commit a theirs).eventCount = (p.commit a ours).eventCount ∧
      (q.commit a theirs).logs = (p.commit a ours).logs := by
    unfold Platform.commit note
    rw [occurrence]
    cases ours.occurrence with
    | none => exact ⟨alike.eventCount, alike.logs⟩
    | some what =>
      dsimp only
      rw [alike.eventCount, alike.logs, alike.now]
      exact ⟨rfl, rfl⟩
  refine ⟨?_, written.1, written.2, ?_, ?_, ?_⟩
  · rw [commit_now, commit_now, alike.now]
  · rw [commit_limit, commit_limit, alike.limit]
  · rw [commit_homingSignal, commit_homingSignal, alike.homingSignal]
  · rwa [commit_now]

private theorem Alike.tell (alike : Alike p q) (handler : Handler) :
    Alike (p.tell handler) (q.tell handler) := by
  obtain ⟨now, eventCount, logs, limit, signal, engines⟩ := alike
  cases handler with
  | homing => exact ⟨now, eventCount, logs, by unfold Platform.tell; rw [limit], rfl, engines⟩
  | observer id => exact ⟨now, eventCount, logs, by unfold Platform.tell; rw [limit], signal, engines⟩

private theorem Alike.serve (alike : Alike p q) (edge : Bool) : Alike (p.serve edge) (q.serve edge) := by
  unfold Platform.serve
  rw [alike.limit, alike.switchActive]
  split
  · exact alike
  · split
    · exact alike.tell _
    · exact alike

private theorem Alike.advance (alike : Alike p q) (us : Nat) : Alike (p.advance us) (q.advance us) := by
  have le : p.now ≤ p.now + us := Nat.le_add_right _ _
  have later : Alike { p with now := p.now + us } { q with now := q.now + us } := by
    refine { alike with now := congrArg (· + us) alike.now, engines := fun a => ?_ }
    change (q.engine a).retire (p.now + us) = (p.engine a).retire (p.now + us)
    rw [← Engine.retire_retire_of_le (q.engine a) le, alike.engines, Engine.retire_retire_of_le _ le]
  exact later.serve false

private theorem Alike.advanceUntil (alike : Alike p q) (us : Nat) :
    Alike (p.advanceUntil us) (q.advanceUntil us) := by
  unfold Platform.advanceUntil
  rw [alike.now]
  split
  · exact alike.advance _
  · exact alike

private theorem Alike.pass (alike : Alike p q) (passage : Passage) :
    Alike (passage.apply p) (passage.apply q) := by
  cases passage with
  | advance us => exact alike.advance us
  | advanceUntil us => exact alike.advanceUntil us
  | delay ms => exact alike.advance _

private theorem Alike.retire (alike : Alike p q) (a : Axis) : Alike (p.retire a) (q.retire a) := by
  have before := (p.retire_alike a).symm.trans alike
  exact before.trans (q.retire_alike a)

private theorem Alike.failNext (alike : Alike p q) (a : Axis) (reason : String) :
    Alike (p.failNext a reason) (q.failNext a reason) := by
  refine ⟨alike.now, alike.eventCount, alike.logs, alike.limit, alike.homingSignal, fun b => ?_⟩
  unfold Platform.failNext engine
  by_cases here : b = a
  · subst here
    have told : ∀ e : Engine, { e with nextFault := some reason }.retire p.now =
        { e.retire p.now with nextFault := some reason } := fun e =>
      e.retire_comm p.now (fun e => { e with nextFault := some reason }) fun _ _ _ => rfl
    have ended : (q.engines.get b).retire p.now = (p.engines.get b).retire p.now := alike.engines b
    rw [PerAxis.get_modify_self, PerAxis.get_modify_self, told, told, ended]
  · rw [PerAxis.get_modify_of_ne _ _ here, PerAxis.get_modify_of_ne _ _ here]
    exact alike.engines b

private theorem Alike.clearLog (alike : Alike p q) (a : Axis) : Alike (p.clearLog a) (q.clearLog a) := by
  have logs := congrArg (PerAxis.set · a #[]) alike.logs
  exact { alike with logs }

private theorem Alike.detach (alike : Alike p q) : Alike p.detach q.detach := by
  refine { alike with limit := ?_ }
  unfold Platform.detach
  rw [alike.limit]

private theorem Alike.overrideLevel (alike : Alike p q) (level : Option Bool) :
    Alike (p.overrideLevel level) (q.overrideLevel level) := by
  refine { alike with limit := ?_ }
  unfold Platform.overrideLevel
  rw [alike.limit]

end Alike

section Agreement

private theorem engage_agrees {α : Type} {op : Nat → Engine → Engine.Outcome α} (a : Axis)
    (tolerant : Engine.Tolerant op) : Agrees Alike (engage a op) := by
  intro p q alike
  obtain ⟨result, occurrence, engine⟩ := tolerant.same (alike.engines a)
  rw [run_engage, run_engage, alike.now]
  exact ⟨result.symm, alike.commit a occurrence engine⟩

private theorem queryMoving_agrees (a : Axis) :
    Agrees Alike (queryMoving a : Action Platform Fault Bool) := by
  intro p q alike
  rw [run_queryMoving, run_queryMoving, alike.now, alike.engines]
  exact ⟨rfl, alike.retire a⟩

private theorem awaitEnd_agrees (a : Axis) : Agrees Alike (awaitEnd a) := by
  refine agrees_bind (engage_agrees a Engine.beginWait_tolerant) fun finish => ?_
  cases finish with
  | none => exact agrees_pure _
  | some finish =>
    refine agrees_bind (agrees_modify fun _ _ alike => alike.advanceUntil finish) fun _ => ?_
    exact agrees_modify fun _ _ alike => alike.retire a

private theorem attach_agrees (handler : Handler) : Agrees Alike (attach handler) := by
  intro p q alike
  change (attach handler p).1 = (attach handler q).1 ∧ Alike (attach handler p).2 (attach handler q).2
  unfold attach
  rw [alike.limit]
  split
  · exact ⟨rfl, alike⟩
  · have armed : Alike { p with limit := { p.limit with armed := some handler } }
        { q with limit := { p.limit with armed := some handler } } := { alike with limit := rfl }
    exact ⟨rfl, armed.serve false⟩

private theorem takeNumber_agrees : Agrees Alike takeNumber := by
  intro p q alike
  refine ⟨congrArg Except.ok alike.eventCount.symm, ?_⟩
  exact { alike with eventCount := congrArg (· + 1) alike.eventCount }

private theorem tell_agrees {answer : Platform → Answer} (same : ∀ p q, Alike p q → answer q = answer p) :
    Agrees Alike (Query.ask.tell answer) := by
  intro p q alike
  exact ⟨congrArg Except.ok (same p q alike).symm, alike⟩

private theorem ask_agrees (query : Query) : Agrees Alike query.ask := by
  cases query with
  | now => exact tell_agrees fun _ _ alike => by rw [alike.now]
  | name a => exact tell_agrees fun _ _ alike => by rw [alike.field Engine.retire_name]
  | moving a => exact agrees_map (queryMoving_agrees a)
  | position a => exact tell_agrees fun _ _ alike => by rw [alike.position]
  | physical a => exact tell_agrees fun _ _ alike => by rw [alike.physical]
  | enabled a => exact tell_agrees fun _ _ alike => by rw [alike.field Engine.retire_enabled]
  | speed a => exact tell_agrees fun _ _ alike => by rw [alike.field Engine.retire_speed]
  | acceleration a => exact tell_agrees fun _ _ alike => by rw [alike.field Engine.retire_acceleration]
  | events a => exact tell_agrees fun _ _ alike => by rw [alike.log]
  | moves a => exact tell_agrees fun _ _ alike => by unfold moveHistory; rw [alike.log]
  | saw a wanted => exact tell_agrees fun _ _ alike => by rw [alike.log]
  | armed => exact tell_agrees fun _ _ alike => by rw [alike.limit]
  | active => exact tell_agrees fun _ _ alike => by rw [alike.switchActive]
  | served => exact tell_agrees fun _ _ alike => by rw [alike.limit]
  | trigger => exact tell_agrees fun _ _ alike => by rw [alike.limit]

private theorem call_agrees (a : Axis) (call : Engine.Call) : Agrees Alike (call.action a) := by
  cases call with
  | setSpeed hz => exact engage_agrees a (Engine.setSpeed_tolerant hz)
  | setAcceleration acceleration => exact engage_agrees a (Engine.setAcceleration_tolerant acceleration)
  | startMove steps => exact engage_agrees a (Engine.startMove_tolerant steps)
  | startRun direction => exact engage_agrees a (Engine.startRun_tolerant direction)
  | awaitEnd => exact awaitEnd_agrees a
  | stop => exact engage_agrees a Engine.stop_tolerant
  | step direction => exact engage_agrees a (Engine.step_tolerant direction)
  | setPosition position => exact engage_agrees a (Engine.setPosition_tolerant position)
  | enable => exact engage_agrees a Engine.enable_tolerant
  | disable => exact engage_agrees a Engine.disable_tolerant

private theorem noted_agrees {action : Action Platform Fault Unit} (agrees : Agrees Alike action) :
    Agrees Alike (Operation.action.noted action) := by
  exact agrees_map agrees

private theorem action_agrees (operation : Operation) : Agrees Alike operation.action := by
  cases operation with
  | query asked => exact ask_agrees asked
  | call a told => exact noted_agrees (call_agrees a told)
  | pass passage => exact noted_agrees (agrees_modify fun _ _ alike => alike.pass passage)
  | failNext a reason => exact noted_agrees (agrees_modify fun _ _ alike => alike.failNext a reason)
  | clearLog a => exact noted_agrees (agrees_modify fun _ _ alike => alike.clearLog a)
  | takeNumber => exact agrees_map takeNumber_agrees
  | attach handler => exact noted_agrees (attach_agrees handler)
  | detach => exact noted_agrees (agrees_modify fun _ _ alike => alike.detach)
  | trigger => exact noted_agrees (agrees_modify fun _ _ alike => alike.serve true)
  | overrideLevel level =>
    exact noted_agrees (agrees_modify fun _ _ alike => alike.overrideLevel level)

end Agreement

section Closely

inductive Step where
  | plain (operation : Operation)
  /-- A look that nobody asked for. -/
  | look (query : Query)
  /-- Time that passes in two parts. -/
  | split (passage : Passage) (first second : Nat)

def Step.operations : Step → List Operation
  | plain operation => [operation]
  | look _ => []
  | split passage _ _ => [.pass passage]

def closely : List Step → Platform → List (Except Fault Answer) × Platform
  | [], p => ([], p)
  | .plain operation :: rest, p =>
    let (answer, p) := operation.action.run p
    let (answers, p) := closely rest p
    (answer :: answers, p)
  | .look query :: rest, p => closely rest (query.ask.run p).2
  | .split _ first second :: rest, p =>
    let (answers, p) := closely rest ((p.advance first).advance second)
    (.ok .done :: answers, p)

/-- Time passes in parts only while nobody is to be told of the limit switch, and passes in full. -/
def Fair : List Step → Platform → Prop
  | [], _ => True
  | .plain operation :: rest, p => Fair rest (operation.action.run p).2
  | .look query :: rest, p => Fair rest (query.ask.run p).2
  | .split passage first second :: rest, p =>
    p.limit.armed = none ∧ passage.length p = first + second ∧
      Fair rest ((p.advance first).advance second)

instance Fair.decidable : (steps : List Step) → (p : Platform) → Decidable (Fair steps p)
  | [], _ => .isTrue trivial
  | .plain operation :: rest, p => decidable rest (operation.action.run p).2
  | .look query :: rest, p => decidable rest (query.ask.run p).2
  | .split _ first second :: rest, p =>
    have := decidable rest ((p.advance first).advance second)
    instDecidableAnd

variable {p q : Platform} {steps : List Step}

theorem look_alike (query : Query) (p : Platform) : Alike p (query.ask.run p).2 := by
  cases query with
  | moving a =>
    have looked : (Query.moving a).ask.run p =
        (.ok (.flag ((p.engine a).retire p.now).isMoving), p.retire a) :=
      run_bind_ok (p.run_queryMoving a)
    rw [looked]
    exact p.retire_alike a
  | _ => exact alike_refl p

private theorem advance_advance (unarmed : p.limit.armed = none) (first second : Nat) :
    (p.advance first).advance second = p.advance (first + second) := by
  have later : ({ p with now := p.now + first } : Platform).limit.armed = none := unarmed
  rw [advance_unarmed _ unarmed, advance_unarmed _ later, advance_unarmed _ unarmed, Nat.add_assoc]

private theorem apply_split {passage : Passage} {first second : Nat} (unarmed : p.limit.armed = none)
    (full : passage.length p = first + second) :
    (p.advance first).advance second = passage.apply p := by
  rw [advance_advance unarmed, ← full]
  cases passage with
  | advance us => rfl
  | delay ms => rfl
  | advanceUntil us =>
    change p.advance (us - p.now) = p.advanceUntil us
    unfold advanceUntil
    split
    · rfl
    · next past =>
      rw [Nat.sub_eq_zero_of_le (Nat.le_of_not_lt past)]
      exact advance_unarmed 0 unarmed

private theorem closely_alike (alike : Alike p q) (fair : Fair steps q) :
    (closely steps q).1 = (answers (steps.flatMap Step.operations) p).1 ∧
      Alike (answers (steps.flatMap Step.operations) p).2 (closely steps q).2 := by
  -- Between two steps the platforms of the two runs are alike, whichever of them was looked at.
  induction steps generalizing p q with
  | nil => exact ⟨rfl, alike⟩
  | cons step rest ih =>
    cases step with
    | plain operation =>
      obtain ⟨here, between⟩ := action_agrees operation p q alike
      obtain ⟨others, left⟩ := ih between fair
      exact ⟨List.cons_eq_cons.mpr ⟨here.symm, others⟩, left⟩
    | look query => exact ih (alike.trans (look_alike query q)) fair
    | split passage first second =>
      obtain ⟨unarmed, full, later⟩ := fair
      have between : Alike (passage.apply p) ((q.advance first).advance second) := by
        rw [apply_split unarmed full]
        exact alike.pass passage
      obtain ⟨others, left⟩ := ih between later
      exact ⟨congrArg (Except.ok Answer.done :: ·) others, left⟩

/-- A run that is watched closely answers as one that is not, and no query tells them apart later. -/
theorem closely_answers (fair : Fair steps p) :
    (closely steps p).1 = (answers (steps.flatMap Step.operations) p).1 ∧
      ∀ query : Query, (query.ask.run (closely steps p).2).1 =
        (query.ask.run (answers (steps.flatMap Step.operations) p).2).1 := by
  obtain ⟨same, alike⟩ := closely_alike (alike_refl p) fair
  exact ⟨same, fun query => (ask_agrees query _ _ alike).1.symm⟩

def glances : List Step :=
  [.plain (.call .z (.setSpeed 1000)), .plain (.call .z (.startMove 1000)),
    .split (.advance 1500000) 700000 800000, .look (.moving .z), .look .active,
    .plain (.call .z (.startMove (-200))), .split (.delay 50) 0 50000, .plain (.query (.position .z)),
    .plain (.call .z .awaitEnd)]

theorem glances_answers : Fair glances (fresh ⟨26, 14, 17⟩ (-2000)) ∧
    (closely glances (fresh ⟨26, 14, 17⟩ (-2000))).1 =
      (answers (glances.flatMap Step.operations) (fresh ⟨26, 14, 17⟩ (-2000))).1 := by
  have fair : Fair glances (fresh ⟨26, 14, 17⟩ (-2000)) := by decide +kernel
  exact ⟨fair, (closely_answers fair).1⟩

end Closely

end Platform

end Crawler.Hardware

import Crawler.Proofs.Laziness

/-! The limit switch serves a handler once. Whatever is asked of the platform, and in whatever order, its
handlers take turns: one is accepted when the last one was told or withdrawn, and only the one that is
armed is told. A level never waits for an edge: after the switch is armed, and after the clock moved, it
is not both armed and active. -/
namespace Crawler.Hardware

open Crawler.Action

inductive Moment where
  | accepted (handler : Handler)
  | told (handler : Handler)
  | withdrawn (handler : Handler)
deriving DecidableEq, Repr

namespace Moment

def told? : Moment → Option Handler
  | told handler => some handler
  | _ => none

def isAccepted : Moment → Bool
  | accepted _ => true
  | _ => false

def isWithdrawn : Moment → Bool
  | withdrawn _ => true
  | _ => false

end Moment

section Turns

/-- How one armed handler follows another: each is accepted in its turn, and told or withdrawn before
the next. -/
inductive Turns : Option Handler → List Moment → Option Handler → Prop where
  | nil (armed : Option Handler) : Turns armed [] armed
  | accepted {handler : Handler} {rest : List Moment} {last : Option Handler} :
    Turns (some handler) rest last → Turns none (.accepted handler :: rest) last
  | told {handler : Handler} {rest : List Moment} {last : Option Handler} :
    Turns none rest last → Turns (some handler) (.told handler :: rest) last
  | withdrawn {handler : Handler} {rest : List Moment} {last : Option Handler} :
    Turns none rest last → Turns (some handler) (.withdrawn handler :: rest) last

variable {first middle last : Option Handler} {before after moments : List Moment} {handler : Handler}

private theorem Turns.append (early : Turns first before middle) (late : Turns middle after last) :
    Turns first (before ++ after) last := by
  induction early with
  | nil armed => exact late
  | accepted _ ih => exact .accepted (ih late)
  | told _ ih => exact .told (ih late)
  | withdrawn _ ih => exact .withdrawn (ih late)

private theorem Turns.split (turns : Turns first (before ++ after) last) :
    ∃ middle, Turns first before middle ∧ Turns middle after last := by
  induction before generalizing first with
  | nil => exact ⟨first, .nil first, turns⟩
  | cons moment before ih =>
    cases turns with
    | accepted rest =>
      obtain ⟨middle, early, late⟩ := ih rest
      exact ⟨middle, .accepted early, late⟩
    | told rest =>
      obtain ⟨middle, early, late⟩ := ih rest
      exact ⟨middle, .told early, late⟩
    | withdrawn rest =>
      obtain ⟨middle, early, late⟩ := ih rest
      exact ⟨middle, .withdrawn early, late⟩

/-- A handler that is armed in the end was there from the start or is the last that was accepted. -/
theorem Turns.armed_last (turns : Turns first moments last) (armed : last = some handler) :
    (moments = [] ∧ first = some handler) ∨ ∃ earlier, moments = earlier ++ [.accepted handler] := by
  induction turns with
  | nil _ => exact .inl ⟨rfl, armed⟩
  | accepted _ ih =>
    rcases ih armed with ⟨rfl, same⟩ | ⟨earlier, rfl⟩
    · cases same
      exact .inr ⟨[], rfl⟩
    · exact .inr ⟨_ :: earlier, rfl⟩
  | told _ ih | withdrawn _ ih =>
    rcases ih armed with ⟨_, same⟩ | ⟨earlier, rfl⟩
    · cases same
    · exact .inr ⟨_ :: earlier, rfl⟩

private theorem Turns.after_accepted (turns : Turns first (before ++ .accepted handler :: after) last) :
    (after = [] ∧ last = some handler) ∨
      ∃ rest, after = .told handler :: rest ∨ after = .withdrawn handler :: rest := by
  obtain ⟨_, _, late⟩ := turns.split
  cases late with
  | accepted late =>
    cases late with
    | nil => exact .inl ⟨rfl, rfl⟩
    | told _ => exact .inr ⟨_, .inl rfl⟩
    | withdrawn _ => exact .inr ⟨_, .inr rfl⟩

private theorem Turns.before_told (turns : Turns none (before ++ .told handler :: after) last) :
    ∃ earlier, before = earlier ++ [.accepted handler] := by
  obtain ⟨_, early, late⟩ := turns.split
  cases late with
  | told _ =>
    rcases early.armed_last rfl with ⟨_, same⟩ | accepted
    · cases same
    · exact accepted

/-- Every handler that was accepted is accounted for. -/
theorem Turns.count (turns : Turns first moments last) :
    first.toList.length + moments.countP Moment.isAccepted =
      (moments.filterMap Moment.told?).length + moments.countP Moment.isWithdrawn +
        last.toList.length := by
  induction turns with
  | nil armed => simp
  | accepted _ ih | told _ ih | withdrawn _ ih =>
    simp [Moment.isAccepted, Moment.isWithdrawn, Moment.told?, List.countP_cons, List.filterMap_cons] at ih ⊢
    omega

private theorem Turns.count_handler (turns : Turns first moments last) (handler : Handler) :
    first.toList.count handler + moments.count (.accepted handler) =
      moments.count (.told handler) + moments.count (.withdrawn handler) +
        last.toList.count handler := by
  induction turns with
  | nil armed => simp
  | accepted _ ih | told _ ih | withdrawn _ ih =>
    simp [List.count_cons] at ih ⊢
    omega

end Turns

section Attended

def Attended (s t : LimitSwitch) : Prop :=
  (t.armed = s.armed ∧ t.served = s.served) ∨
    ∃ handler, s.armed = some handler ∧ t.armed = none ∧ t.served = s.served ++ [handler]

variable {s t u : LimitSwitch}

private theorem attended_refl (s : LimitSwitch) : Attended s s := by
  exact .inl ⟨rfl, rfl⟩

private theorem Attended.trans (first : Attended s t) (second : Attended t u) : Attended s u := by
  rcases first with ⟨armed, served⟩ | ⟨handler, armed, disarmed, served⟩
  · unfold Attended at second ⊢
    rwa [armed, served] at second
  · rcases second with ⟨armed', served'⟩ | ⟨_, armed', _⟩
    · exact .inr ⟨handler, armed, armed'.trans disarmed, served'.trans served⟩
    · rw [disarmed] at armed'
      cases armed'

def LimitSwitch.toldSince (s t : LimitSwitch) : List Moment :=
  (t.served.drop s.served.length).map .told

private theorem Attended.told (attended : Attended s t) :
    Turns s.armed (s.toldSince t) t.armed ∧
      t.served = s.served ++ (s.toldSince t).filterMap Moment.told? := by
  unfold LimitSwitch.toldSince
  rcases attended with ⟨armed, served⟩ | ⟨handler, armed, disarmed, served⟩
  · rw [armed, served, List.drop_length]
    exact ⟨.nil _, (List.append_nil _).symm⟩
  · rw [armed, disarmed, served, List.drop_left]
    exact ⟨.told (.nil none), rfl⟩

end Attended

namespace Platform

variable (p : Platform)

def AttendedSince (s : LimitSwitch) (p : Platform) : Prop := Attended s p.limit

private theorem serve_attended (edge : Bool) : Attended p.limit (p.serve edge).limit := by
  unfold serve
  cases armed : p.limit.armed with
  | none => exact attended_refl _
  | some handler =>
    dsimp only
    split
    · exact .inr ⟨handler, armed, by cases handler <;> exact ⟨rfl, rfl⟩⟩
    · exact attended_refl _

private theorem advance_attended (us : Nat) : Attended p.limit (p.advance us).limit := by
  exact serve_attended { p with now := p.now + us } false

private theorem advanceUntil_attended (us : Nat) : Attended p.limit (p.advanceUntil us).limit := by
  have passes (us : Nat) (p' : Platform) (before : AttendedSince p.limit p') :
      AttendedSince p.limit (p'.advance us) := before.trans (p'.advance_attended us)
  exact advanceUntil_keeps (P := AttendedSince p.limit) us passes (attended_refl _)

private theorem apply_attended (passage : Passage) : Attended p.limit (passage.apply p).limit := by
  cases passage with
  | advance us => exact p.advance_attended us
  | advanceUntil us => exact p.advanceUntil_attended us
  | delay ms => exact p.advance_attended _

section Preserves

variable {s : LimitSwitch} {α ε : Type}

private theorem modify_attends {f : Platform → Platform}
    (attended : ∀ p : Platform, Attended p.limit (f p).limit) :
    Preserves (AttendedSince s) (.modify f : Action Platform ε Unit) := by
  refine preserves_modify fun p before => ?_
  exact before.trans (attended p)

private theorem engage_attends (a : Axis) (op : Nat → Engine → Engine.Outcome α) :
    Preserves (AttendedSince s) (engage a op) := by
  intro p before
  rw [run_engage]
  change Attended s (p.commit a _).limit
  rwa [commit_limit]

private theorem awaitEnd_attends (a : Axis) : Preserves (AttendedSince s) (awaitEnd a) := by
  refine preserves_awaitEnd (engage_attends a Engine.beginWait) (fun us p before => ?_) fun _ before => ?_
  · exact before.trans (p.advance_attended us)
  · exact before

private theorem call_attends (a : Axis) (call : Engine.Call) :
    Preserves (AttendedSince s) (call.action a) := by
  cases call with
  | awaitEnd => exact awaitEnd_attends a
  | _ => exact engage_attends a _

private theorem ask_attends (query : Query) : Preserves (AttendedSince s) query.ask := by
  cases query with
  | moving a =>
    refine preserves_map (preserves_bind (modify_attends fun p => attended_refl _) fun _ => ?_)
    exact preserves_map preserves_read
  | _ => exact fun _ before => before

end Preserves

private theorem run_noted (action : Action Platform Fault Unit) :
    ((Operation.action.noted action).run p).2 = (action.run p).2 := by
  unfold Operation.action.noted
  rw [run_bind]
  cases action.run p with
  | mk result q => cases result <;> rfl

private theorem attach_cases (handler : Handler) :
    (∃ armed, p.limit.armed = some armed ∧
      (Operation.attach handler).action.run p = (.error .switchArmed, p)) ∨
    (p.limit.armed = none ∧ (Operation.attach handler).action.run p =
      (.ok .done, serve false { p with limit := { p.limit with armed := some handler } })) := by
  cases held : p.limit.armed with
  | some armed =>
    have refused : (attach handler).run p = (.error .switchArmed, p) := by
      change attach handler p = _
      unfold attach
      rw [held]
    exact .inl ⟨armed, rfl, run_bind_error refused⟩
  | none =>
    have accepted : (attach handler).run p =
        (.ok (), serve false { p with limit := { p.limit with armed := some handler } }) := by
      change attach handler p = _
      unfold attach
      rw [held]
    exact .inr ⟨rfl, run_bind_ok accepted⟩

end Platform

section History

def Operation.moments (operation : Operation) (p : Platform) : List Moment :=
  let told := p.limit.toldSince (operation.action.run p).2.limit
  match operation, (operation.action.run p).1 with
  | attach handler, .ok _ => .accepted handler :: told
  | detach, _ => (p.limit.armed.map .withdrawn).toList ++ told
  | _, _ => told

def Platform.history : List Operation → Platform → List Moment
  | [], _ => []
  | operation :: rest, p => operation.moments p ++ history rest (operation.action.run p).2

structure Served (p : Platform) (moments : List Moment) (q : Platform) : Prop where
  turns : Turns p.limit.armed moments q.limit.armed
  told : q.limit.served = p.limit.served ++ moments.filterMap Moment.told?

variable {p q : Platform}

private theorem served_of_attended (attended : Attended p.limit q.limit) :
    Served p (p.limit.toldSince q.limit) q := by
  obtain ⟨told, left⟩ := attended.told
  exact ⟨told, left⟩

private theorem attach_served (handler : Handler) (p : Platform) :
    Served p ((Operation.attach handler).moments p) ((Operation.attach handler).action.run p).2 := by
  unfold Operation.moments
  dsimp only
  rcases p.attach_cases handler with ⟨armed, _, ran⟩ | ⟨unarmed, ran⟩
  · rw [ran]
    exact served_of_attended (attended_refl _)
  · rw [ran]
    have attended := Platform.serve_attended { p with limit := { p.limit with armed := some handler } } false
    refine ⟨?_, attended.told.2⟩
    rw [unarmed]
    exact .accepted attended.told.1

private theorem detach_served (p : Platform) :
    Served p (Operation.detach.moments p) (Operation.detach.action.run p).2 := by
  have told : p.limit.toldSince (Operation.detach.action.run p).2.limit = [] := by
    change (p.limit.served.drop p.limit.served.length).map Moment.told = []
    rw [List.drop_length]
    rfl
  have moments : Operation.detach.moments p = (p.limit.armed.map .withdrawn).toList ++
    p.limit.toldSince (Operation.detach.action.run p).2.limit := rfl
  rw [moments, told, List.append_nil]
  refine ⟨?_, ?_⟩
  · change Turns _ _ none
    cases p.limit.armed with
    | none => exact .nil none
    | some handler => exact .withdrawn (.nil none)
  · change p.limit.served = _
    cases p.limit.armed <;> exact (List.append_nil _).symm

private theorem moments_served (operation : Operation) (p : Platform) :
    Served p (operation.moments p) (operation.action.run p).2 := by
  have untouched := attended_refl p.limit
  cases operation with
  | query asked => exact served_of_attended (Platform.ask_attends asked p untouched)
  | call a told =>
    have attended := Platform.call_attends a told p untouched
    rw [← Platform.run_noted p (told.action a)] at attended
    exact served_of_attended attended
  | pass passage => exact served_of_attended (p.apply_attended passage)
  | trigger => exact served_of_attended (p.serve_attended true)
  | attach handler => exact attach_served handler p
  | detach => exact detach_served p
  | failNext a reason => exact served_of_attended untouched
  | clearLog a => exact served_of_attended untouched
  | takeNumber => exact served_of_attended untouched
  | overrideLevel level => exact served_of_attended (.inl ⟨rfl, rfl⟩)

private theorem history_served (operations : List Operation) (p : Platform) :
    Served p (p.history operations) (p.answers operations).2 := by
  induction operations generalizing p with
  | nil => exact ⟨.nil _, (List.append_nil _).symm⟩
  | cons operation rest ih =>
    obtain ⟨turns, told⟩ := moments_served operation p
    obtain ⟨later, also⟩ := ih (operation.action.run p).2
    refine ⟨turns.append later, ?_⟩
    change (((operation.action.run p).2).answers rest).2.limit.served = _
    rw [also, told, List.append_assoc, ← List.filterMap_append]
    rfl

end History

section Level

def Platform.Pending (p : Platform) : Prop := p.limit.armed.isSome ∧ p.switchActive

def Operation.Samples (operation : Operation) (p : Platform) : Prop :=
  match operation with
  | attach _ => (operation.action.run p).1 = .ok .done
  | pass (.advance _) | pass (.delay _) => True
  | _ => p.now < (operation.action.run p).2.now

namespace Platform

variable (p : Platform)

private theorem serve_not_pending : ¬(p.serve false).Pending := by
  rintro ⟨armed, active⟩
  unfold serve at armed active
  cases held : p.limit.armed with
  | none =>
    rw [held] at armed
    dsimp only at armed
    rw [held] at armed
    cases armed
  | some handler =>
    rw [held] at armed active
    dsimp only at armed active
    split at armed
    · cases handler <;> cases armed
    · next calm =>
      rw [if_neg calm] at active
      exact calm active

private theorem retire_pending (a : Axis) : (p.retire a).Pending ↔ p.Pending := by
  unfold Pending
  rw [(p.retire_alike a).switchActive]
  rfl

private theorem engage_now {α : Type} (a : Axis) (op : Nat → Engine → Engine.Outcome α) :
    ((engage a op).run p).2.now = p.now := by
  rw [run_engage]
  exact p.commit_now a _

private theorem ask_now (query : Query) : (query.ask.run p).2.now = p.now := by
  exact (look_alike query p).now

private theorem advanceUntil_not_pending {us : Nat} (later : p.now < us) :
    ¬(p.advanceUntil us).Pending := by
  unfold advanceUntil
  rw [if_pos later]
  exact serve_not_pending _

private theorem awaitEnd_not_pending {a : Axis} (later : p.now < ((awaitEnd a).run p).2.now) :
    ¬((awaitEnd a).run p).2.Pending := by
  have begun := p.run_engage a Engine.beginWait
  have now := p.commit_now a (Engine.beginWait p.now (p.engine a))
  generalize p.commit a (Engine.beginWait p.now (p.engine a)) = between at begun now
  cases asked : (Engine.beginWait p.now (p.engine a)).result with
  | error cause =>
    rw [asked] at begun
    have ran : (awaitEnd a).run p = (.error cause, between) := run_bind_error begun
    rw [ran, now] at later
    exact absurd later (Nat.lt_irrefl _)
  | ok finish =>
    rw [asked] at begun
    cases finish with
    | none =>
      have ran : (awaitEnd a).run p = (.ok (), between) := run_bind_ok begun
      rw [ran, now] at later
      exact absurd later (Nat.lt_irrefl _)
    | some finish =>
      have ran : (awaitEnd a).run p = (.ok (), (between.advanceUntil finish).retire a) := run_bind_ok begun
      rw [ran] at later ⊢
      rw [retire_now, advanceUntil_now] at later
      rw [retire_pending]
      exact advanceUntil_not_pending _ (by omega)

variable {p}

private theorem samples_not_pending {operation : Operation} (samples : operation.Samples p) :
    ¬(operation.action.run p).2.Pending := by
  -- Nothing but a wait for the end of a move lets time pass when an engine is asked or told something.
  have still {q : Platform} (now : q.now = p.now) (later : p.now < q.now) : ¬q.Pending :=
    absurd (now ▸ later) (Nat.lt_irrefl _)
  cases operation with
  | attach handler =>
    change ((Operation.attach handler).action.run p).1 = .ok .done at samples
    rcases p.attach_cases handler with ⟨_, _, ran⟩ | ⟨_, ran⟩
    · rw [ran] at samples
      cases samples
    · rw [ran]
      exact serve_not_pending _
  | pass passage =>
    cases passage with
    | advance us => exact serve_not_pending _
    | delay ms => exact serve_not_pending _
    | advanceUntil us =>
      change p.now < (p.advanceUntil us).now at samples
      rw [advanceUntil_now] at samples
      exact advanceUntil_not_pending p (by omega)
  | call a told =>
    change p.now < ((Operation.action.noted (told.action a)).run p).2.now at samples
    change ¬((Operation.action.noted (told.action a)).run p).2.Pending
    rw [run_noted] at samples ⊢
    cases told with
    | awaitEnd => exact p.awaitEnd_not_pending samples
    | _ => exact still (engage_now p a _) samples
  | query asked => exact still (ask_now p asked) samples
  | trigger => exact still (p.serve_now true) samples
  | _ => exact still rfl samples

end Platform

end Level

structure OneShot (moments : List Moment) (p : Platform) : Prop where
  /-- Whoever was accepted is armed now, or was told or withdrawn before anything else happened. -/
  fate : ∀ before handler after, moments = before ++ .accepted handler :: after →
    (after = [] ∧ p.limit.armed = some handler) ∨
      ∃ rest, after = .told handler :: rest ∨ after = .withdrawn handler :: rest
  /-- Nobody is told who was not armed, least of all one who was told before or withdrawn. -/
  due : ∀ before handler after, moments = before ++ .told handler :: after →
    ∃ earlier, before = earlier ++ [.accepted handler]
  once : ∀ handler, moments.count (.told handler) + moments.count (.withdrawn handler) ≤
    moments.count (.accepted handler)
  told : p.limit.served = moments.filterMap Moment.told?
  count : moments.countP Moment.isAccepted = p.limit.served.length +
    moments.countP Moment.isWithdrawn + if p.limit.armed.isSome then 1 else 0
  refused : ∀ armed handler, p.limit.armed = some armed →
    (Operation.attach handler).action.run p = (.error .switchArmed, p)
  calm : ∀ operation : Operation, operation.Samples p → ¬(operation.action.run p).2.Pending

theorem answers_oneShot (pins : PerAxis Nat) (trigger : Int) (operations : List Operation) :
    OneShot ((Platform.fresh pins trigger).history operations)
      ((Platform.fresh pins trigger).answers operations).2 := by
  obtain ⟨turns, told⟩ := history_served operations (.fresh pins trigger)
  change _ = [] ++ _ at told
  rw [List.nil_append] at told
  change Turns none _ _ at turns
  generalize (Platform.fresh pins trigger).history operations = moments at turns told ⊢
  generalize ((Platform.fresh pins trigger).answers operations).2 = p at turns told ⊢
  refine ⟨?_, ?_, ?_, told, ?_, ?_, fun _ => Platform.samples_not_pending⟩
  · rintro before handler after rfl
    exact turns.after_accepted
  · rintro before handler after rfl
    exact turns.before_told
  · intro handler
    have count := turns.count_handler handler
    simp only [Option.toList_none, List.count_nil] at count
    omega
  · have count := turns.count
    have held : p.limit.armed.toList.length = if p.limit.armed.isSome then 1 else 0 := by
      cases p.limit.armed <;> rfl
    rw [Option.toList_none, List.length_nil, held] at count
    rw [told]
    omega
  · intro armed handler held
    rcases p.attach_cases handler with ⟨_, _, ran⟩ | ⟨unarmed, _⟩
    · exact ran
    · rw [held] at unarmed
      cases unarmed

def visits : List Operation :=
  [.attach .homing, .attach (.observer 1), .call .z (.setSpeed 1000), .call .z (.startMove (-100)),
    .call .z .awaitEnd, .overrideLevel (some false), .attach (.observer 2), .detach, .trigger,
    .attach (.observer 3)]

example : (Platform.fresh ⟨26, 14, 17⟩ (-50)).history visits =
    [.accepted .homing, .told .homing, .accepted (.observer 2), .withdrawn (.observer 2),
      .accepted (.observer 3)] := by decide +kernel

end Crawler.Hardware

import Crawler.Action

/-! Reasoning about operations: what a run leaves behind whether it answers or fails, and how a run
of several steps splits into the runs of the steps. -/
namespace Crawler.Action

variable {σ τ ε δ α β : Type}

def Preserves (P : σ → Prop) (action : Action σ ε α) : Prop := ∀ s, P s → P (action.run s).2

instance [DecidableEq ε] [DecidableEq α] : DecidableEq (Except ε α)
  | .ok a, .ok b => decidable_of_iff (a = b) (Except.ok.injEq a b).to_iff.symm
  | .error a, .error b => decidable_of_iff (a = b) (Except.error.injEq a b).to_iff.symm
  | .ok _, .error _ | .error _, .ok _ => .isFalse nofun

instance : LawfulMonad (Action σ ε) := by
  refine .mk' _ (fun action => ?_) (fun _ _ => rfl) fun first next last => ?_
  · funext s
    change (action >>= fun a => pure (id a)).run s = action.run s
    rw [run_bind]
    cases action.run s with
    | mk result t => cases result <;> rfl
  · funext s
    change ((first >>= next) >>= last).run s = (first >>= fun a => next a >>= last).run s
    rw [run_bind, run_bind, run_bind]
    cases first.run s with
    | mk result t => cases result <;> rfl

theorem run_eq_of_result {action : Action σ ε α} {s : σ} {result : Except ε α}
    (ran : (action.run s).1 = result) : action.run s = (result, (action.run s).2) := by
  rw [← ran]

theorem run_bind_eq_ok {first : Action σ ε α} {next : α → Action σ ε β} {s t : σ} {b : β} :
    (first >>= next).run s = (.ok b, t) ↔
      ∃ a u, first.run s = (.ok a, u) ∧ (next a).run u = (.ok b, t) := by
  rw [run_bind]
  cases ran : first.run s with
  | mk result u => cases result <;> simp [and_assoc]

theorem run_bind_eq_error {first : Action σ ε α} {next : α → Action σ ε β} {s t : σ} {e : ε} :
    (first >>= next).run s = (.error e, t) ↔ first.run s = (.error e, t) ∨
      ∃ a u, first.run s = (.ok a, u) ∧ (next a).run u = (.error e, t) := by
  rw [run_bind]
  cases ran : first.run s with
  | mk result u => cases result <;> simp [and_assoc]

theorem run_attempt_eq {action : Action σ ε α} {s t : σ} {result : Except ε α}
    (ran : action.run s = (result, t)) :
    (attempt action : Action σ δ (Except ε α)).run s = (.ok result, t) := by
  rw [run_attempt, ran]

theorem except_mapError_eq_ok {f : ε → δ} {result : Except ε α} {a : α} :
    result.mapError f = .ok a ↔ result = .ok a := by
  constructor
  · intro answered
    cases result with
    | ok b => cases answered; rfl
    | error e => cases answered
  · rintro rfl
    rfl

theorem run_mapError_eq_ok {f : ε → δ} {action : Action σ ε α} {s t : σ} {a : α} :
    (mapError f action).run s = (.ok a, t) ↔ action.run s = (.ok a, t) := by
  simp only [run_mapError, Prod.ext_iff, except_mapError_eq_ok]

theorem except_mapError_eq_error {f : ε → δ} {result : Except ε α} {e : δ} :
    result.mapError f = .error e ↔ ∃ cause, result = .error cause ∧ f cause = e := by
  cases result with
  | ok a => exact ⟨nofun, nofun⟩
  | error cause => exact ⟨fun | rfl => ⟨cause, rfl, rfl⟩, fun | ⟨_, rfl, same⟩ => congrArg _ same⟩

theorem run_mapError_eq_error {f : ε → δ} {action : Action σ ε α} {s t : σ} {e : δ} :
    (mapError f action).run s = (.error e, t) ↔
      ∃ cause, action.run s = (.error cause, t) ∧ f cause = e := by
  rw [run_mapError]
  constructor
  · intro failed
    cases ran : action.run s with
    | mk result u =>
      rw [ran] at failed
      cases result <;> cases failed
      exact ⟨_, rfl, rfl⟩
  · rintro ⟨cause, ran, rfl⟩
    rw [ran]
    rfl

theorem run_on_eq_error {part : τ → σ} {replace : τ → σ → τ} {action : Action σ ε α} {s t : τ}
    {e : ε} : (action.on part replace).run s = (.error e, t) ↔
      ∃ u, action.run (part s) = (.error e, u) ∧ replace s u = t := by
  rw [run_on]
  cases ran : action.run (part s) with
  | mk result u => cases result <;> simp [and_assoc]

theorem run_on_eq_ok {part : τ → σ} {replace : τ → σ → τ} {action : Action σ ε α} {s t : τ} {a : α} :
    (action.on part replace).run s = (.ok a, t) ↔
      ∃ u, action.run (part s) = (.ok a, u) ∧ replace s u = t := by
  rw [run_on]
  cases ran : action.run (part s) with
  | mk result u => cases result <;> simp [and_assoc]

theorem run_ofExcept_eq_ok {result : Except ε α} {s t : σ} {a : α} :
    (ofExcept result : Action σ ε α).run s = (.ok a, t) ↔ result = .ok a ∧ s = t := by
  simp

theorem except_bind_eq_ok {first : Except ε α} {next : α → Except ε β} {b : β} :
    first >>= next = .ok b ↔ ∃ a, first = .ok a ∧ next a = .ok b := by
  cases first with
  | ok a => exact ⟨fun answered => ⟨a, rfl, answered⟩, fun ⟨_, rfl, answered⟩ => answered⟩
  | error e => exact ⟨nofun, nofun⟩

theorem except_bind_eq_error {first : Except ε α} {next : α → Except ε β} {e : ε} :
    first >>= next = .error e ↔ first = .error e ∨ ∃ a, first = .ok a ∧ next a = .error e := by
  cases first with
  | ok a => exact ⟨fun failed => .inr ⟨a, rfl, failed⟩, fun | .inr ⟨_, rfl, failed⟩ => failed⟩
  | error cause => exact ⟨fun | rfl => .inl rfl, fun | .inl rfl => rfl⟩

theorem except_guard_eq_ok {c : Prop} [Decidable c] {check : Except ε Unit}
    {next : Unit → Except ε β} {b : β} :
    (if c then check >>= next else next ()) = .ok b ↔ (c → check = .ok ()) ∧ next () = .ok b := by
  by_cases holds : c
  · rw [if_pos holds, except_bind_eq_ok]
    exact ⟨fun ⟨_, passed, rest⟩ => ⟨fun _ => passed, rest⟩,
      fun ⟨passed, rest⟩ => ⟨(), passed holds, rest⟩⟩
  · rw [if_neg holds]
    exact ⟨fun rest => ⟨fun again => absurd again holds, rest⟩, And.right⟩

theorem except_guard_eq_error {c : Prop} [Decidable c] {check : Except ε Unit}
    {next : Unit → Except ε β} {e : ε}
    (failed : (if c then check >>= next else next ()) = .error e) :
    check = .error e ∨ next () = .error e := by
  split at failed
  · rcases except_bind_eq_error.mp failed with here | ⟨_, _, later⟩
    · exact .inl here
    · exact .inr later
  · exact .inr failed

section Preserves

variable {P : σ → Prop}

theorem preserves_pure (a : α) : Preserves P (pure a : Action σ ε α) := by
  intro s held
  exact held

theorem preserves_fail (e : ε) : Preserves P (fail e : Action σ ε α) := by
  intro s held
  exact held

theorem preserves_read : Preserves P (read : Action σ ε σ) := by
  intro s held
  exact held

theorem preserves_ofExcept (result : Except ε α) : Preserves P (ofExcept result : Action σ ε α) := by
  intro s held
  exact held

theorem preserves_modify {f : σ → σ} (kept : ∀ s, P s → P (f s)) :
    Preserves P (modify f : Action σ ε Unit) := by
  intro s held
  exact kept s held

theorem preserves_bind {first : Action σ ε α} {next : α → Action σ ε β} (before : Preserves P first)
    (after : ∀ a, Preserves P (next a)) : Preserves P (first >>= next) := by
  intro s held
  have middle := before s held
  rw [run_bind]
  cases ran : first.run s with
  | mk result t =>
    rw [ran] at middle
    cases result with
    | ok a => exact after a t middle
    | error e => exact middle

theorem preserves_map {f : α → β} {action : Action σ ε α} (kept : Preserves P action) :
    Preserves P (action >>= fun a => pure (f a)) := by
  refine preserves_bind kept fun a => ?_
  exact preserves_pure (f a)

theorem preserves_attempt {action : Action σ ε α} (kept : Preserves P action) :
    Preserves P (attempt action : Action σ δ (Except ε α)) := by
  intro s held
  exact kept s held

theorem preserves_mapError {f : ε → δ} {action : Action σ ε α} (kept : Preserves P action) :
    Preserves P (mapError f action) := by
  intro s held
  exact kept s held

theorem preserves_ite {c : Prop} [Decidable c] {first second : Action σ ε α}
    (yes : Preserves P first) (no : Preserves P second) : Preserves P (if c then first else second) := by
  split
  · exact yes
  · exact no

end Preserves

section Fails

variable {P : ε → Prop} {Q : δ → Prop}

def Fails (P : ε → Prop) (action : Action σ ε α) : Prop :=
  ∀ s e, (action.run s).1 = .error e → P e

theorem fails_pure (a : α) : Fails P (pure a : Action σ ε α) := by
  intro s e failed
  cases failed

theorem fails_modify (f : σ → σ) : Fails P (modify f : Action σ ε Unit) := by
  intro s e failed
  cases failed

theorem fails_bind {first : Action σ ε α} {next : α → Action σ ε β} (before : Fails P first)
    (after : ∀ a, Fails P (next a)) : Fails P (first >>= next) := by
  intro s e failed
  rcases run_bind_eq_error.mp (run_eq_of_result failed) with here | ⟨a, t, _, later⟩
  · exact before s e (congrArg Prod.fst here)
  · exact after a t e (congrArg Prod.fst later)

theorem fails_mapError {f : ε → δ} (mapped : ∀ e, Q (f e)) (action : Action σ ε α) :
    Fails Q (mapError f action) := by
  intro s e failed
  obtain ⟨cause, _, rfl⟩ := except_mapError_eq_error.mp failed
  exact mapped cause

theorem fails_on {part : τ → σ} {replace : τ → σ → τ} {action : Action σ ε α} (fails : Fails P action) :
    Fails P (action.on part replace) := by
  intro s
  exact fails (part s)

end Fails

section Agrees

variable {R : σ → σ → Prop}

def Agrees (R : σ → σ → Prop) (action : Action σ ε α) : Prop :=
  ∀ s t, R s t → (action.run s).1 = (action.run t).1 ∧ R (action.run s).2 (action.run t).2

theorem agrees_pure (a : α) : Agrees R (pure a : Action σ ε α) := by
  intro s t related
  exact ⟨rfl, related⟩

theorem agrees_fail (e : ε) : Agrees R (fail e : Action σ ε α) := by
  intro s t related
  exact ⟨rfl, related⟩

theorem agrees_ofExcept (result : Except ε α) : Agrees R (ofExcept result : Action σ ε α) := by
  intro s t related
  exact ⟨rfl, related⟩

theorem agrees_bind {first : Action σ ε α} {next : α → Action σ ε β} (before : Agrees R first)
    (after : ∀ a, Agrees R (next a)) : Agrees R (first >>= next) := by
  intro s t related
  obtain ⟨same, left⟩ := before s t related
  rw [run_bind, run_bind]
  cases ran : first.run s with
  | mk result s' =>
    cases also : first.run t with
    | mk other t' =>
      rw [ran, also] at same left
      obtain rfl : result = other := same
      cases result with
      | ok a => exact after a s' t' left
      | error e => exact ⟨rfl, left⟩

theorem agrees_map {f : α → β} {action : Action σ ε α} (agrees : Agrees R action) :
    Agrees R (action >>= fun a => pure (f a)) := by
  refine agrees_bind agrees fun a => ?_
  exact agrees_pure (f a)

theorem agrees_modify {f : σ → σ} (kept : ∀ s t, R s t → R (f s) (f t)) :
    Agrees R (modify f : Action σ ε Unit) := by
  intro s t related
  exact ⟨rfl, kept s t related⟩

/-- An operation on a part that is the same in related states. -/
theorem agrees_on {P : τ → τ → Prop} {part : τ → σ} {replace : τ → σ → τ}
    (seen : ∀ s t, P s t → part t = part s)
    (put : ∀ s t x, P s t → P (replace s x) (replace t x)) (action : Action σ ε α) :
    Agrees P (action.on part replace) := by
  intro s t related
  rw [run_on, run_on, seen s t related]
  exact ⟨rfl, put s t _ related⟩

theorem agrees_attempt {action : Action σ ε α} (agrees : Agrees R action) :
    Agrees R (attempt action : Action σ δ (Except ε α)) := by
  intro s t related
  obtain ⟨same, left⟩ := agrees s t related
  exact ⟨congrArg Except.ok same, left⟩

theorem agrees_mapError {f : ε → δ} {action : Action σ ε α} (agrees : Agrees R action) :
    Agrees R (mapError f action) := by
  intro s t related
  obtain ⟨same, left⟩ := agrees s t related
  exact ⟨congrArg (Except.mapError f) same, left⟩

end Agrees

end Crawler.Action

/-! Operations on a state that answer or fail. The state an operation leaves is part of a failure
as much as of a success, so nothing an operation did before it failed is forgotten. -/
namespace Crawler

/-- An operation on a state `σ` that answers with an `α` or fails with an `ε`. -/
def Action (σ ε α : Type) : Type := σ → Except ε α × σ

namespace Action

variable {σ τ ε δ α β : Type}

/-- The result of an operation on a state, and the state it leaves. -/
@[inline] def run (action : Action σ ε α) (state : σ) : Except ε α × σ := action state

@[always_inline] instance : Monad (Action σ ε) where
  pure a := fun s => (.ok a, s)
  bind first next := fun s =>
    match first s with
    | (.ok a, t) => next a t
    | (.error e, t) => (.error e, t)

@[inline] def fail (e : ε) : Action σ ε α := fun s => (.error e, s)

@[inline] def read : Action σ ε σ := fun s => (.ok s, s)

@[inline] def modify (f : σ → σ) : Action σ ε Unit := fun s => (.ok (), f s)

@[inline] def ofExcept (result : Except ε α) : Action σ ε α := fun s => (result, s)

/-- Runs an operation and hands its failure on as a value. -/
@[inline] def attempt (action : Action σ ε α) : Action σ δ (Except ε α) := fun s =>
  let (result, t) := action s
  (.ok result, t)

@[inline] def mapError (f : ε → δ) (action : Action σ ε α) : Action σ δ α := fun s =>
  let (result, t) := action s
  (result.mapError f, t)

/-- Runs an operation on a part of a larger state. -/
@[inline] def on (part : τ → σ) (replace : τ → σ → τ) (action : Action σ ε α) : Action τ ε α :=
  fun s =>
    let (result, t) := action (part s)
    (result, replace s t)

@[simp] theorem run_pure (a : α) (s : σ) : (pure a : Action σ ε α).run s = (.ok a, s) := rfl

@[simp] theorem run_fail (e : ε) (s : σ) : (fail e : Action σ ε α).run s = (.error e, s) := rfl

@[simp] theorem run_read (s : σ) : (read : Action σ ε σ).run s = (.ok s, s) := rfl

@[simp] theorem run_modify (f : σ → σ) (s : σ) :
    (modify f : Action σ ε Unit).run s = (.ok (), f s) := rfl

@[simp] theorem run_ofExcept (result : Except ε α) (s : σ) :
    (ofExcept result : Action σ ε α).run s = (result, s) := rfl

@[simp] theorem run_attempt (action : Action σ ε α) (s : σ) :
    (attempt action : Action σ δ (Except ε α)).run s =
      (.ok (action.run s).1, (action.run s).2) := rfl

@[simp] theorem run_mapError (f : ε → δ) (action : Action σ ε α) (s : σ) :
    (mapError f action).run s = ((action.run s).1.mapError f, (action.run s).2) := rfl

@[simp] theorem run_on (part : τ → σ) (replace : τ → σ → τ) (action : Action σ ε α) (s : τ) :
    (action.on part replace).run s =
      ((action.run (part s)).1, replace s (action.run (part s)).2) := rfl

theorem run_bind (first : Action σ ε α) (next : α → Action σ ε β) (s : σ) :
    (first >>= next).run s =
      match first.run s with
      | (.ok a, t) => (next a).run t
      | (.error e, t) => (.error e, t) := rfl

theorem run_bind_ok {first : Action σ ε α} {next : α → Action σ ε β} {s t : σ} {a : α}
    (h : first.run s = (.ok a, t)) : (first >>= next).run s = (next a).run t := by
  rw [run_bind, h]

theorem run_bind_error {first : Action σ ε α} {next : α → Action σ ε β} {s t : σ} {e : ε}
    (h : first.run s = (.error e, t)) : (first >>= next).run s = (.error e, t) := by
  rw [run_bind, h]

end Action

end Crawler

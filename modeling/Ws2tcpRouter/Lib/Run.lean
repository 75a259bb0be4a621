import Mathlib.Data.List.Basic

/-!
# Runs

Two shapes of a run. A fold with states it does not leave is, up to the first
of them, a run that goes on. A run of guarded steps ends in a state only where
every guard held, and what every step keeps holds at its end.
-/

namespace Ws2tcpRouter.Lib

-- ---------------------------------------------------------------------------
-- Folds that halt
-- ---------------------------------------------------------------------------

theorem foldl_halted {step : σ → ε → σ} {halted : σ → Prop}
    (stays : ∀ s e, halted s → step s e = s) (h : halted s) (events : List ε) :
    events.foldl step s = s := by
  induction events with
  | nil => rfl
  | cons event events ih => rw [List.foldl_cons, stays s event h, ih]

/-- The events up to the one that halts, and what is left of the run there. -/
theorem foldl_split {step : σ → ε → σ} {halted : σ → Prop}
    (stays : ∀ s e, halted s → step s e = s) (h : ¬ halted s) (events : List ε) :
    ∃ handled rest, events = handled ++ rest ∧ ¬ halted (handled.foldl step s) ∧
      (rest = [] ∨ ∃ event more, rest = event :: more ∧
        halted (step (handled.foldl step s) event) ∧
        events.foldl step s = step (handled.foldl step s) event) := by
  induction events generalizing s with
  | nil => exact ⟨[], [], rfl, h, .inl rfl⟩
  | cons event events ih =>
    by_cases ends : halted (step s event)
    · refine ⟨[], event :: events, rfl, h, .inr ⟨event, events, rfl, ends, ?_⟩⟩
      rw [List.foldl_cons, foldl_halted stays ends]
      rfl
    · obtain ⟨handled, rest, rfl, goes, tail⟩ := ih ends
      exact ⟨event :: handled, rest, rfl, goes, tail⟩

-- ---------------------------------------------------------------------------
-- Guarded steps
-- ---------------------------------------------------------------------------

/-- The state after `actions`, when each of them can be taken in turn. -/
def runFrom (step : σ → α → Option σ) (s : σ) : List α → Option σ
  | [] => some s
  | action :: actions =>
    match step s action with
    | some t => runFrom step t actions
    | none => none

/-- A state reached from `s` by steps each of which is `good` where it is taken. -/
inductive Reaches (step : σ → α → Option σ) (good : σ → α → Prop) (s : σ) : σ → Prop
  | refl : Reaches step good s s
  | tail : Reaches step good s t → good t action → step t action = some u →
      Reaches step good s u

namespace Reaches

variable {step : σ → α → Option σ} {good : σ → α → Prop} {s t u : σ}

theorem invariant (h : Reaches step good s t) (holds : σ → Prop)
    (keeps : ∀ s action t, good s action → step s action = some t → holds s → holds t)
    (start : holds s) : holds t := by
  induction h with
  | refl => exact start
  | tail _ ok taken ih => exact keeps _ _ _ ok taken ih

theorem of_runFrom [∀ s action, Decidable (good s action)] (h : Reaches step good s t)
    (run : runFrom (fun s action => if good s action then step s action else none) t actions =
      some u) : Reaches step good s u := by
  induction actions generalizing t with
  | nil =>
    cases run
    exact h
  | cons action actions ih =>
    unfold runFrom at run
    split at run
    next t' taken =>
      split at taken
      next ok => exact ih (h.tail ok taken) run
      next => cases taken
    next => cases run

end Reaches

end Ws2tcpRouter.Lib

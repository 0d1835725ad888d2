import Mathlib

/-!
# Schedules

A concurrent system is given by a partial step function: an action names the
thread that moves and what it does, and it is enabled in a state or not. A
schedule is a list of actions, the oldest first. `Run` has the schedules that
can happen from a start state and whose every step is allowed, where a step is
judged by the history before it and the state it is taken in.
-/

universe u v

namespace Schedule

variable {α : Type u} {σ : Type v}

/-- The schedules from `start` whose steps are enabled and allowed, with the state they
lead to. -/
inductive Run (step : α → σ → Option σ) (Allowed : List α → α → σ → Prop) (start : σ) :
    List α → σ → Prop where
  | nil : Run step Allowed start [] start
  | snoc {history : List α} {state next : σ} {action : α}
      (run : Run step Allowed start history state) (allowed : Allowed history action state)
      (moves : step action state = some next) :
      Run step Allowed start (history ++ [action]) next

/-- The state a schedule leads to, if all its steps are enabled. -/
def exec (step : α → σ → Option σ) : List α → σ → Option σ
  | [], state => some state
  | action :: actions, state => (step action state).bind (exec step actions)

variable {step : α → σ → Option σ} {Allowed : List α → α → σ → Prop} {start state next : σ}
  {history actions : List α}

/-- The invariant rule: a relation between history and state that holds at the start and
is kept by every allowed step holds in every run. -/
theorem Run.invariant {Inv : List α → σ → Prop} (initially : Inv [] start)
    (keeps : ∀ {history state action next}, Inv history state → Allowed history action state →
      step action state = some next → Inv (history ++ [action]) next)
    (run : Run step Allowed start history state) : Inv history state := by
  induction run with
  | nil => exact initially
  | snoc _ allowed moves ih => exact keeps ih allowed moves

/-- Executing a schedule extends a run, when its steps are allowed in every state. -/
theorem Run.exec
    (allowed : ∀ before action after, actions = before ++ action :: after →
      ∀ state, Allowed (history ++ before) action state)
    (run : Run step Allowed start history state)
    (executes : Schedule.exec step actions state = some next) :
    Run step Allowed start (history ++ actions) next := by
  induction actions generalizing history state with
  | nil =>
      cases executes
      rwa [List.append_nil]
  | cons action actions ih =>
      rcases Option.bind_eq_some_iff.mp executes with ⟨middle, moves, rest⟩
      have first : Allowed history action state := by
        simpa using allowed [] action actions rfl state
      have extended := ih (fun before action' after split => by
        simpa using allowed (action :: before) action' after (by rw [split]; rfl))
        (run.snoc first moves) rest
      rwa [List.append_assoc] at extended

/-- Execution that stops at a step that is not allowed. -/
def execIf (step : α → σ → Option σ) (allowed : α → σ → Bool) : List α → σ → Option σ
  | [], state => some state
  | action :: actions, state =>
      if allowed action state then (step action state).bind (execIf step allowed actions) else none

theorem Run.execIf {allowed : α → σ → Bool}
    (sound : ∀ history action state, allowed action state = true → Allowed history action state)
    (run : Run step Allowed start history state)
    (executes : Schedule.execIf step allowed actions state = some next) :
    Run step Allowed start (history ++ actions) next := by
  induction actions generalizing history state with
  | nil =>
      cases executes
      rwa [List.append_nil]
  | cons action actions ih =>
      rw [Schedule.execIf] at executes
      split_ifs at executes with isAllowed
      rcases Option.bind_eq_some_iff.mp executes with ⟨middle, moves, rest⟩
      have extended := ih (run.snoc (sound history action state isAllowed) moves) rest
      rwa [List.append_assoc] at extended

end Schedule

import Mathlib

/-!
# Loops

A `while True` loop is given by its body, which either leaves the loop with a
result or goes round again, and by a measure that every further round makes
smaller. `Loop.run_spec` is the rule for partial specifications by an invariant;
termination has been settled by the measure.
-/

universe u v

namespace Loop

/-- What one round of a loop does. -/
inductive Step (σ : Type u) (α : Type v) where
  | done (result : α) (state : σ)
  | again (state : σ)

variable {σ : Type u} {α : Type v}

/-- The round keeps `Inv` when it goes on and establishes `Post` when it leaves. -/
def Step.Satisfies (Inv : σ → Prop) (Post : α → σ → Prop) : Step σ α → Prop
  | .done result state => Post result state
  | .again state => Inv state

/-- Every further round makes the measure smaller. -/
def Decreases (measure : σ → ℕ) (body : σ → Step σ α) : Prop :=
  ∀ state next, body state = .again next → measure next < measure state

/-- Run the loop to its end. -/
def run (measure : σ → ℕ) (body : σ → Step σ α) (decreases : Decreases measure body)
    (state : σ) : α × σ :=
  match _round : body state with
  | .done result final => (result, final)
  | .again next => run measure body decreases next
termination_by measure state
decreasing_by exact decreases state next _round

variable {measure : σ → ℕ} {body : σ → Step σ α} {decreases : Decreases measure body}
  {state next final : σ} {result : α}

theorem run_done (round : body state = .done result final) :
    run measure body decreases state = (result, final) := by
  rw [run]
  split
  case h_1 result' final' round' =>
    rw [round] at round'
    cases round'
    rfl
  case h_2 next round' =>
    rw [round] at round'
    cases round'

theorem run_again (round : body state = .again next) :
    run measure body decreases state = run measure body decreases next := by
  rw [run]
  split
  case h_1 result' final' round' =>
    rw [round] at round'
    cases round'
  case h_2 next' round' =>
    rw [round] at round'
    cases round'
    rfl

/-- The invariant rule: an invariant that every round keeps, and from which every last
round establishes `Post`, proves `Post` of the whole loop. -/
theorem run_spec (Inv : σ → Prop) (Post : α → σ → Prop)
    (round : ∀ state, Inv state → (body state).Satisfies Inv Post) (start : Inv state) :
    Post (run measure body decreases state).1 (run measure body decreases state).2 := by
  induction size : measure state using Nat.strong_induction_on generalizing state with
  | _ size' ih =>
      subst size
      have satisfies := round state start
      cases outcome : body state with
      | done result final =>
          rw [outcome] at satisfies
          rw [run_done outcome]
          exact satisfies
      | again next =>
          rw [outcome] at satisfies
          rw [run_again outcome]
          exact ih _ (decreases state next outcome) satisfies rfl

/-- The rounds of two loops, of which both go on in related states or both leave as `Post` says. -/
def Step.Related {τ : Type u} (R : σ → τ → Prop) (Post : α → σ → α → τ → Prop) :
    Step σ α → Step τ α → Prop
  | .done result state, .done result' state' => Post result state result' state'
  | .again state, .again state' => R state state'
  | _, _ => False

/-- The rule for two loops that go round together. -/
theorem run_related {τ : Type u} {measure' : τ → ℕ} {body' : τ → Step τ α}
    (decreases : Decreases measure body) (decreases' : Decreases measure' body') {state' : τ}
    (R : σ → τ → Prop) (Post : α → σ → α → τ → Prop)
    (round : ∀ state state', R state state' → (body state).Related R Post (body' state'))
    (start : R state state') :
    Post (run measure body decreases state).1 (run measure body decreases state).2
      (run measure' body' decreases' state').1 (run measure' body' decreases' state').2 := by
  induction size : measure state using Nat.strong_induction_on generalizing state state' with
  | _ size' ih =>
      subst size
      have related := round state state' start
      cases outcome : body state with
      | done result final =>
          cases outcome' : body' state' with
          | done result' final' =>
              rw [outcome, outcome'] at related
              rw [run_done outcome, run_done outcome']
              exact related
          | again next' =>
              rw [outcome, outcome'] at related
              exact related.elim
      | again next =>
          cases outcome' : body' state' with
          | done result' final' =>
              rw [outcome, outcome'] at related
              exact related.elim
          | again next' =>
              rw [outcome, outcome'] at related
              rw [run_again outcome, run_again outcome']
              exact ih _ (decreases state next outcome) related rfl

end Loop

import Mathlib

/-!
# Programs that call a shared world

A program returns, fails, or makes a call and goes on with the answer. A call is
performed on a world that others change as well: before each call the world may
have moved. The trace of a run has the calls, each with the world it was made in,
from which its answer and its effect follow.

`Ensures` is the rule for what holds of the trace and the outcome of every run
whose calls are all made in allowed worlds. It is computed along the program, and
sequencing composes. `exec` runs a program in a world that nobody else changes.
-/

universe u v w

namespace Interaction

/-- A program with calls from `C`, answered in `A`, and failures in `ε`. -/
inductive Prog (C : Type u) (A : C → Type u) (ε : Type u) (α : Type v) where
  | done (result : α)
  | fail (failure : ε)
  | call (request : C) (next : A request → Prog C A ε α)

namespace Prog

variable {C : Type u} {A : C → Type u} {ε : Type u} {α β : Type v}

protected def bind : Prog C A ε α → (α → Prog C A ε β) → Prog C A ε β
  | .done result, rest => rest result
  | .fail failure, _ => .fail failure
  | .call request next, rest => .call request fun answer => (next answer).bind rest

instance : Monad (Prog C A ε) where
  pure := .done
  bind := .bind

/-- One call, with its answer as the result. -/
def ask (request : C) : Prog C A ε (A request) :=
  .call request .done

/-- The program that ends in an outcome at once. -/
def ofExcept : Except ε α → Prog C A ε α
  | .ok result => .done result
  | .error failure => .fail failure

/-- The failures of a program, renamed by its caller. -/
def mapFail (rename : ε → ε) : Prog C A ε α → Prog C A ε α
  | .done result => .done result
  | .fail failure => .fail (rename failure)
  | .call request next => .call request fun answer => (next answer).mapFail rename

/-- Every call the program can make satisfies `P`. -/
def Only (P : C → Prop) : Prog C A ε α → Prop
  | .done _ => True
  | .fail _ => True
  | .call request next => P request ∧ ∀ answer, (next answer).Only P

@[simp]
theorem pure_eq (result : α) : (pure result : Prog C A ε α) = .done result :=
  rfl

@[simp]
theorem bind_done (result : α) (rest : α → Prog C A ε β) :
    (Prog.done result >>= rest) = rest result :=
  rfl

@[simp]
theorem bind_fail (failure : ε) (rest : α → Prog C A ε β) :
    ((Prog.fail failure : Prog C A ε α) >>= rest) = .fail failure :=
  rfl

@[simp]
theorem bind_call (request : C) (next : A request → Prog C A ε α) (rest : α → Prog C A ε β) :
    (Prog.call request next >>= rest) = .call request fun answer => next answer >>= rest :=
  rfl

theorem Only.bind {P : C → Prop} {prog : Prog C A ε α} {rest : α → Prog C A ε β}
    (first : prog.Only P) (second : ∀ result, (rest result).Only P) :
    (prog >>= rest).Only P := by
  induction prog with
  | done result => exact second result
  | fail failure => exact first
  | call request next ih => exact ⟨first.1, fun answer => ih answer (first.2 answer)⟩

theorem only_ofExcept {P : C → Prop} (outcome : Except ε α) :
    (ofExcept outcome : Prog C A ε α).Only P := by
  cases outcome <;> trivial

theorem Only.mono {P Q : C → Prop} {prog : Prog C A ε α} (only : prog.Only P)
    (weaker : ∀ request, P request → Q request) : prog.Only Q := by
  induction prog with
  | done result => trivial
  | fail failure => trivial
  | call request next ih => exact ⟨weaker request only.1, fun answer => ih answer (only.2 answer)⟩

end Prog

/-- A call with the world it was made in. -/
structure Moment (C : Type u) (σ : Type w) where
  request : C
  world : σ
deriving DecidableEq

section Semantics

variable {C : Type u} {A : C → Type u} {ε : Type u} {α β : Type v} {σ : Type w}
  (perform : (request : C) → σ → A request × σ)

/-- The runs of a program from a world: the trace, the outcome, and the world left behind. -/
inductive Runs (others : σ → σ → Prop) :
    Prog C A ε α → σ → List (Moment C σ) → Except ε α → σ → Prop where
  | done {result : α} {world : σ} : Runs others (.done result) world [] (.ok result) world
  | fail {failure : ε} {world : σ} : Runs others (.fail failure) world [] (.error failure) world
  | call {request : C} {next : A request → Prog C A ε α} {world moved final : σ}
      {trace : List (Moment C σ)} {outcome : Except ε α} (move : others world moved)
      (rest : Runs others (next (perform request moved).1) (perform request moved).2 trace outcome
        final) :
      Runs others (.call request next) world (⟨request, moved⟩ :: trace) outcome final

/-- The run of a program in a world nobody else changes. -/
def exec : Prog C A ε α → σ → List (Moment C σ) × Except ε α × σ
  | .done result, world => ([], .ok result, world)
  | .fail failure, world => ([], .error failure, world)
  | .call request next, world =>
      let rest := exec (next (perform request world).1) (perform request world).2
      (⟨request, world⟩ :: rest.1, rest.2)

/-- What holds of the trace and the outcome when all calls are made in allowed worlds. -/
def Ensures (allowed : σ → Prop) :
    Prog C A ε α → (List (Moment C σ) → Except ε α → Prop) → Prop
  | .done result, Post => Post [] (.ok result)
  | .fail failure, Post => Post [] (.error failure)
  | .call request next, Post => ∀ world, allowed world →
      Ensures allowed (next (perform request world).1) fun trace outcome =>
        Post (⟨request, world⟩ :: trace) outcome

variable {perform} {others : σ → σ → Prop} {allowed : σ → Prop} {prog : Prog C A ε α}
  {rest : α → Prog C A ε β} {world final : σ} {trace : List (Moment C σ)} {outcome : Except ε α}

theorem exec_runs (still : ∀ world, others world world) :
    Runs perform others prog world (exec perform prog world).1 (exec perform prog world).2.1
      (exec perform prog world).2.2 := by
  induction prog generalizing world with
  | done result => exact .done
  | fail failure => exact .fail
  | call request next ih => exact .call (still world) (ih _)

theorem exec_bind : exec perform (prog >>= rest) world =
    match exec perform prog world with
    | (before, .error failure, reached) => (before, .error failure, reached)
    | (before, .ok result, reached) =>
        let later := exec perform (rest result) reached
        (before ++ later.1, later.2) := by
  induction prog generalizing world with
  | done result => rfl
  | fail failure => rfl
  | call request next ih =>
      simp only [Prog.bind_call, exec, ih]
      rcases exec perform (next (perform request world).1) (perform request world).2
        with ⟨before, failure | result, reached⟩ <;> rfl

/-- A program of one call, whose answer settles the outcome. -/
theorem exec_call_ofExcept {request : C} {settle : A request → Except ε α} :
    exec perform (.call request fun answer => .ofExcept (settle answer)) world =
      ([⟨request, world⟩], settle (perform request world).1, (perform request world).2) := by
  rw [exec]
  cases settle (perform request world).1 <;> rfl

theorem ensures_ofExcept {ended : Except ε α} {Post : List (Moment C σ) → Except ε α → Prop}
    (post : Post [] ended) : Ensures perform allowed (.ofExcept ended) Post := by
  cases ended with
  | ok result => exact post
  | error failure => exact post

theorem Runs.of_ofExcept {ended : Except ε α}
    (run : Runs perform others (.ofExcept ended) world trace outcome final) :
    trace = [] ∧ outcome = ended ∧ final = world := by
  cases ended with
  | ok result =>
      cases run
      exact ⟨rfl, rfl, rfl⟩
  | error failure =>
      cases run
      exact ⟨rfl, rfl, rfl⟩

theorem ensures_call_ofExcept {request : C} {settle : A request → Except ε α}
    {Post : List (Moment C σ) → Except ε α → Prop}
    (settles : ∀ world, allowed world →
      Post [⟨request, world⟩] (settle (perform request world).1)) :
    Ensures perform allowed (.call request fun answer => .ofExcept (settle answer)) Post := by
  intro world isAllowed
  exact ensures_ofExcept (settles world isAllowed)

theorem Runs.of_call_ofExcept {request : C} {settle : A request → Except ε α}
    (run : Runs perform others (.call request fun answer => .ofExcept (settle answer)) world trace
      outcome final) :
    ∃ moved, others world moved ∧ trace = [⟨request, moved⟩] ∧
      outcome = settle (perform request moved).1 ∧ final = (perform request moved).2 := by
  cases run with
  | call move rest =>
      rename_i moved later
      rcases rest.of_ofExcept with ⟨rfl, isOutcome, isFinal⟩
      exact ⟨moved, move, rfl, isOutcome, isFinal⟩

theorem Prog.Only.moments {P : C → Prop} (only : prog.Only P) :
    ∀ moment ∈ (exec perform prog world).1, P moment.request := by
  induction prog generalizing world with
  | done result => exact fun _ mem => absurd mem List.not_mem_nil
  | fail failure => exact fun _ mem => absurd mem List.not_mem_nil
  | call request next ih =>
      intro moment mem
      rcases List.mem_cons.mp mem with rfl | later
      · exact only.1
      · exact ih _ (only.2 _) moment later

/-- Calls that have no effect leave the world as it is. -/
theorem Prog.Only.exec_world {P : C → Prop} (only : prog.Only P)
    (idle : ∀ request world, P request → (perform request world).2 = world) :
    (exec perform prog world).2.2 = world := by
  induction prog generalizing world with
  | done result => rfl
  | fail failure => rfl
  | call request next ih =>
      have same : (exec perform (next (perform request world).1) (perform request world).2).2.2 =
          (perform request world).2 :=
        ih (perform request world).1 (only.2 _)
      rw [idle request world only.1] at same
      simpa only [exec, idle request world only.1] using same

theorem Runs.of_call {request : C} {next : A request → Prog C A ε α}
    (run : Runs perform others (.call request next) world trace outcome final) :
    ∃ moved later, others world moved ∧ trace = ⟨request, moved⟩ :: later ∧
      Runs perform others (next (perform request moved).1) (perform request moved).2 later outcome
        final := by
  cases run with
  | call move rest => exact ⟨_, _, move, rfl, rest⟩

theorem Runs.of_bind {rest : α → Prog C A ε β} {outcome : Except ε β}
    (run : Runs perform others (prog >>= rest) world trace outcome final) :
    (∃ failure, outcome = .error failure ∧
        Runs perform others prog world trace (.error failure) final) ∨
      ∃ result reached before later, trace = before ++ later ∧
        Runs perform others prog world before (.ok result) reached ∧
        Runs perform others (rest result) reached later outcome final := by
  induction prog generalizing world trace with
  | done result => exact .inr ⟨result, world, [], trace, rfl, .done, run⟩
  | fail failure =>
      cases run
      exact .inl ⟨failure, rfl, .fail⟩
  | call request next ih =>
      cases run with
      | call move run =>
          rcases ih _ run with ⟨failure, failed, first⟩ | ⟨result, reached, before, later, split,
            first, second⟩
          · exact .inl ⟨failure, failed, .call move first⟩
          · subst split
            exact .inr ⟨result, reached, _ :: before, later, rfl, .call move first, second⟩

theorem Runs.of_bind_ok {rest : α → Prog C A ε β} {result : β}
    (run : Runs perform others (prog >>= rest) world trace (.ok result) final) :
    ∃ middle reached before later, trace = before ++ later ∧
      Runs perform others prog world before (.ok middle) reached ∧
      Runs perform others (rest middle) reached later (.ok result) final := by
  rcases run.of_bind with ⟨failure, failed, -⟩ | reached
  · cases failed
  · exact reached

/-- Every call of a run is one the program can make. -/
theorem Runs.only {P : C → Prop} (only : prog.Only P)
    (run : Runs perform others prog world trace outcome final) :
    ∀ moment ∈ trace, P moment.request := by
  induction run with
  | done => exact fun _ mem => absurd mem List.not_mem_nil
  | fail => exact fun _ mem => absurd mem List.not_mem_nil
  | call move rest ih => exact List.forall_mem_cons.mpr ⟨only.1, ih (only.2 _)⟩

theorem Runs.of_mapFail {rename : ε → ε}
    (run : Runs perform others (prog.mapFail rename) world trace outcome final) :
    ∃ inner, outcome = inner.mapError rename ∧
      Runs perform others prog world trace inner final := by
  induction prog generalizing world trace with
  | done result =>
      cases run
      exact ⟨.ok result, rfl, .done⟩
  | fail failure =>
      cases run
      exact ⟨.error failure, rfl, .fail⟩
  | call request next ih =>
      cases run with
      | call move run =>
          rcases ih _ run with ⟨inner, same, first⟩
          exact ⟨inner, same, .call move first⟩

/-- The invariant rule: what the others keep, and what the calls of the program keep, holds in
every world the program meets. -/
theorem Runs.invariant {Inv : σ → Prop} {P : C → Prop} (only : prog.Only P)
    (rely : ∀ world moved, others world moved → Inv world → Inv moved)
    (keeps : ∀ request world, P request → Inv world → Inv (perform request world).2)
    (start : Inv world) (run : Runs perform others prog world trace outcome final) :
    (∀ moment ∈ trace, Inv moment.world) ∧ Inv final := by
  induction run with
  | done => exact ⟨fun _ mem => absurd mem List.not_mem_nil, start⟩
  | fail => exact ⟨fun _ mem => absurd mem List.not_mem_nil, start⟩
  | call move rest ih =>
      have moved := rely _ _ move start
      rcases ih (only.2 _) (keeps _ _ only.1 moved) with ⟨later, ends⟩
      refine ⟨?_, ends⟩
      intro moment mem
      rcases List.mem_cons.mp mem with rfl | tail
      · exact moved
      · exact later moment tail

theorem Runs.post {Post : List (Moment C σ) → Except ε α → Prop}
    (run : Runs perform others prog world trace outcome final)
    (ensures : Ensures perform allowed prog Post)
    (moments : ∀ moment ∈ trace, allowed moment.world) : Post trace outcome := by
  induction run generalizing Post with
  | done => exact ensures
  | fail => exact ensures
  | call move rest ih =>
      exact ih (ensures _ (moments _ List.mem_cons_self))
        fun moment mem => moments moment (List.mem_cons_of_mem _ mem)

theorem Ensures.mono {Post Weaker : List (Moment C σ) → Except ε α → Prop}
    (ensures : Ensures perform allowed prog Post)
    (weaker : ∀ trace outcome, Post trace outcome → Weaker trace outcome) :
    Ensures perform allowed prog Weaker := by
  induction prog generalizing Post Weaker with
  | done result => exact weaker _ _ ensures
  | fail failure => exact weaker _ _ ensures
  | call request next ih =>
      intro world isAllowed
      exact ih _ (ensures world isAllowed) fun trace outcome => weaker _ outcome

/-- The rule for sequencing: what is to hold at the end is asked of the second program, behind
the trace of the first. -/
theorem Ensures.bind {Post : List (Moment C σ) → Except ε β → Prop}
    {Mid : List (Moment C σ) → Except ε α → Prop}
    (ensures : Ensures perform allowed prog Mid)
    (fails : ∀ trace failure, Mid trace (.error failure) → Post trace (.error failure))
    (continues : ∀ before result, Mid before (.ok result) →
      Ensures perform allowed (rest result) fun trace outcome => Post (before ++ trace) outcome) :
    Ensures perform allowed (prog >>= rest) Post := by
  induction prog generalizing Post Mid with
  | done result => exact continues _ _ ensures
  | fail failure => exact fails _ _ ensures
  | call request next ih =>
      intro world isAllowed
      exact ih _ (ensures world isAllowed) (fun trace failure => fails _ failure)
        fun before result => continues _ result

theorem Ensures.mapFail {Post : List (Moment C σ) → Except ε α → Prop} {rename : ε → ε}
    (ensures : Ensures perform allowed prog fun trace outcome =>
      Post trace (outcome.mapError rename)) :
    Ensures perform allowed (prog.mapFail rename) Post := by
  induction prog generalizing Post with
  | done result => exact ensures
  | fail failure => exact ensures
  | call request next ih =>
      intro world isAllowed
      exact ih _ (ensures world isAllowed)

theorem exec_mapFail {rename : ε → ε} : exec perform (prog.mapFail rename) world =
    ((exec perform prog world).1, (exec perform prog world).2.1.mapError rename,
      (exec perform prog world).2.2) := by
  induction prog generalizing world with
  | done result => rfl
  | fail failure => rfl
  | call request next ih => simp only [Prog.mapFail, exec, ih]

end Semantics

end Interaction

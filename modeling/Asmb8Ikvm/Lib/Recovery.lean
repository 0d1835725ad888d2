import Asmb8Ikvm.Lib.Interaction

/-!
# Programs that are interrupted

A program that is interrupted stops between two of its calls and leaves the world
as it is then. `Reaches` relates a program and a world to every point it can be
interrupted at, the ends of its runs among them.

`Guards` is the rule for such programs: an invariant holds after every call, and a
postcondition of the outcome holds at the end. It is computed along the program,
sequencing composes, and `attempt` turns a failure into a result. A history runs a
program again and again in the world that the last run has left, whether that run
has ended or was interrupted.

What is still due after a series of events is read from a log, the latest event
first: `Pending` says that nothing since an opening event has closed it.
-/

universe u v w x

namespace Interaction

namespace Prog

variable {C : Type u} {A : C → Type u} {ε ε' : Type u} {α : Type v}

/-- The outcome of a program as a result. -/
def attempt : Prog C A ε α → Prog C A ε' (Except ε α)
  | .done result => .done (.ok result)
  | .fail failure => .done (.error failure)
  | .call request next => .call request fun answer => (next answer).attempt

end Prog

section Interruption

variable {C : Type u} {A : C → Type u} {ε ε' : Type u} {α β : Type v} {σ : Type w}
  (perform : (request : C) → σ → A request × σ) (others : σ → σ → Prop)

/-- What is left of a program, and the world, at a point of a run. -/
inductive Reaches : Prog C A ε α → σ → Prog C A ε α → σ → Prop where
  | here {prog : Prog C A ε α} {world : σ} : Reaches prog world prog world
  | call {request : C} {next : A request → Prog C A ε α} {left : Prog C A ε α}
      {world moved final : σ} (move : others world moved)
      (rest : Reaches (next (perform request moved).1) (perform request moved).2 left final) :
      Reaches (.call request next) world left final

/-- The invariant holds after every call, and the postcondition of the outcome at the end. -/
def Guards (Inv : σ → Prop) : Prog C A ε α → (Except ε α → σ → Prop) → σ → Prop
  | .done result, Post, world => Post (.ok result) world
  | .fail failure, Post, world => Post (.error failure) world
  | .call request next, Post, world => ∀ moved, others world moved →
      Inv (perform request moved).2 ∧
        Guards Inv (next (perform request moved).1) Post (perform request moved).2

variable {perform} {others} {Inv : σ → Prop} {prog left : Prog C A ε α} {world final : σ}
  {Post : Except ε α → σ → Prop}

theorem Reaches.guarded (reaches : Reaches perform others prog world left final)
    (start : Inv world) (guards : Guards perform others Inv prog Post world) :
    Inv final ∧ Guards perform others Inv left Post final := by
  induction reaches with
  | here => exact ⟨start, guards⟩
  | call move rest ih =>
      rcases guards _ move with ⟨holds, later⟩
      exact ih holds later

theorem Runs.reaches {trace : List (Moment C σ)} {outcome : Except ε α}
    (run : Runs perform others prog world trace outcome final) :
    Reaches perform others prog world (.ofExcept outcome) final := by
  induction run with
  | done => exact .here
  | fail => exact .here
  | call move rest ih => exact .call move ih

theorem guards_ofExcept {outcome : Except ε α} :
    Guards perform others Inv (.ofExcept outcome) Post world ↔ Post outcome world := by
  cases outcome <;> rfl

/-- What a run that ends has come to. -/
theorem Reaches.ended {outcome : Except ε α}
    (reaches : Reaches perform others prog world (.ofExcept outcome) final)
    (start : Inv world) (guards : Guards perform others Inv prog Post world) :
    Post outcome final :=
  guards_ofExcept.mp (reaches.guarded start guards).2

/-- Where the others may leave an allowed world as it is, its execution is a run. -/
theorem exec_runs_allowed {allowed : σ → Prop} (start : allowed world)
    (still : ∀ world, allowed world → others world world)
    (keeps : ∀ request world, allowed world → allowed (perform request world).2) :
    Runs perform others prog world (exec perform prog world).1 (exec perform prog world).2.1
      (exec perform prog world).2.2 := by
  induction prog generalizing world with
  | done result => exact .done
  | fail failure => exact .fail
  | call request next ih => exact .call (still world start) (ih _ (keeps request world start))

/-- A program keeps what all its calls keep. -/
theorem Guards.of_only {P : C → Prop} (only : prog.Only P) (start : Inv world)
    (keeps : ∀ request world moved, P request → Inv world → others world moved →
      Inv (perform request moved).2) :
    Guards perform others Inv prog (fun _ => Inv) world := by
  induction prog generalizing world with
  | done result => exact start
  | fail failure => exact start
  | call request next ih =>
      intro moved move
      have kept := keeps request world moved only.1 start move
      exact ⟨kept, ih _ (only.2 _) kept⟩

theorem Guards.mono {Weaker : Except ε α → σ → Prop}
    (guards : Guards perform others Inv prog Post world)
    (weaker : ∀ outcome final, Post outcome final → Weaker outcome final) :
    Guards perform others Inv prog Weaker world := by
  induction prog generalizing world with
  | done result => exact weaker _ _ guards
  | fail failure => exact weaker _ _ guards
  | call request next ih =>
      intro moved move
      rcases guards moved move with ⟨holds, later⟩
      exact ⟨holds, ih _ later⟩

theorem Guards.weaken {Weaker : σ → Prop} (guards : Guards perform others Inv prog Post world)
    (weaker : ∀ world, Inv world → Weaker world) :
    Guards perform others Weaker prog Post world := by
  induction prog generalizing world with
  | done result => exact guards
  | fail failure => exact guards
  | call request next ih =>
      intro moved move
      exact ⟨weaker _ (guards moved move).1, ih _ (guards moved move).2⟩

theorem Guards.and {Other : σ → Prop} {Also : Except ε α → σ → Prop}
    (guards : Guards perform others Inv prog Post world)
    (also : Guards perform others Other prog Also world) :
    Guards perform others Inv prog (fun outcome final => Post outcome final ∧ Also outcome final)
      world := by
  induction prog generalizing world with
  | done result => exact ⟨guards, also⟩
  | fail failure => exact ⟨guards, also⟩
  | call request next ih =>
      intro moved move
      exact ⟨(guards moved move).1, ih _ (guards moved move).2 (also moved move).2⟩

/-- The rule for sequencing. -/
theorem Guards.bind {rest : α → Prog C A ε β} {Mid : Except ε α → σ → Prop}
    {Post : Except ε β → σ → Prop} (guards : Guards perform others Inv prog Mid world)
    (fails : ∀ failure reached, Mid (.error failure) reached → Post (.error failure) reached)
    (continues : ∀ result reached, Mid (.ok result) reached →
      Guards perform others Inv (rest result) Post reached) :
    Guards perform others Inv (prog >>= rest) Post world := by
  induction prog generalizing world with
  | done result => exact continues _ _ guards
  | fail failure => exact fails _ _ guards
  | call request next ih =>
      intro moved move
      rcases guards moved move with ⟨holds, later⟩
      exact ⟨holds, ih _ later⟩

theorem Guards.attempt {Post : Except ε' (Except ε α) → σ → Prop}
    (guards : Guards perform others Inv prog (fun outcome => Post (.ok outcome)) world) :
    Guards perform others Inv (prog.attempt : Prog C A ε' (Except ε α)) Post world := by
  induction prog generalizing world with
  | done result => exact guards
  | fail failure => exact guards
  | call request next ih =>
      intro moved move
      rcases guards moved move with ⟨holds, later⟩
      exact ⟨holds, ih _ later⟩

/-- The rule for one call, whose answer settles the outcome. -/
theorem Guards.call_ofExcept {request : C} {settle : A request → Except ε α}
    (settles : ∀ moved, others world moved → Inv (perform request moved).2 ∧
      Post (settle (perform request moved).1) (perform request moved).2) :
    Guards perform others Inv (.call request fun answer => .ofExcept (settle answer)) Post
      world := by
  intro moved move
  rcases settles moved move with ⟨holds, post⟩
  exact ⟨holds, guards_ofExcept.mpr post⟩

end Interruption

section History

variable {P : Type x} {C : Type u} {A : C → Type u} {ε : Type u} {α : Type v} {σ : Type w}
  (perform : (request : C) → σ → A request × σ) (others : σ → σ → Prop)
  (program : P → Prog C A ε α) (begins : P → σ → σ) (initial : σ → Prop)

/-- The worlds that runs of the program lead to, one after the other, each interrupted or not. -/
inductive History : σ → Prop where
  | start {world : σ} (isInitial : initial world) : History world
  | run {world final : σ} {left : Prog C A ε α} (earlier : History world) (parameter : P)
      (reaches : Reaches perform others (program parameter) (begins parameter world) left final) :
      History final

variable {perform others program begins initial} {Inv : σ → Prop} {world : σ}

/-- The invariant rule for histories. -/
theorem History.invariant (history : History perform others program begins initial world)
    (start : ∀ world, initial world → Inv world)
    (keeps : ∀ parameter world, Inv world → Inv (begins parameter world))
    (guards : ∀ parameter world, Inv world →
      Guards perform others Inv (program parameter) (fun _ _ => True) (begins parameter world)) :
    Inv world := by
  induction history with
  | start isInitial => exact start _ isInitial
  | run earlier parameter reaches ih =>
      exact (reaches.guarded (keeps parameter _ ih) (guards parameter _ ih)).1

end History

section Log

variable {E : Type u} {opens closes : E → Prop} {log later earlier : List E} {event : E}

/-- An opening event that nothing later has closed. -/
def Pending (opens closes : E → Prop) : List E → Prop
  | [] => False
  | event :: log => opens event ∨ ¬closes event ∧ Pending opens closes log

theorem pending_iff : Pending opens closes log ↔
    ∃ later event earlier, log = later ++ event :: earlier ∧ opens event ∧
      ∀ other ∈ later, ¬closes other := by
  induction log with
  | nil =>
      refine ⟨fun pending => pending.elim, ?_⟩
      rintro ⟨later, event, earlier, split, _⟩
      cases later <;> cases split
  | cons head log ih =>
      constructor
      · rintro (isOpen | ⟨stays, pending⟩)
        · exact ⟨[], head, log, rfl, isOpen, fun _ mem => absurd mem List.not_mem_nil⟩
        · rcases ih.mp pending with ⟨later, event, earlier, split, isOpen, stay⟩
          refine ⟨head :: later, event, earlier, by rw [split]; rfl, isOpen, ?_⟩
          exact List.forall_mem_cons.mpr ⟨stays, stay⟩
      · rintro ⟨later, event, earlier, split, isOpen, stay⟩
        cases later with
        | nil =>
            cases split
            exact .inl isOpen
        | cons first later =>
            cases split
            rcases List.forall_mem_cons.mp stay with ⟨stays, stay⟩
            exact .inr ⟨stays, ih.mpr ⟨later, event, earlier, rfl, isOpen, stay⟩⟩

/-- What is not pending has been closed. -/
theorem exists_closes (settled : ¬Pending opens closes (later ++ event :: earlier))
    (isOpen : opens event) : ∃ other ∈ later, closes other := by
  by_contra none
  exact settled (pending_iff.mpr ⟨later, event, earlier, rfl, isOpen,
    fun other mem isClosed => none ⟨other, mem, isClosed⟩⟩)

end Log

end Interaction

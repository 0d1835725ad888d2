import Asmb8Ikvm.Lib.Interaction

/-!
# Programs that look before they act

A planned program looks at the world, and acts only when something is to change
and it does not run in check mode; otherwise it reports what it has seen. A run in
check mode foretells the run that acts: it goes as far without changing anything,
and promises what the other comes to.

`ActsLast` is the rule for the acting part: the first call that can change
something is the last call of the program. `Yields` is the rule for its results,
and `Blames` the one for its failures: each is told by the call made last.
-/

universe u v w

namespace Interaction

variable {C : Type u} {A : C → Type u} {ε : Type u} {α β ι : Type v} {σ : Type w}

namespace Prog

/-- Looks first, and acts when something is to change and it is no check. -/
def planned (look : Prog C A ε (Bool × ι)) (check : Bool) (report : Bool → ι → β)
    (act : ι → Prog C A ε β) : Prog C A ε β :=
  look >>= fun plan =>
    if plan.1 = false ∨ check = true then pure (report plan.1 plan.2) else act plan.2

/-- The program has ended. -/
def Ended : Prog C A ε α → Prop
  | .call _ _ => False
  | _ => True

/-- The program ends well only with a call that can change something, and it makes no call
behind such a one. -/
def ActsLast (Mutates : C → Prop) : Prog C A ε α → Prop
  | .done _ => False
  | .fail _ => True
  | .call request next => Mutates request ∧ (∀ answer, (next answer).Ended) ∨
      ¬Mutates request ∧ ∀ answer, (next answer).ActsLast Mutates

/-- Every result of the program satisfies `P`. -/
def Yields (P : α → Prop) : Prog C A ε α → Prop
  | .done result => P result
  | .fail _ => True
  | .call _ next => ∀ answer, (next answer).Yields P

/-- Every failure of the program comes from the answer to the call made last, in the way
`Told` states; `refusal` holds of those that no call precedes. -/
def Blames (Told : (request : C) → A request → ε → Prop) (refusal : ε → Prop) :
    Prog C A ε α → Prop
  | .done _ => True
  | .fail failure => refusal failure
  | .call request next => ∀ answer, (next answer).Blames Told (Told request answer)

variable {Mutates : C → Prop} {prog : Prog C A ε α} {rest : α → Prog C A ε β} {P : β → Prop}
  {Told : (request : C) → A request → ε → Prop} {refusal : ε → Prop}

theorem ended_ofExcept (outcome : Except ε α) : (ofExcept outcome : Prog C A ε α).Ended := by
  cases outcome <;> trivial

theorem ActsLast.bind (quiet : prog.Only (¬Mutates ·))
    (acts : ∀ result, (rest result).ActsLast Mutates) : (prog >>= rest).ActsLast Mutates := by
  induction prog with
  | done result => exact acts result
  | fail failure => trivial
  | call request next ih => exact .inr ⟨quiet.1, fun answer => ih answer (quiet.2 answer)⟩

theorem Ended.map {finish : α → β} (ended : prog.Ended) :
    (prog >>= fun result => pure (finish result)).Ended := by
  cases prog with
  | done result => trivial
  | fail failure => trivial
  | call request next => exact ended.elim

theorem ActsLast.map {finish : α → β} (acts : prog.ActsLast Mutates) :
    (prog >>= fun result => pure (finish result)).ActsLast Mutates := by
  induction prog with
  | done result => exact acts.elim
  | fail failure => trivial
  | call request next ih =>
      rcases acts with ⟨mutates, ended⟩ | ⟨isQuiet, later⟩
      · exact .inl ⟨mutates, fun answer => (ended answer).map⟩
      · exact .inr ⟨isQuiet, fun answer => ih answer (later answer)⟩

theorem actsLast_call_ofExcept {request : C} {settle : A request → Except ε α}
    (mutates : Mutates request) :
    (Prog.call request fun answer => ofExcept (settle answer) : Prog C A ε α).ActsLast Mutates :=
  .inl ⟨mutates, fun answer => ended_ofExcept (settle answer)⟩

theorem Yields.bind (continues : ∀ result, (rest result).Yields P) : (prog >>= rest).Yields P := by
  induction prog with
  | done result => exact continues result
  | fail failure => trivial
  | call request next ih => exact fun answer => ih answer

theorem Yields.mono {P Q : α → Prop} (yields : prog.Yields P)
    (weaker : ∀ result, P result → Q result) : prog.Yields Q := by
  induction prog with
  | done result => exact weaker result yields
  | fail failure => trivial
  | call request next ih => exact fun answer => ih answer (yields answer)

theorem blames_ofExcept {outcome : Except ε α}
    (told : ∀ failure, outcome = .error failure → refusal failure) :
    (ofExcept outcome : Prog C A ε α).Blames Told refusal := by
  cases outcome with
  | ok result => trivial
  | error failure => exact told failure rfl

theorem Blames.bind (first : prog.Blames Told refusal)
    (second : ∀ result refusal, (rest result).Blames Told refusal) :
    (prog >>= rest).Blames Told refusal := by
  induction prog generalizing refusal with
  | done result => exact second result refusal
  | fail failure => exact first
  | call request next ih => exact fun answer => ih answer (first answer)

theorem Blames.planned {look : Prog C A ε (Bool × ι)} {check : Bool} {report : Bool → ι → β}
    {act : ι → Prog C A ε β} (looks : look.Blames Told refusal)
    (acts : ∀ seen refusal, (act seen).Blames Told refusal) :
    (Prog.planned look check report act).Blames Told refusal := by
  refine looks.bind fun plan refusal => ?_
  split_ifs
  · trivial
  · exact acts plan.2 refusal

end Prog

section Foretelling

variable {perform : (request : C) → σ → A request × σ} {Mutates : C → Prop}
  {prog : Prog C A ε α} {look : Prog C A ε (Bool × ι)} {report : Bool → ι → β}
  {act : ι → Prog C A ε β} {world : σ} {isChanged : β → Bool} {Agrees : β → β → Prop}

/-- One call at most can change something; it is the last one, and a run that ends well has made
it. -/
def ActedLast (Mutates : C → Prop) (trace : List (Moment C σ)) (outcome : Except ε α) : Prop :=
  ∃ quiet acted, trace = quiet ++ acted ∧ (∀ moment ∈ quiet, ¬Mutates moment.request) ∧
    (∀ moment ∈ acted, Mutates moment.request) ∧ acted.length ≤ 1 ∧
    ∀ result, outcome = .ok result → acted ≠ []

theorem Prog.Ended.trace_nil (ended : prog.Ended) : (exec perform prog world).1 = [] := by
  cases prog with
  | done result => rfl
  | fail failure => rfl
  | call request next => exact ended.elim

theorem Prog.ActsLast.exec (acts : prog.ActsLast Mutates) :
    ActedLast Mutates (Interaction.exec perform prog world).1
      (Interaction.exec perform prog world).2.1 := by
  induction prog generalizing world with
  | done result => exact acts.elim
  | fail failure => exact ⟨[], [], rfl, by simp, by simp, by simp, (fun _ ended => by cases ended)⟩
  | call request next ih =>
      rcases acts with ⟨mutates, ended⟩ | ⟨isQuiet, later⟩
      · refine ⟨[], [⟨request, world⟩], ?_, by simp, by simpa using mutates, le_rfl, by simp⟩
        rw [Interaction.exec, (ended (perform request world).1).trace_nil, List.nil_append]
      · rcases ih (perform request world).1 (later _) with
          ⟨quiet, acted, split, silent, mutates, short, ends⟩
        refine ⟨⟨request, world⟩ :: quiet, acted, ?_, ?_, mutates, short, ends⟩
        · rw [Interaction.exec, split, List.cons_append]
        · exact List.forall_mem_cons.mpr ⟨isQuiet, silent⟩

theorem Prog.Yields.exec {P : α → Prop} (yields : prog.Yields P) {result : α}
    (ends : (Interaction.exec perform prog world).2.1 = .ok result) : P result := by
  induction prog generalizing world with
  | done result' =>
      cases ends
      exact yields
  | fail failure => cases ends
  | call request next ih => exact ih _ (yields _) ends

theorem Prog.Blames.exec {Told : (request : C) → A request → ε → Prop} {refusal : ε → Prop}
    (blames : prog.Blames Told refusal) {failure : ε}
    (fails : (Interaction.exec perform prog world).2.1 = .error failure) :
    (Interaction.exec perform prog world).1 = [] ∧ refusal failure ∨
      ∃ before moment, (Interaction.exec perform prog world).1 = before ++ [moment] ∧
        Told moment.request (perform moment.request moment.world).1 failure := by
  induction prog generalizing refusal world with
  | done result => cases fails
  | fail failure' =>
      cases fails
      exact .inl ⟨rfl, blames⟩
  | call request next ih =>
      rw [Interaction.exec] at fails ⊢
      rcases ih _ (blames _) fails with ⟨nothing, told⟩ | ⟨before, moment, split, told⟩
      · exact .inr ⟨[], ⟨request, world⟩, by rw [nothing, List.nil_append], told⟩
      · exact .inr ⟨⟨request, world⟩ :: before, moment, by rw [split, List.cons_append], told⟩

/-- A sequence that ends well has gone on from the result of its first part. -/
theorem exec_bind_ok {rest : α → Prog C A ε β} {result : β}
    (ends : (exec perform (prog >>= rest) world).2.1 = .ok result) :
    ∃ value, (exec perform prog world).2.1 = .ok value ∧
      (exec perform (rest value) (exec perform prog world).2.2).2.1 = .ok result ∧
      (exec perform (prog >>= rest) world).2.2 =
        (exec perform (rest value) (exec perform prog world).2.2).2.2 := by
  rw [exec_bind] at ends ⊢
  revert ends
  rcases exec perform prog world with ⟨trace, failure | value, reached⟩ <;> intro ends
  · cases ends
  · exact ⟨value, rfl, ends, rfl⟩

theorem exec_quiet_bind_ok {rest : α → Prog C A ε β} {result : β}
    (quiet : prog.Only (¬Mutates ·))
    (idle : ∀ request world, ¬Mutates request → (perform request world).2 = world)
    (ends : (exec perform (prog >>= rest) world).2.1 = .ok result) :
    ∃ value, (exec perform prog world).2.1 = .ok value ∧
      (exec perform (rest value) world).2.1 = .ok result := by
  have still : (exec perform prog world).2.2 = world := quiet.exec_world idle
  rcases exec_bind_ok ends with ⟨value, first, further, -⟩
  rw [still] at further
  exact ⟨value, first, further⟩

/-- What a run in check mode tells about the run that acts in the same world: `isChanged` is
whether a result reports a change, `Agrees` relates the promised result and the real one. -/
structure Foretells (Mutates : C → Prop) (isChanged : β → Bool) (Agrees : β → β → Prop)
    (check real : List (Moment C σ) × Except ε β × σ) : Prop where
  quiet : ∀ moment ∈ check.1, ¬Mutates moment.request
  further : check.1 <+: real.1
  failed : ∀ failure, check.2.1 = .error failure → real = check
  unchanged : ∀ result, check.2.1 = .ok result → isChanged result = false → real = check
  changed : ∀ result, check.2.1 = .ok result → isChanged result = true →
    ActedLast Mutates real.1 real.2.1 ∧ ∀ result', real.2.1 = .ok result' → Agrees result result'

/-- Only the last call of the run can change something. -/
theorem ActedLast.dropLast {trace : List (Moment C σ)} {outcome : Except ε β}
    (acted : ActedLast Mutates trace outcome) :
    ∀ moment ∈ trace.dropLast, ¬Mutates moment.request := by
  rcases acted with ⟨quiet, acted, rfl, silent, -, short, -⟩
  intro moment mem
  refine silent moment ?_
  rcases acted with _ | ⟨last, _ | ⟨next, others⟩⟩
  · rw [List.append_nil] at mem
    exact List.mem_of_mem_dropLast mem
  · rwa [List.dropLast_concat] at mem
  · simp at short

theorem ActedLast.append {trace later : List (Moment C σ)} {outcome : Except ε β}
    (acted : ActedLast Mutates later outcome) (quiet : ∀ moment ∈ trace, ¬Mutates moment.request) :
    ActedLast Mutates (trace ++ later) outcome := by
  rcases acted with ⟨silent, acted, rfl, isSilent, rest⟩
  exact ⟨trace ++ silent, acted, (List.append_assoc _ _ _).symm,
    List.forall_mem_append.mpr ⟨quiet, isSilent⟩, rest⟩

/-- The check run of a planned program foretells the real one. -/
theorem foretells_planned (quiet : look.Only (¬Mutates ·))
    (acts : ∀ seen, (act seen).ActsLast Mutates)
    (reports : ∀ changed seen, isChanged (report changed seen) = changed)
    (agrees : ∀ seen, (act seen).Yields (Agrees (report true seen))) (world : σ) :
    Foretells Mutates isChanged Agrees
      (exec perform (.planned look true report act) world)
      (exec perform (.planned look false report act) world) := by
  have silent : ∀ moment ∈ (exec perform look world).1, ¬Mutates moment.request := quiet.moments
  rw [Prog.planned, Prog.planned, exec_bind, exec_bind]
  revert silent
  rcases exec perform look world with ⟨trace, failure | ⟨changed, seen⟩, reached⟩ <;> intro silent
  · exact ⟨silent, List.prefix_rfl, fun _ _ => rfl, (fun _ ended => by cases ended),
      (fun _ ended => by cases ended)⟩
  · cases changed with
    | false =>
        simp only [true_or, if_true, Prog.pure_eq, exec, List.append_nil]
        refine ⟨silent, List.prefix_rfl, (fun _ ended => by cases ended), fun _ _ _ => rfl, ?_⟩
        intro result ended isChanged
        cases ended
        rw [reports] at isChanged
        cases isChanged
    | true =>
        have acted : ActedLast Mutates (exec perform (act seen) reached).1
            (exec perform (act seen) reached).2.1 := (acts seen).exec
        simp only [Bool.true_eq_false, or_true, if_true, or_self, Bool.false_eq_true, if_false,
          Prog.pure_eq, exec, List.append_nil]
        refine ⟨silent, List.prefix_append _ _, (fun _ ended => by cases ended), ?_, ?_⟩
        · intro result ended isChanged
          cases ended
          rw [reports] at isChanged
          cases isChanged
        · intro result ended _
          cases ended
          exact ⟨acted.append silent, fun result' ends => (agrees seen).exec ends⟩

/-- Whether it is a check or not, only the last call of a planned program can change
something. -/
theorem quiet_dropLast_planned (quiet : look.Only (¬Mutates ·))
    (acts : ∀ seen, (act seen).ActsLast Mutates) (check : Bool) :
    ∀ moment ∈ (exec perform (.planned look check report act) world).1.dropLast,
      ¬Mutates moment.request := by
  have silent : ∀ moment ∈ (exec perform look world).1, ¬Mutates moment.request := quiet.moments
  rw [Prog.planned, exec_bind]
  revert silent
  rcases exec perform look world with ⟨trace, failure | plan, reached⟩ <;> intro silent
  · exact fun moment mem => silent moment (List.mem_of_mem_dropLast mem)
  · dsimp only
    split_ifs
    · rw [Prog.pure_eq, exec, List.append_nil]
      exact fun moment mem => silent moment (List.mem_of_mem_dropLast mem)
    · have acted : ActedLast Mutates (exec perform (act plan.2) reached).1
          (exec perform (act plan.2) reached).2.1 := (acts plan.2).exec
      exact (acted.append silent).dropLast

/-- A run that changed nothing and says so, if it ends well. -/
structure Idled (Mutates : C → Prop) (isChanged : β → Bool) (world : σ)
    (run : List (Moment C σ) × Except ε β × σ) : Prop where
  quiet : ∀ moment ∈ run.1, ¬Mutates moment.request
  kept : run.2.2 = world
  unchanged : ∀ result, run.2.1 = .ok result → isChanged result = false

/-- Where there is nothing to change, a planned program changes nothing. -/
theorem idled_planned (quiet : look.Only (¬Mutates ·))
    (idle : ∀ request world, ¬Mutates request → (perform request world).2 = world)
    (reports : ∀ changed seen, isChanged (report changed seen) = changed)
    (nothing : ∀ plan, (exec perform look world).2.1 = .ok plan → plan.1 = false) :
    Idled Mutates isChanged world (exec perform (.planned look false report act) world) := by
  have silent : ∀ moment ∈ (exec perform look world).1, ¬Mutates moment.request := quiet.moments
  have still : (exec perform look world).2.2 = world := quiet.exec_world idle
  rw [Prog.planned, exec_bind]
  revert silent still nothing
  rcases exec perform look world with ⟨trace, failure | ⟨changed, seen⟩, reached⟩ <;>
    intro nothing silent still
  · exact ⟨silent, still, (fun _ ended => by cases ended)⟩
  · obtain rfl : changed = false := nothing _ rfl
    simp only [true_or, if_true, Prog.pure_eq, exec, List.append_nil]
    refine ⟨silent, still, fun result ended => ?_⟩
    cases ended
    exact reports false seen

/-- When the acting part leaves nothing to change, a second run changes nothing. -/
theorem idled_planned_again (quiet : look.Only (¬Mutates ·))
    (idle : ∀ request world, ¬Mutates request → (perform request world).2 = world)
    (reports : ∀ changed seen, isChanged (report changed seen) = changed)
    (settles : ∀ seen result, (exec perform (act seen) world).2.1 = .ok result →
      ∀ plan, (exec perform look (exec perform (act seen) world).2.2).2.1 = .ok plan →
        plan.1 = false)
    {result : β} (ends : (exec perform (.planned look false report act) world).2.1 = .ok result) :
    Idled Mutates isChanged (exec perform (.planned look false report act) world).2.2
      (exec perform (.planned look false report act)
        (exec perform (.planned look false report act) world).2.2) := by
  refine idled_planned quiet idle reports ?_
  have still : (exec perform look world).2.2 = world := quiet.exec_world idle
  rw [Prog.planned, exec_bind] at ends ⊢
  generalize plans : exec perform look world = first at ends still ⊢
  rcases first with ⟨trace, failure | ⟨changed, seen⟩, reached⟩
  · cases ends
  · obtain rfl : reached = world := still
    cases changed with
    | false =>
        simp only [true_or, if_true, Prog.pure_eq, exec]
        rw [plans]
        rintro _ ⟨⟩
        rfl
    | true =>
        simp only [Bool.true_eq_false, or_self, Bool.false_eq_true, if_false] at ends ⊢
        exact settles seen result ends

/-- Where there is always something to change, a run that ends well has made its change. -/
theorem acted_planned (acts : ∀ seen, (act seen).ActsLast Mutates)
    (agrees : ∀ seen, (act seen).Yields fun result => isChanged result = true)
    (always : ∀ plan, (exec perform look world).2.1 = .ok plan → plan.1 = true)
    {result : β} (ends : (exec perform (.planned look false report act) world).2.1 = .ok result) :
    isChanged result = true ∧
      ∃ moment ∈ (exec perform (.planned look false report act) world).1,
        Mutates moment.request := by
  rw [Prog.planned, exec_bind] at ends ⊢
  revert ends always
  rcases exec perform look world with ⟨trace, failure | ⟨changed, seen⟩, reached⟩ <;>
    intro always ends
  · cases ends
  · obtain rfl : changed = true := always _ rfl
    simp only [Bool.true_eq_false, or_self, Bool.false_eq_true, if_false] at ends ⊢
    have acted : ActedLast Mutates (exec perform (act seen) reached).1
        (exec perform (act seen) reached).2.1 := (acts seen).exec
    rcases acted with ⟨quiet, acted, split, -, mutates, -, made⟩
    obtain ⟨moment, mem⟩ := List.exists_mem_of_ne_nil acted (made result ends)
    refine ⟨(agrees seen).exec ends, moment, ?_, mutates moment mem⟩
    rw [split]
    exact List.mem_append_right _ (List.mem_append_right _ mem)

end Foretelling

end Interaction

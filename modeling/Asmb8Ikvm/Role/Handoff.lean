import Asmb8Ikvm.Role.Boundary

/-!
# Waiting for the hand-off

The wait is cut into chunks so that the post code can be read between them. The
log of a sampled wait is a series of chunks that were not answered, each with one
read of the post code behind it, and at most one chunk at its end that was. The
history has the codes that could be read, each with the number of its chunk.
-/

namespace Asmb8Ikvm.Role

open Interaction

/-- The wait of a chunk: only the first one is delayed. -/
def chunkWait (vars : Vars) (item : ℕ) : Call :=
  .waitFor vars.postCodePollIntervalSeconds (if item = 0 then vars.handoffDelay else 0)

/-- A series of chunks that were not answered: how many they are, the codes that were read, and
the events, the latest first. -/
inductive Unanswered (vars : Vars) : ℕ → List (ℕ × String) → List Event → Prop where
  | start : Unanswered vars 0 [] []
  | unread {item : ℕ} {history : List (ℕ × String)} {events : List Event}
      {missed failed : Failure} (earlier : Unanswered vars item history events) :
      Unanswered vars (item + 1) history
        (.called .postCode (.error failed) :: .called (chunkWait vars item) (.error missed) ::
          events)
  | read {item : ℕ} {history : List (ℕ × String)} {events : List Event}
      {missed : Failure} {code : String} (earlier : Unanswered vars item history events) :
      Unanswered vars (item + 1) (history ++ [(item, code)])
        (.called .postCode (.ok code) :: .called (chunkWait vars item) (.error missed) :: events)

/-- The facts after this many chunks, none or the last of which was answered. -/
structure Sampled (vars : Vars) (start : World) (chunks : ℕ) (facts : Facts) (world : World) :
    Prop where
  last : facts.lastPostCode = facts.postCodeHistory.getLast?.map Prod.snd
  unconfirmed : facts.handoffConfirmed = false → ∃ events, Since start world events ∧
    Unanswered vars chunks facts.postCodeHistory events
  confirmed : facts.handoffConfirmed = true → ∃ item events, item < chunks ∧
    Since start world (.called (chunkWait vars item) (.ok ()) :: events) ∧
    Unanswered vars item facts.postCodeHistory events

/-- What a sequence of tasks that cannot fail leaves. -/
def Succeeds (Post : Facts → World → Prop) (outcome : Except (Failure × Facts) Facts)
    (world : World) : Prop :=
  ∃ facts, outcome = .ok facts ∧ Post facts world

section Sampling

variable {vars : Vars} {start world : World} {facts : Facts} {item : ℕ}

theorem guards_chunk (sampled : Sampled vars start item facts world)
    (unconfirmed : facts.handoffConfirmed = false) :
    Guards perform Others (fun _ => True) (samplePostCodeChunk vars item facts)
      (Succeeds (Sampled vars start (item + 1))) world := by
  rcases sampled.unconfirmed unconfirmed with ⟨events, since, unanswered⟩
  intro moved move
  refine ⟨trivial, ?_⟩
  have waited : Since start (perform (chunkWait vars item) moved).2
      (.called (chunkWait vars item) (perform (chunkWait vars item) moved).1 :: events) :=
    Since.called (move.log.trans since) _
  change Guards _ _ _ (match (perform (chunkWait vars item) moved).1 with
    | .ok _ => _
    | .error _ => _) _ (perform (chunkWait vars item) moved).2
  generalize (perform (chunkWait vars item) moved).1 = answer at waited ⊢
  cases answer with
  | ok done =>
      refine ⟨_, rfl, sampled.last, (fun same => by cases same), fun _ => ?_⟩
      exact ⟨item, events, Nat.lt_succ_self item, waited, unanswered⟩
  | error missed =>
      intro later move
      refine ⟨trivial, ?_⟩
      have read : Since start (perform .postCode later).2
          (.called .postCode (perform .postCode later).1 ::
            .called (chunkWait vars item) (.error missed) :: events) :=
        Since.called (move.log.trans waited) _
      generalize (perform .postCode later).1 = code at read ⊢
      cases code with
      | error failed =>
          exact ⟨_, rfl, sampled.last, fun _ => ⟨_, read, .unread unanswered⟩,
            fun same => by cases same⟩
      | ok code =>
          refine ⟨_, rfl, ?_, fun _ => ⟨_, read, .read unanswered⟩, fun same => by cases same⟩
          rw [List.getLast?_concat]
          rfl

theorem guards_sampledChunks {chunks : ℕ} (sampled : Sampled vars start item facts world) :
    Guards perform Others (fun _ => True) (sampleChunks vars (List.range' item chunks) facts)
      (Succeeds (Sampled vars start (item + chunks))) world := by
  induction chunks generalizing item facts world with
  | zero => exact ⟨facts, rfl, sampled⟩
  | succ chunks ih =>
      rw [List.range'_succ, sampleChunks, Nat.add_comm chunks, ← Nat.add_assoc]
      split
      · next confirmed =>
          refine ih ⟨sampled.last, fun unconfirmed => ?_, fun _ => ?_⟩
          · rw [confirmed] at unconfirmed
            cases unconfirmed
          · rcases sampled.confirmed confirmed with ⟨earlier, events, before, rest⟩
            exact ⟨earlier, events, Nat.lt_succ_of_lt before, rest⟩
      · next unconfirmed =>
          refine (guards_chunk sampled (Bool.eq_false_iff.mpr unconfirmed)).bind ?_ ?_
          · rintro failure reached ⟨_, same, _⟩
            cases same
          · rintro facts reached ⟨_, same, sampled⟩
            cases same
            exact ih sampled

/-- The seconds that the waits of the events were given. -/
def waited : List Event → ℕ
  | [] => 0
  | .called (.waitFor timeout _) _ :: log => timeout + waited log
  | _ :: log => waited log

theorem Unanswered.waited {history : List (ℕ × String)} {events : List Event}
    (unanswered : Unanswered vars item history events) :
    waited events = item * vars.postCodePollIntervalSeconds := by
  induction unanswered with
  | start => rw [Nat.zero_mul, Role.waited]
  | unread earlier ih =>
      rw [Nat.succ_mul, ← ih, Nat.add_comm]
      rfl
  | read earlier ih =>
      rw [Nat.succ_mul, ← ih, Nat.add_comm]
      rfl

/-- The chunks together are one interval longer than the wait they stand for, rounded up. -/
theorem maxChunks_mul (interval : vars.postCodePollIntervalSeconds ≠ 0) :
    vars.handoffTimeout + vars.handoffDelay + vars.postCodePollIntervalSeconds ≤
        maxChunks vars * vars.postCodePollIntervalSeconds ∧
      maxChunks vars * vars.postCodePollIntervalSeconds <
        vars.handoffTimeout + vars.handoffDelay + 2 * vars.postCodePollIntervalSeconds := by
  have positive := Nat.pos_of_ne_zero interval
  have upper := Nat.div_mul_le_self (vars.handoffTimeout + vars.handoffDelay +
    vars.postCodePollIntervalSeconds - 1) vars.postCodePollIntervalSeconds
  have lower := Nat.lt_div_mul_add positive (a := vars.handoffTimeout + vars.handoffDelay +
    vars.postCodePollIntervalSeconds - 1)
  rw [maxChunks, Nat.succ_mul]
  omega

/-- How a sampled wait ends: with the first chunk that is answered, or with a failure once none of
the chunks was. -/
def SampledOutcome (vars : Vars) (start : World) (outcome : Except (Failure × Facts) Facts)
    (world : World) : Prop :=
  ∃ item events, Unanswered vars item (factsOf outcome).postCodeHistory events ∧
    (factsOf outcome).lastPostCode = (factsOf outcome).postCodeHistory.getLast?.map Prod.snd ∧
    ((∃ facts, outcome = .ok facts ∧ item < maxChunks vars ∧
        Since start world (.called (chunkWait vars item) (.ok ()) :: events)) ∨
      ∃ facts, outcome = .error (.message (handoffMessage vars facts), facts) ∧
        Since start world events ∧
        vars.handoffTimeout + vars.handoffDelay + vars.postCodePollIntervalSeconds ≤
          waited events ∧
        waited events <
          vars.handoffTimeout + vars.handoffDelay + 2 * vars.postCodePollIntervalSeconds)

theorem guards_sampleHandoff (interval : vars.postCodePollIntervalSeconds ≠ 0)
    (sampled : Sampled vars start 0 facts world) :
    Guards perform Others (fun _ => True) (sampleHandoff vars facts) (SampledOutcome vars start)
      world := by
  rw [sampleHandoff, List.range_eq_range']
  refine (guards_sampledChunks sampled).bind ?_ ?_
  · rintro failure reached ⟨_, same, _⟩
    cases same
  · rintro facts reached ⟨_, same, sampled⟩
    cases same
    rw [Nat.zero_add] at sampled
    split
    · next confirmed =>
        rcases sampled.confirmed confirmed with ⟨item, events, before, since, unanswered⟩
        exact ⟨item, events, unanswered, sampled.last, .inl ⟨facts, rfl, before, since⟩⟩
    · next unconfirmed =>
        rcases sampled.unconfirmed (Bool.eq_false_iff.mpr unconfirmed)
          with ⟨events, since, unanswered⟩
        refine ⟨_, events, unanswered, sampled.last, .inr ⟨facts, rfl, since, ?_⟩⟩
        rw [unanswered.waited]
        exact maxChunks_mul interval

end Sampling

/-- A sampled wait for the hand-off ends with the first chunk that is answered, and otherwise with
a failure behind waits that are between one and two intervals longer than the time and the delay
that were asked for. Its history has the post codes that could be read, each with its chunk. -/
theorem handoff_outcome {vars : Vars} {facts : Facts} {world final : World}
    {trace : List (Moment Call World)} {outcome : Except (Failure × Facts) Facts}
    (sampling : vars.samplePostCodeDuringHandoff = true)
    (interval : vars.postCodePollIntervalSeconds ≠ 0)
    (run : Runs perform Others (waitForHandoff vars facts) world trace outcome final) :
    SampledOutcome vars world outcome final := by
  have fresh : Sampled vars world 0 { facts with
      handoffConfirmed := false, lastPostCode := none, postCodeHistory := [] } world :=
    ⟨rfl, fun _ => ⟨[], rfl, .start⟩, fun same => by cases same⟩
  have guards : Guards perform Others (fun _ => True) (waitForHandoff vars facts)
      (SampledOutcome vars world) world := by
    rw [waitForHandoff, waitWithoutSampling, if_pos sampling, Prog.bind_done, if_neg interval,
      if_pos sampling]
    exact guards_sampleHandoff interval fresh
  exact run.reaches.ended trivial guards

/-- The target does not answer before the first wait is over, or not at all. -/
def lateWorld (ever : Bool) : World :=
  { freshWorld with
    respond := fun
      | .waitFor _ delay =>
          if ever ∧ delay = 0 then .ok ()
          else .error (.message "Timeout when waiting for target:22")
      | request => freshWorld.respond request }

theorem lateWorld_honest (ever : Bool) : Honest (lateWorld ever).respond :=
  ⟨freshWorld_honest.attaches, freshWorld_honest.starts⟩

/-- A wait of two minutes, behind a delay. -/
def lateVars : Vars :=
  { ipxeVars with handoffTimeout := 120, handoffDelay := 30 }

def lateWait (ever : Bool) : Except (Failure × Facts) Facts × World :=
  (exec perform (waitForHandoff lateVars { runState := defaultState }) (lateWorld ever)).2

/-- The second of four chunks is answered, or none is. -/
theorem handoff_outcome_ipxe :
    (SampledOutcome lateVars (lateWorld true) (lateWait true).1 (lateWait true).2 ∧
      (lateWait true).1.isOk = true ∧
      (factsOf (lateWait true).1).postCodeHistory = [(0, "A2")]) ∧
    SampledOutcome lateVars (lateWorld false) (lateWait false).1 (lateWait false).2 ∧
      (lateWait false).1.isOk = false ∧
      (factsOf (lateWait false).1).postCodeHistory =
        [(0, "A2"), (1, "A2"), (2, "A2"), (3, "A2")] := by
  have outcome (ever : Bool) :
      SampledOutcome lateVars (lateWorld ever) (lateWait ever).1 (lateWait ever).2 :=
    handoff_outcome rfl (by decide)
      (exec_runs_allowed (show Honest (lateWorld ever).respond from lateWorld_honest ever)
        (fun _ honest => ⟨rfl, rfl, honest⟩) fun _ _ honest => honest)
  refine ⟨⟨outcome true, ?_, ?_⟩, outcome false, ?_, ?_⟩
  · decide +kernel
  · decide +kernel
  · decide +kernel
  · decide +kernel

end Asmb8Ikvm.Role

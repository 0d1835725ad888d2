import Asmb8Ikvm.Role.Lifecycle

/-!
# Accounts of a run

An account says what holds of the run state and the world before the delivery of
the image and on either side of the destructive boundary. It only has to survive
the single steps: a move of the surroundings, a save, each call, each change of
the run state. The tasks, the `rescue` and the `always` of the lifecycle then keep
it, and it holds wherever a run is interrupted.
-/

namespace Asmb8Ikvm.Role

open Interaction

/-- How far a run has come: up to the delivery of the image, before the destructive boundary, and
behind it. -/
inductive Side where
  | setup
  | before
  | behind
deriving DecidableEq

/-- The run states say the same about the session, the reset and the origin. -/
structure RunState.Agrees (state other : RunState) : Prop where
  sessionId : other.sessionId = state.sessionId
  bootArmed : other.bootArmed = state.bootArmed
  resetConfirmed : other.resetConfirmed = state.resetConfirmed
  ipxeOriginSessionId : other.ipxeOriginSessionId = state.ipxeOriginSessionId

/-- The calls that are not about the session, the reset, the origin or the state file. -/
def Call.Idle : Call → Prop
  | .info => True
  | .buildBootstrap _ => True
  | .armBoot _ _ => True
  | .waitFor _ _ => True
  | .postCode => True
  | _ => False

/-- The steps an account of a run with these variables survives. -/
structure Account (vars : Vars) (Inv : World → Prop) (Holds : Side → RunState → World → Prop) :
    Prop where
  inv : ∀ {side state world}, Holds side state world → Inv world
  moves : ∀ {side state world moved}, Holds side state world → Others world moved →
    Holds side state moved
  agrees : ∀ {side state other world}, Holds side state world → state.Agrees other →
    Holds side other world
  saves : ∀ {side state world}, Holds side state world →
    Holds side state (perform (.saveState state) world).2
  idles : ∀ {side state world request}, request.Idle → Holds side state world →
    Holds side state (perform request world).2
  claims : ∀ {state world}, Holds .before state world →
    Holds .before (claimSession vars state) world
  attaches : ∀ {state world} (image), Holds .before state world → world.file = some state →
    PyText.given state.sessionId = true →
    Holds .before state (perform (.attachMedia image state.sessionId) world).2
  detaches : ∀ {side state world}, Holds side state world →
    PyText.given state.sessionId = true →
    Holds side state (perform (.detachMedia state.sessionId) world).2
  delivers : ∀ {state world}, Holds .setup state world → Holds .before state world
  originStarts : ∀ {state world origin}, Holds .setup state world → Honest world.respond →
    world.respond .startOrigin = .ok origin →
    Holds .before { state with ipxeOriginSessionId := some origin.sessionId }
      (perform .startOrigin world).2
  originFails : ∀ {state world failure}, Holds .setup state world →
    world.respond .startOrigin = .error failure →
    Holds .before state (perform .startOrigin world).2
  originStops : ∀ {side state world}, Holds side state world →
    Holds side state (perform (.stopOrigin state.ipxeOriginSessionId) world).2
  arms : ∀ {state world}, Holds .before state world →
    Holds .before { state with bootArmed := true } world
  resets : ∀ {state world}, Holds .before state world → world.file = some state →
    state.bootArmed = true → Holds .behind state (perform .powerBoot world).2
  confirms : ∀ {state world answer earlier}, Holds .behind state world →
    world.log = .called .info answer :: earlier → isOn answer = true →
    Holds .behind { state with resetConfirmed := true } world

/-- The steps of an account from the start of a run up to the reconciliation with the state
file. -/
structure Opening (vars : Vars) (Inv : World → Prop) (Holds : Side → RunState → World → Prop)
    (start : World) : Prop where
  moves : ∀ {world moved}, Inv world → Others world moved → Inv moved
  ensures : ∀ {world}, Inv world → Inv (perform .ensureStateDir world).2
  loads : ∀ {world}, Inv world → Inv (perform .loadState world).2
  starts : ∀ {world state dir load}, Inv world → world.file = start.file →
    world.log = .called .loadState load :: .called .ensureStateDir dir :: start.log →
    reconcile vars world.file = .ok state → Holds .setup state world

/-- The calls of `state.yml`. -/
def Call.Preliminary : Call → Prop
  | .ensureStateDir => True
  | .loadState => True
  | .saveState _ => True
  | _ => False

/-- Since the start there were only calls of this kind. -/
def OnlyCalled (P : Call → Prop) (start world : World) : Prop :=
  ∃ events, world.log = events ++ start.log ∧
    ∀ event ∈ events, ∃ request answer, event = .called request answer ∧ P request

/-- The facts at the end of a sequence of tasks. -/
def factsOf : Except (Failure × Facts) Facts → Facts
  | .ok facts => facts
  | .error (_, facts) => facts

@[simp]
theorem factsOf_mapError (answer : Except Failure Facts) (facts : Facts) :
    factsOf (answer.mapError fun failure => (failure, facts)) =
      match answer with
      | .ok result => result
      | .error _ => facts := by
  cases answer <;> rfl

theorem file_of_saved {world : World} {record : RunState}
    (saved : world.respond (.saveState record) = .ok ()) :
    (perform (.saveState record) world).2.file = some record := by
  simp only [perform, fileAfter, saved]

theorem given_claimSession (vars : Vars) (state : RunState) :
    PyText.given (claimSession vars state).sessionId = true := by
  unfold claimSession
  split
  · assumption
  · exact bne_iff_ne.mpr vars.generated

section Tasks

variable {Inv : World → Prop} {Holds : Side → RunState → World → Prop} {side : Side}
  {facts : Facts} {world : World} {vars : Vars}

/-- What the tasks leave: the account of their facts. -/
def Kept (Holds : Side → RunState → World → Prop) (side : Side)
    (outcome : Except (Failure × Facts) Facts) (world : World) : Prop :=
  Holds side (factsOf outcome).runState world

/-- The account holds on one of the sides. -/
def KeptSomewhere (Holds : Side → RunState → World → Prop)
    (outcome : Except (Failure × Facts) Facts) (world : World) : Prop :=
  ∃ side, Kept Holds side outcome world

/-- A save that succeeds has written the run state. -/
def Saved (Holds : Side → RunState → World → Prop) (side : Side) (facts : Facts)
    (outcome : Except (Failure × Facts) Facts) (world : World) : Prop :=
  Kept Holds side outcome world ∧
    ∀ result, outcome = .ok result → result = facts ∧ world.file = some facts.runState

/-- The last save before the destructive boundary. -/
def Armed (Holds : Side → RunState → World → Prop) (outcome : Except (Failure × Facts) Facts)
    (world : World) : Prop :=
  Kept Holds .before outcome world ∧ ∀ result, outcome = .ok result →
    result.runState.bootArmed = true ∧ world.file = some result.runState

theorem guards_task {request : Call} {register : Answer request → Except Failure Facts}
    {Post : Except (Failure × Facts) Facts → World → Prop}
    (settles : ∀ moved, Others world moved → Inv (perform request moved).2 ∧
      Post ((register (answerOf moved request)).mapError fun failure => (failure, facts))
        (perform request moved).2) :
    Guards perform Others Inv (task facts request register) Post world :=
  Guards.call_ofExcept settles

theorem guards_register {request : Call} {register : Answer request → Except Failure Facts}
    (settles : ∀ moved, Others world moved → Inv (perform request moved).2 ∧
      (∀ failure, register (answerOf moved request) = .error failure →
        Holds side facts.runState (perform request moved).2) ∧
      ∀ result, register (answerOf moved request) = .ok result →
        Holds side result.runState (perform request moved).2) :
    Guards perform Others Inv (task facts request register) (Kept Holds side) world := by
  refine guards_task fun moved move => ?_
  rcases settles moved move with ⟨inv, fails, registers⟩
  refine ⟨inv, ?_⟩
  cases registered : register (answerOf moved request) with
  | error failure => exact fails failure registered
  | ok result => exact registers result registered

theorem onlyCalled_refl {P : Call → Prop} : OnlyCalled P world world :=
  ⟨[], rfl, fun _ mem => absurd mem List.not_mem_nil⟩

theorem onlyCalled_of_only {P : Call → Prop} {plan : Plan Facts} {start : World}
    (only : plan.Only P) (called : OnlyCalled P start world) :
    Guards perform Others (OnlyCalled P start) plan (fun _ => OnlyCalled P start) world := by
  refine Guards.of_only only called ?_
  rintro request world moved allowed ⟨events, split, calls⟩ move
  refine ⟨.called request (answerOf moved request) :: events, ?_, ?_⟩
  · rw [List.cons_append, ← split, ← move.log]
    rfl
  · exact List.forall_mem_cons.mpr ⟨⟨request, _, rfl, allowed⟩, calls⟩

section Sections

variable {plan : Plan Facts} {Post Done : Except (Failure × Facts) Facts → World → Prop}

theorem guards_attempt (guards : Guards perform Others Inv plan Post world) :
    Guards perform Others Inv
      (plan.attempt : Prog Call Answer (Failure × Facts) (Except (Failure × Facts) Facts))
      (fun result reached => ∃ outcome, result = .ok outcome ∧ Post outcome reached) world :=
  Guards.attempt (guards.mono fun outcome _ post => ⟨outcome, rfl, post⟩)

/-- The rule for `rescue`. -/
theorem guards_rescue {handler : Failure → Facts → Plan Facts}
    (guards : Guards perform Others Inv plan Post world)
    (passes : ∀ facts reached, Post (.ok facts) reached → Done (.ok facts) reached)
    (handles : ∀ failure facts reached, Post (.error (failure, facts)) reached →
      Guards perform Others Inv (handler failure facts) Done reached) :
    Guards perform Others Inv (rescue plan handler) Done world := by
  refine (guards_attempt guards).bind ?_ ?_
  · rintro failure reached ⟨_, same, _⟩
    cases same
  · rintro result reached ⟨outcome, same, post⟩
    cases same
    rcases result with ⟨failure, facts⟩ | facts
    · exact handles failure facts reached post
    · exact passes facts reached post

/-- The rule for `always`: what the section does to the facts it starts from. -/
theorem guards_always {ending : Facts → Plan Facts}
    (guards : Guards perform Others Inv plan Post world)
    (ends : ∀ outcome reached, Post outcome reached →
      Guards perform Others Inv (ending (factsOf outcome)) Done reached)
    (fails : ∀ facts reached failure, Done (.ok facts) reached →
      Done (.error (failure, facts)) reached) :
    Guards perform Others Inv (always plan ending) Done world := by
  refine (guards_attempt guards).bind ?_ ?_
  · rintro failure reached ⟨_, same, _⟩
    cases same
  · rintro result reached ⟨outcome, same, post⟩
    cases same
    rcases result with ⟨failure, facts⟩ | facts
    · exact (ends _ reached post).bind (fun failure final done => done)
        fun facts final done => fails facts final failure done
    · exact ends _ reached post

end Sections

variable (account : Account vars Inv Holds)
include account

namespace Account

theorem guards_saveState {state : RunState} (holds : Holds side state world) (facts : Facts) :
    Guards perform Others Inv (saveState { facts with runState := state })
      (Saved Holds side { facts with runState := state }) world := by
  refine guards_task fun moved move => ?_
  have kept := account.saves (account.moves holds move)
  refine ⟨account.inv kept, ?_⟩
  cases saved : moved.respond (.saveState state) with
  | error failure =>
      simp only [answerOf, saved]
      exact ⟨kept, fun _ same => by cases same⟩
  | ok done =>
      simp only [answerOf, saved]
      refine ⟨kept, ?_⟩
      intro result same
      cases same
      exact ⟨rfl, file_of_saved saved⟩

theorem guards_save (holds : Holds side facts.runState world) :
    Guards perform Others Inv (saveState facts) (Kept Holds side) world :=
  (account.guards_saveState holds facts).mono fun _ _ saved => saved.1

/-- An idle task that leaves the facts, or changes what the account does not read. -/
theorem guards_idle {request : Call} {register : Answer request → Except Failure Facts}
    (idle : request.Idle) (holds : Holds side facts.runState world)
    (registers : ∀ answer result, register answer = .ok result →
      facts.runState.Agrees result.runState) :
    Guards perform Others Inv (task facts request register) (Kept Holds side) world := by
  refine guards_register fun moved move => ?_
  have kept := account.idles idle (account.moves holds move)
  refine ⟨account.inv kept, fun failure failed => kept, ?_⟩
  exact fun result registered => account.agrees kept (registers _ result registered)

theorem guards_probe (holds : Holds side facts.runState world) :
    Guards perform Others Inv (probe vars facts) (Kept Holds side) world := by
  refine account.guards_idle trivial holds fun answer result registered => ?_
  cases answer with
  | error failure => cases registered
  | ok probe =>
      dsimp only [Except.bind] at registered
      split at registered
      · cases registered
        exact ⟨rfl, rfl, rfl, rfl⟩
      · cases registered

theorem guards_prepareIpxeDelivery (holds : Holds .setup facts.runState world) :
    Guards perform Others Inv (prepareIpxeDelivery vars facts) (Kept Holds .before) world := by
  intro moved move
  have moves := account.moves holds move
  change Inv (perform .startOrigin moved).2 ∧ _
  cases started : moved.respond .startOrigin with
  | error failure =>
      have kept := account.originFails moves started
      refine ⟨account.inv kept, ?_⟩
      simp only [perform, answerOf, started] at kept ⊢
      exact kept
  | ok origin =>
      have kept := account.originStarts moves move.honest started
      refine ⟨account.inv kept, ?_⟩
      simp only [perform, answerOf, started] at kept ⊢
      refine (account.guards_save kept).bind (fun failure reached saved => saved) ?_
      intro result reached saved
      refine account.guards_idle trivial saved fun answer other registered => ?_
      cases answer with
      | error failure => cases registered
      | ok done =>
          cases registered
          exact ⟨rfl, rfl, rfl, rfl⟩

theorem guards_deliver (holds : Holds .setup facts.runState world) :
    Guards perform Others Inv (deliver vars facts) (Kept Holds .before) world := by
  unfold deliver
  split
  · exact account.guards_prepareIpxeDelivery holds
  · exact account.delivers holds

theorem guards_attachMedia (holds : Holds .before facts.runState world) :
    Guards perform Others Inv (attachMedia vars facts) (Kept Holds .before) world := by
  have claimed := account.guards_saveState (account.claims holds) facts
  refine claimed.bind (fun failure reached saved => saved.1) ?_
  rintro result reached ⟨kept, isResult⟩
  rcases isResult result rfl with ⟨rfl, isFile⟩
  refine (guards_register fun moved move => ?_).bind (fun failure reached kept => kept)
    fun result reached kept => account.guards_save kept
  have kept := account.attaches (mediaImagePath vars) (account.moves kept move)
    (move.file.trans isFile) (given_claimSession vars facts.runState)
  refine ⟨account.inv kept, fun failure failed => kept, ?_⟩
  intro result registered
  cases attached : moved.respond
      (.attachMedia (mediaImagePath vars) (claimSession vars facts.runState).sessionId) with
  | error failure =>
      simp only [answerOf, attached] at registered
      cases registered
  | ok sessionId =>
      simp only [answerOf, attached] at registered
      cases registered
      exact account.agrees kept ⟨move.honest.attaches _ _ _ attached, rfl, rfl, rfl⟩

theorem guards_armBoot (holds : Holds .before facts.runState world) :
    Guards perform Others Inv (armBoot vars facts) (Armed Holds) world := by
  have arms : Guards perform Others Inv (task facts (.armBoot vars.bootDevice vars.bootUefi)
      fun answer => answer.map fun _ =>
        { facts with runState := { facts.runState with bootArmed := true } })
      (fun outcome reached => Kept Holds .before outcome reached ∧
        ∀ result, outcome = .ok result → result.runState.bootArmed = true) world := by
    refine guards_task fun moved move => ?_
    have kept : Holds .before facts.runState
        (perform (.armBoot vars.bootDevice vars.bootUefi) moved).2 :=
      account.idles trivial (account.moves holds move)
    refine ⟨account.inv kept, ?_⟩
    cases armed : moved.respond (.armBoot vars.bootDevice vars.bootUefi) with
    | error failure =>
        simp only [answerOf, armed]
        exact ⟨kept, fun _ same => by cases same⟩
    | ok done =>
        simp only [answerOf, armed]
        refine ⟨account.arms kept, ?_⟩
        intro result same
        cases same
        rfl
  refine arms.bind ?_ ?_
  · rintro failure reached ⟨kept, _⟩
    exact ⟨kept, fun _ same => by cases same⟩
  · rintro facts reached ⟨kept, isArmed⟩
    refine (account.guards_saveState kept facts).mono ?_
    rintro outcome final ⟨saved, isResult⟩
    refine ⟨saved, ?_⟩
    intro result same
    rcases isResult result same with ⟨rfl, isFile⟩
    exact ⟨isArmed _ rfl, isFile⟩

theorem guards_prepare (holds : Holds .setup facts.runState world) :
    Guards perform Others Inv (prepare vars facts) (Armed Holds) world := by
  have fails (failure : Failure × Facts) (reached : World)
      (kept : Kept Holds .before (.error failure) reached) : Armed Holds (.error failure) reached :=
    ⟨kept, fun _ same => by cases same⟩
  refine (account.guards_probe holds).bind
    (fun failure reached kept => fails failure reached (account.delivers kept))
    fun facts reached kept => ?_
  refine (account.guards_deliver kept).bind fails fun facts reached kept => ?_
  exact (account.guards_attachMedia kept).bind fails
    fun facts reached kept => account.guards_armBoot kept

theorem guards_reset (holds : Holds .before facts.runState world)
    (isFile : world.file = some facts.runState) (armed : facts.runState.bootArmed = true) :
    Guards perform Others Inv (reset vars facts) (Kept Holds .behind) world := by
  refine guards_rescue ?_ (fun _ _ kept => kept) ?_
  · refine (guards_register fun moved move => ?_).bind (fun failure reached kept => kept)
      fun result reached kept => account.guards_save kept
    have kept := account.resets (account.moves holds move) (move.file.trans isFile) armed
    refine ⟨account.inv kept, fun failure failed => kept, ?_⟩
    intro result registered
    cases answered : answerOf moved .powerBoot with
    | error failure =>
        rw [answered] at registered
        cases registered
    | ok done =>
        rw [answered] at registered
        cases registered
        exact account.agrees kept ⟨rfl, rfl, rfl, rfl⟩
  · intro failure facts reached kept
    have uncertain : Holds .behind { facts.runState with
        resetIssued := true, lastFailure := some uncertainResetMessage } reached :=
      account.agrees kept ⟨rfl, rfl, rfl, rfl⟩
    exact (account.guards_saveState uncertain facts).bind (fun failure reached saved => saved.1)
      fun result reached saved => saved.1

/-- The reads end with the one they return. -/
theorem guards_pollPower (retries : ℕ) (holds : Holds .behind facts.runState world) :
    Guards perform Others Inv (pollPower facts retries) (fun outcome reached =>
      ∃ answer earlier, outcome = .ok (answer, facts) ∧ Holds .behind facts.runState reached ∧
        reached.log = .called .info answer :: earlier) world := by
  induction retries generalizing world with
  | zero =>
      intro moved move
      have kept : Holds .behind facts.runState (perform .info moved).2 :=
        account.idles trivial (account.moves holds move)
      exact ⟨account.inv kept, _, _, rfl, kept, rfl⟩
  | succ retries ih =>
      intro moved move
      have kept : Holds .behind facts.runState (perform .info moved).2 :=
        account.idles trivial (account.moves holds move)
      refine ⟨account.inv kept, ?_⟩
      dsimp only
      split
      · exact ⟨_, _, rfl, kept, rfl⟩
      · exact ih kept

theorem guards_observe (holds : Holds .behind facts.runState world) :
    Guards perform Others Inv (observe vars facts) (Kept Holds .behind) world := by
  refine (account.guards_pollPower vars.observeRetries holds).bind ?_ ?_
  · rintro failure reached ⟨answer, earlier, same, _⟩
    cases same
  · rintro result reached ⟨answer, earlier, same, kept, isLog⟩
    cases same
    dsimp only
    split
    · next seen => exact account.guards_save (account.confirms kept isLog seen)
    · split
      · exact kept
      · exact account.guards_save kept

theorem guards_detachMedia (holds : Holds side facts.runState world) :
    Guards perform Others Inv (detachMedia facts) (Kept Holds side) world := by
  unfold detachMedia
  split
  · next isGiven =>
      refine (guards_register fun moved move => ?_).bind (fun failure reached kept => kept)
        fun result reached kept => account.guards_save kept
      have kept := account.detaches (account.moves holds move) isGiven
      refine ⟨account.inv kept, fun failure failed => kept, ?_⟩
      intro result registered
      cases answered : answerOf moved (.detachMedia facts.runState.sessionId) with
      | error failure =>
          rw [answered] at registered
          cases registered
      | ok done =>
          rw [answered] at registered
          cases registered
          exact account.agrees kept ⟨rfl, rfl, rfl, rfl⟩
  · exact account.guards_save holds

theorem guards_releaseEarly (holds : Holds side facts.runState world) :
    Guards perform Others Inv (releaseEarly vars facts) (Kept Holds side) world := by
  unfold releaseEarly
  split
  · exact account.guards_detachMedia holds
  · exact holds

/-- The wait for the hand-off leaves the run state as it is. -/
theorem guards_samplePostCodeChunk (item : ℕ) (holds : Holds side facts.runState world) :
    Guards perform Others Inv (samplePostCodeChunk vars item facts) (Kept Holds side) world := by
  intro moved move
  have kept : Holds side facts.runState (perform (.waitFor vars.postCodePollIntervalSeconds
      (if item = 0 then vars.handoffDelay else 0)) moved).2 :=
    account.idles trivial (account.moves holds move)
  refine ⟨account.inv kept, ?_⟩
  generalize (perform (.waitFor vars.postCodePollIntervalSeconds
    (if item = 0 then vars.handoffDelay else 0)) moved).1 = answer
  cases answer with
  | ok done => exact kept
  | error failure =>
      intro later move
      have read : Holds side facts.runState (perform .postCode later).2 :=
        account.idles trivial (account.moves kept move)
      refine ⟨account.inv read, ?_⟩
      generalize (perform .postCode later).1 = code
      cases code with
      | error failure => exact read
      | ok code => exact read

theorem guards_sampleChunks (items : List ℕ) (holds : Holds side facts.runState world) :
    Guards perform Others Inv (sampleChunks vars items facts) (Kept Holds side) world := by
  induction items generalizing facts world with
  | nil => exact holds
  | cons item items ih =>
      rw [sampleChunks]
      split
      · exact ih holds
      · exact (account.guards_samplePostCodeChunk item holds).bind
          (fun failure reached kept => kept) fun facts reached kept => ih kept

theorem guards_sampleHandoff (holds : Holds side facts.runState world) :
    Guards perform Others Inv (sampleHandoff vars facts) (Kept Holds side) world := by
  refine (account.guards_sampleChunks _ holds).bind (fun failure reached kept => kept) ?_
  intro facts reached kept
  split
  · exact kept
  · exact kept

theorem guards_waitWithoutSampling (holds : Holds side facts.runState world) :
    Guards perform Others Inv (waitWithoutSampling vars facts) (Kept Holds side) world := by
  unfold waitWithoutSampling
  split
  · exact holds
  · refine account.guards_idle trivial holds fun answer result registered => ?_
    cases answer with
    | error failure => cases registered
    | ok done =>
        cases registered
        exact ⟨rfl, rfl, rfl, rfl⟩

theorem guards_waitForHandoff (holds : Holds side facts.runState world) :
    Guards perform Others Inv (waitForHandoff vars facts) (Kept Holds side) world := by
  refine (account.guards_waitWithoutSampling holds).bind (fun failure reached kept => kept) ?_
  intro facts reached kept
  split
  · exact kept
  · split
    · exact account.guards_sampleHandoff kept
    · exact kept

theorem guards_followUp (holds : Holds .behind facts.runState world) :
    Guards perform Others Inv (followUp vars facts) (Kept Holds .behind) world := by
  refine (account.guards_observe holds).bind (fun failure reached kept => kept) ?_
  intro facts reached kept
  refine (account.guards_releaseEarly kept).bind (fun failure reached kept => kept) ?_
  intro facts reached kept
  split
  · exact account.guards_waitForHandoff kept
  · exact kept

theorem guards_block (holds : Holds .setup facts.runState world) :
    Guards perform Others Inv (block vars facts) (KeptSomewhere Holds) world := by
  refine (account.guards_prepare holds).bind
    (fun failure reached kept => ⟨.before, kept.1⟩) ?_
  rintro facts reached ⟨kept, armed⟩
  rcases armed facts rfl with ⟨isArmed, isFile⟩
  refine (account.guards_reset kept isFile isArmed).bind
    (fun failure reached kept => ⟨.behind, kept⟩) ?_
  intro facts reached kept
  exact (account.guards_followUp kept).mono fun outcome final kept => ⟨.behind, kept⟩

theorem guards_recordAndRaise (failure : Failure) (holds : Holds side facts.runState world) :
    Guards perform Others Inv (recordAndRaise vars failure facts) (Kept Holds side) world := by
  have recorded : Holds side { facts.runState with lastFailure := some failure.msg } world :=
    account.agrees holds ⟨rfl, rfl, rfl, rfl⟩
  exact (account.guards_saveState recorded { facts with failMsg := some (failMsg failure) }).bind
    (fun _ _ saved => saved.1) fun _ _ saved => saved.1

theorem guards_stopIpxeOrigin (holds : Holds side facts.runState world) :
    Guards perform Others Inv (stopIpxeOrigin facts) (Kept Holds side) world := by
  unfold stopIpxeOrigin
  split
  · refine guards_register fun moved move => ?_
    have kept := account.originStops (account.moves holds move)
    refine ⟨account.inv kept, fun failure failed => kept, ?_⟩
    intro result registered
    cases answered : answerOf moved (.stopOrigin facts.runState.ipxeOriginSessionId) with
    | error failure =>
        rw [answered] at registered
        cases registered
    | ok done =>
        rw [answered] at registered
        cases registered
        exact kept
  · exact holds

theorem guards_cleanUp (holds : Holds side facts.runState world) :
    Guards perform Others Inv (cleanUp facts) (Kept Holds side) world :=
  (account.guards_detachMedia holds).bind (fun _ _ kept => kept)
    fun _ _ kept => account.guards_stopIpxeOrigin kept

/-- What the block and its `rescue` leave to the `always` section. -/
theorem guards_rescued (holds : Holds .setup facts.runState world) :
    Guards perform Others Inv (rescue (block vars facts) (recordAndRaise vars))
      (KeptSomewhere Holds) world := by
  refine guards_rescue (account.guards_block holds) (fun facts reached kept => kept) ?_
  rintro failure facts reached ⟨side, kept⟩
  exact (account.guards_recordAndRaise failure kept).mono fun outcome final kept => ⟨side, kept⟩

/-- The account is kept by the lifecycle. -/
theorem guards_lifecycle (holds : Holds .setup facts.runState world) :
    Guards perform Others Inv (lifecycle vars facts) (KeptSomewhere Holds) world := by
  refine guards_always (account.guards_rescued holds) ?_ fun facts reached failure kept => kept
  rintro outcome reached ⟨side, kept⟩
  exact (account.guards_cleanUp kept).mono fun outcome final kept => ⟨side, kept⟩

omit account in
theorem guards_preliminary :
    Guards perform Others (OnlyCalled Call.Preliminary world) (loadState vars facts)
      (fun _ => OnlyCalled Call.Preliminary world) world := by
  have single (facts : Facts) {request : Call} (preliminary : request.Preliminary)
      (register : Answer request → Except Failure Facts) :
      (task facts request register).Only Call.Preliminary :=
    ⟨preliminary, fun answer => Prog.only_ofExcept _⟩
  refine onlyCalled_of_only ?_ onlyCalled_refl
  refine (single facts (by trivial) _).bind fun facts => ?_
  exact (single facts (by trivial) _).bind fun facts => single facts (by trivial) _

theorem guards_loadState {start : World} (opening : Opening vars Inv Holds start)
    (inv : Inv start) :
    Guards perform Others Inv (loadState vars facts) (fun outcome reached =>
      ∀ result, outcome = .ok result → Holds .setup result.runState reached) start := by
  have ensured : Guards perform Others Inv (task facts .ensureStateDir fun answer =>
      answer.map fun _ => facts) (fun outcome reached => Inv reached ∧
        reached.file = start.file ∧
        ∃ answer, reached.log = .called .ensureStateDir answer :: start.log) start := by
    refine guards_task fun moved move => ?_
    have kept := opening.ensures (opening.moves inv move)
    exact ⟨kept, kept, move.file, _, by rw [← move.log]; rfl⟩
  refine ensured.bind (fun failure reached kept result same => by cases same) ?_
  rintro result reached ⟨inv, isFile, dir, isLog⟩
  have loaded : Guards perform Others Inv (task result .loadState fun answer =>
      answer.bind fun prior => (reconcile vars prior).map fun runState => { result with runState })
      (fun outcome reached => ∀ result, outcome = .ok result →
        Holds .setup result.runState reached) reached := by
    refine guards_task fun moved move => ?_
    have kept := opening.loads (opening.moves inv move)
    refine ⟨kept, ?_⟩
    intro other same
    cases answered : moved.respond .loadState with
    | error failure =>
        simp only [answerOf, answered] at same
        cases same
    | ok given =>
        simp only [answerOf, answered] at same
        cases reconciled : reconcile vars moved.file with
        | error failure =>
            simp only [Except.map, Except.bind, reconciled] at same
            cases same
        | ok state =>
            simp only [Except.map, Except.bind, reconciled] at same
            cases same
            exact opening.starts kept (move.file.trans isFile)
              (by rw [← isLog, ← move.log]; rfl) reconciled
  refine loaded.bind (fun failure reached kept result same => by cases same) ?_
  intro facts reached kept
  refine (account.guards_save (kept facts rfl)).mono ?_
  intro outcome final kept result same
  subst same
  exact kept

/-- An account that starts behind the reconciliation is kept by the whole run. -/
theorem guards_main (opening : Opening vars Inv Holds (begins vars world))
    (inv : Inv (begins vars world)) :
    Guards perform Others Inv (main vars) (fun _ _ => True) (begins vars world) := by
  unfold main
  cases validate vars with
  | error failure => exact trivial
  | ok done =>
      refine (account.guards_loadState opening inv).bind
        (fun failure reached kept => trivial) ?_
      intro facts reached kept
      exact (account.guards_lifecycle (kept facts rfl)).mono fun outcome final kept => trivial

/-- What holds at the end of every run: of the ones that end before the lifecycle, and of what
the `always` section makes of the account. -/
theorem guards_run {Done : World → Prop} (opening : Opening vars Inv Holds (begins vars world))
    (inv : Inv (begins vars world))
    (refused : ∀ reached, OnlyCalled Call.Preliminary (begins vars world) reached → Done reached)
    (cleans : ∀ side facts reached, Holds side facts.runState reached →
      Guards perform Others Inv (cleanUp facts) (fun _ => Done) reached) :
    Guards perform Others Inv (main vars) (fun _ => Done) (begins vars world) := by
  unfold main
  cases validate vars with
  | error failure => exact refused _ onlyCalled_refl
  | ok done =>
      refine ((account.guards_loadState opening inv).and guards_preliminary).bind ?_ ?_
      · rintro failure reached ⟨_, preliminary⟩
        exact refused reached preliminary
      · rintro facts reached ⟨kept, _⟩
        refine guards_always (account.guards_rescued (kept facts rfl)) ?_ fun _ _ _ done => done
        rintro outcome final ⟨side, kept⟩
        exact cleans side _ final kept

end Account

omit account in
/-- What an account says of the world holds at every point of every history. -/
theorem account_invariant (accounts : ∀ vars, Account vars Inv Holds)
    (openings : ∀ vars world, Opening vars Inv Holds (begins vars world))
    (started : ∀ vars world, Inv world → Inv (begins vars world))
    (start : ∀ world, Untouched world → Inv world) (history : RoleHistory world) : Inv world :=
  history.invariant start started fun vars world inv =>
    (accounts vars).guards_main (openings vars world) (started vars world inv)

end Tasks

end Asmb8Ikvm.Role

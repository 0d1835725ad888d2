import Asmb8Ikvm.Role.Release

/-!
# The destructive boundary

A transition is called for at one place of the role only, behind a fixed series of
calls that have all succeeded since the run began. So a run powers the machine at
most once, and only after the endpoint was reached, the image was attached, the
boot selection was armed, and each of this was saved.
-/

namespace Asmb8Ikvm.Role

open Interaction

/-- The calls that lead up to the boundary, as they have to come out. -/
inductive Milestone where
  | ensured
  | loaded
  | saved
  | reachable
  | originStarted
  | imageBuilt
  | attached
  | armed
  | armedSaved
deriving DecidableEq, Repr

/-- The event is the call of the milestone, and it has succeeded. -/
def Meets (vars : Vars) : Event → Milestone → Prop
  | .called .ensureStateDir (.ok _), .ensured => True
  | .called .loadState (.ok prior), .loaded => ∃ state, reconcile vars prior = .ok state
  | .called (.saveState _) (.ok _), .saved => True
  | .called .info (.ok probe), .reachable => probe.reachable = true
  | .called .startOrigin (.ok _), .originStarted => True
  | .called (.buildBootstrap _) (.ok _), .imageBuilt => True
  | .called (.attachMedia image _) (.ok _), .attached => image = mediaImagePath vars
  | .called (.armBoot device uefi) (.ok _), .armed =>
      device = vars.bootDevice ∧ uefi = vars.bootUefi
  | .called (.saveState record) (.ok _), .armedSaved => record.bootArmed = true
  | _, _ => False

/-- The milestones of the delivery over HTTP, the latest first. -/
def delivery (vars : Vars) : List Milestone :=
  if vars.delivery = "ipxe_http" then [.imageBuilt, .saved, .originStarted] else []

/-- The milestones of a run before the boundary, the latest first. -/
def preparation (vars : Vars) : List Milestone :=
  [.armedSaved, .armed, .saved, .attached, .saved] ++ delivery vars ++
    [.reachable, .saved, .loaded, .ensured]

/-- The log of a run that stands before the boundary. -/
def Prepared (log : List Event) : Prop :=
  ∃ vars events older, log = events ++ .began vars :: older ∧ validate vars = .ok () ∧
    List.Forall₂ (Meets vars) events (preparation vars)

/-- Every transition was prepared. -/
def Authorised : List Event → Prop
  | [] => True
  | .called .powerBoot _ :: log => Prepared log ∧ Authorised log
  | _ :: log => Authorised log

/-- The calls since the start have met these milestones. -/
def Met (vars : Vars) (start : World) (milestones : List Milestone) (world : World) : Prop :=
  ∃ events, Since start world events ∧ List.Forall₂ (Meets vars) events milestones

/-- A sequence of tasks that succeeds has met these milestones. -/
def Meeting (vars : Vars) (start : World) (milestones : List Milestone) :
    Except (Failure × Facts) Facts → World → Prop
  | .ok _, reached => Met vars start milestones reached
  | .error _, _ => True

section Preparation

variable {vars : Vars} {start world : World} {milestones : List Milestone} {facts : Facts}

theorem Met.called {moved : World} {request : Call} {milestone : Milestone}
    (met : Met vars start milestones world) (move : Others world moved)
    (meets : Meets vars (.called request (answerOf moved request)) milestone) :
    Met vars start (milestone :: milestones) (perform request moved).2 := by
  rcases met with ⟨events, since, all⟩
  have later : Since start moved events := move.log.trans since
  exact ⟨_, later.called request, .cons meets all⟩

theorem guards_milestone {request : Call} {register : Answer request → Except Failure Facts}
    (milestone : Milestone) (met : Met vars start milestones world)
    (meets : ∀ answer result, register answer = .ok result →
      Meets vars (.called request answer) milestone) :
    Guards perform Others (fun _ => True) (task facts request register)
      (Meeting vars start (milestone :: milestones)) world := by
  refine guards_task fun moved move => ⟨trivial, ?_⟩
  cases registered : register (answerOf moved request) with
  | ok result => exact met.called move (meets _ result registered)
  | error failure => trivial

theorem meeting_saveState (met : Met vars start milestones world) :
    Guards perform Others (fun _ => True) (saveState facts)
      (Meeting vars start (.saved :: milestones)) world := by
  refine guards_milestone .saved met fun answer result saved => ?_
  cases answer with
  | ok done => trivial
  | error failure => cases saved

/-- Sequencing of tasks that have to succeed. -/
theorem meeting_bind {plan : Plan Facts} {rest : Facts → Plan Facts}
    {later : List Milestone}
    (meeting : Guards perform Others (fun _ => True) plan (Meeting vars start milestones) world)
    (continues : ∀ facts reached, Met vars start milestones reached →
      Guards perform Others (fun _ => True) (rest facts) (Meeting vars start later) reached) :
    Guards perform Others (fun _ => True) (plan >>= rest) (Meeting vars start later) world :=
  meeting.bind (fun _ _ _ => trivial) continues

theorem meeting_loadState :
    Guards perform Others (fun _ => True) (loadState vars facts)
      (Meeting vars start [.saved, .loaded, .ensured]) start := by
  have nothing : Met vars start [] start := ⟨[], rfl, .nil⟩
  refine meeting_bind (guards_milestone .ensured nothing fun answer result ensured => ?_)
    fun facts reached met => ?_
  · cases answer with
    | ok done => trivial
    | error failure => cases ensured
  · refine meeting_bind (guards_milestone .loaded met fun answer result loaded => ?_)
      fun facts reached met => meeting_saveState met
    cases answer with
    | error failure => cases loaded
    | ok prior =>
        cases reconciled : reconcile vars prior with
        | ok state => exact ⟨state, reconciled⟩
        | error failure =>
            simp only [Except.bind, Except.map, reconciled] at loaded
            cases loaded

theorem meeting_probe (met : Met vars start milestones world) :
    Guards perform Others (fun _ => True) (probe vars facts)
      (Meeting vars start (.reachable :: milestones)) world := by
  refine guards_milestone .reachable met fun answer result probed => ?_
  cases answer with
  | error failure => cases probed
  | ok probe =>
      dsimp only [Except.bind] at probed
      split at probed
      · next reachable => exact reachable
      · cases probed

theorem meeting_deliver (met : Met vars start milestones world) :
    Guards perform Others (fun _ => True) (deliver vars facts)
      (Meeting vars start (delivery vars ++ milestones)) world := by
  rw [deliver, delivery]
  split
  · intro moved move
    refine ⟨trivial, ?_⟩
    cases started : moved.respond .startOrigin with
    | error failure =>
        simp only [perform, answerOf, started]
        exact trivial
    | ok origin =>
        have begun : Met vars start (.originStarted :: milestones)
            (perform .startOrigin moved).2 := by
          refine met.called move ?_
          simp only [answerOf, started]
          exact trivial
        simp only [perform, answerOf, started] at begun ⊢
        refine meeting_bind (meeting_saveState begun) fun facts reached met => ?_
        refine guards_milestone .imageBuilt met fun answer result built => ?_
        cases answer with
        | ok done => trivial
        | error failure => cases built
  · exact met

theorem meeting_attachMedia (met : Met vars start milestones world) :
    Guards perform Others (fun _ => True) (attachMedia vars facts)
      (Meeting vars start ([.saved, .attached, .saved] ++ milestones)) world := by
  refine meeting_bind (meeting_saveState met) fun facts reached met => ?_
  refine meeting_bind (guards_milestone .attached met fun answer result attached => ?_)
    fun facts reached met => meeting_saveState met
  cases answer with
  | ok sessionId => rfl
  | error failure => cases attached

theorem meeting_armBoot (met : Met vars start milestones world) :
    Guards perform Others (fun _ => True) (armBoot vars facts)
      (Meeting vars start ([.armedSaved, .armed] ++ milestones)) world := by
  suffices arms : Guards perform Others (fun _ => True)
      (task facts (.armBoot vars.bootDevice vars.bootUefi) fun answer => answer.map fun _ =>
        { facts with runState := { facts.runState with bootArmed := true } })
      (fun outcome reached => ∀ result, outcome = .ok result →
        result.runState.bootArmed = true ∧ Met vars start (.armed :: milestones) reached) world by
    refine arms.bind (fun _ _ _ => trivial) fun facts reached armed => ?_
    rcases armed facts rfl with ⟨isArmed, met⟩
    refine guards_milestone .armedSaved met fun answer result saved => ?_
    cases answer with
    | ok done => exact isArmed
    | error failure => cases saved
  refine guards_task fun moved move => ⟨trivial, ?_⟩
  intro result same
  cases armed : moved.respond (.armBoot vars.bootDevice vars.bootUefi) with
  | error failure =>
      simp only [answerOf, armed] at same
      cases same
  | ok done =>
      simp only [answerOf, armed] at same
      cases same
      refine ⟨rfl, met.called move ?_⟩
      simp only [answerOf, armed]
      exact ⟨rfl, rfl⟩

theorem meeting_prepare (met : Met vars start [.saved, .loaded, .ensured] world) :
    Guards perform Others (fun _ => True) (prepare vars facts)
      (Meeting vars start (preparation vars)) world := by
  refine meeting_bind (meeting_probe met) fun facts reached met => ?_
  refine meeting_bind (meeting_deliver met) fun facts reached met => ?_
  refine meeting_bind (meeting_attachMedia met) fun facts reached met => ?_
  rw [preparation, List.append_assoc]
  exact meeting_armBoot met

end Preparation

section Elsewhere

variable {vars : Vars} {facts : Facts} {P : Call → Prop}

/-- Every call but the one for the transition. -/
def Call.Reversible : Call → Prop
  | .powerBoot => False
  | _ => True

theorem reversible_loadState : (loadState vars facts).Only Call.Reversible := by
  refine (only_task (by trivial)).bind fun facts => ?_
  exact (only_task (by trivial)).bind fun facts => only_task (by trivial)

theorem reversible_deliver : (deliver vars facts).Only Call.Reversible := by
  unfold deliver
  split
  · refine ⟨trivial, fun answer => ?_⟩
    cases answer with
    | error failure => trivial
    | ok origin => exact (only_task (by trivial)).bind fun facts => only_task (by trivial)
  · trivial

theorem reversible_prepare : (prepare vars facts).Only Call.Reversible := by
  refine (only_task (by trivial)).bind fun facts => ?_
  refine reversible_deliver.bind fun facts => ?_
  have attaches : (attachMedia vars facts).Only Call.Reversible := by
    refine (only_task (by trivial)).bind fun facts => ?_
    exact (only_task (by trivial)).bind fun facts => only_task (by trivial)
  exact attaches.bind fun facts => (only_task (by trivial)).bind fun facts => only_task (by trivial)

theorem reversible_pollPower (retries : ℕ) : (pollPower facts retries).Only Call.Reversible := by
  induction retries with
  | zero => exact ⟨trivial, fun _ => trivial⟩
  | succ retries ih =>
      refine ⟨trivial, fun answer => ?_⟩
      dsimp only
      split
      · trivial
      · exact ih

theorem reversible_observe : (observe vars facts).Only Call.Reversible := by
  refine (reversible_pollPower _).bind fun polled => ?_
  dsimp only
  split
  · exact only_task (by trivial)
  · split
    · trivial
    · exact only_task (by trivial)

theorem reversible_detachMedia : (detachMedia facts).Only Call.Reversible := by
  unfold detachMedia
  split
  · exact (only_task (by trivial)).bind fun facts => only_task (by trivial)
  · exact only_task (by trivial)

theorem reversible_sampleChunks (items : List ℕ) :
    (sampleChunks vars items facts).Only Call.Reversible := by
  induction items generalizing facts with
  | nil => trivial
  | cons item items ih =>
      rw [sampleChunks]
      split
      · exact ih
      · refine Prog.Only.bind ⟨trivial, fun answer => ?_⟩ fun facts => ih
        cases answer with
        | ok done => trivial
        | error failure =>
            refine ⟨trivial, fun code => ?_⟩
            cases code with
            | ok code => trivial
            | error failure => trivial

theorem reversible_waitForHandoff : (waitForHandoff vars facts).Only Call.Reversible := by
  have waits : (waitWithoutSampling vars facts).Only Call.Reversible := by
    unfold waitWithoutSampling
    split
    · trivial
    · exact only_task (by trivial)
  refine waits.bind fun facts => ?_
  split
  · trivial
  · split
    · refine (reversible_sampleChunks _).bind fun facts => ?_
      split
      · trivial
      · trivial
    · trivial

theorem reversible_followUp : (followUp vars facts).Only Call.Reversible := by
  refine reversible_observe.bind fun facts => ?_
  have releases : (releaseEarly vars facts).Only Call.Reversible := by
    unfold releaseEarly
    split
    · exact reversible_detachMedia
    · trivial
  refine releases.bind fun facts => ?_
  split
  · exact reversible_waitForHandoff
  · trivial

theorem reversible_cleanUp : (cleanUp facts).Only Call.Reversible := by
  refine reversible_detachMedia.bind fun facts => ?_
  unfold stopIpxeOrigin
  split
  · exact only_task (by trivial)
  · trivial

end Elsewhere

/-- The transitions of the log were prepared. -/
def AllAuthorised (world : World) : Prop :=
  Authorised world.log

section Authorised

variable {vars : Vars} {facts : Facts} {world start : World}

theorem guards_reversible {plan : Plan Facts} (authorised : AllAuthorised world)
    (only : plan.Only Call.Reversible) :
    Guards perform Others AllAuthorised plan (fun _ => AllAuthorised) world := by
  refine Guards.of_only only authorised ?_
  intro request world moved reversible authorised move
  rw [AllAuthorised, ← move.log] at authorised
  cases request <;> first | exact authorised | exact reversible.elim

theorem guards_reset_prepared (authorised : AllAuthorised world) (prepared : Prepared world.log) :
    Guards perform Others AllAuthorised (reset vars facts) (fun _ => AllAuthorised) world := by
  have transition : Guards perform Others AllAuthorised (task facts .powerBoot fun answer =>
      answer.map fun _ => { facts with runState := { facts.runState with resetIssued := true } })
      (fun _ => AllAuthorised) world := by
    refine guards_task fun moved move => ?_
    have holds : AllAuthorised (perform .powerBoot moved).2 := by
      rw [AllAuthorised, ← move.log] at authorised
      rw [← move.log] at prepared
      exact ⟨prepared, authorised⟩
    exact ⟨holds, holds⟩
  have saves (facts : Facts) (reached : World) (kept : AllAuthorised reached) :
      Guards perform Others AllAuthorised (saveState facts) (fun _ => AllAuthorised) reached :=
    guards_reversible kept (only_task (by trivial))
  refine guards_rescue (transition.bind (fun _ _ authorised => authorised) saves)
    (fun _ _ kept => kept) fun failure facts reached kept => ?_
  exact guards_reversible kept ((only_task (by trivial)).bind fun facts => trivial)

theorem guards_block_authorised (valid : validate vars = .ok ())
    (authorised : AllAuthorised start)
    (met : Met vars (begins vars world) [.saved, .loaded, .ensured] start) :
    Guards perform Others AllAuthorised (block vars facts) (fun _ => AllAuthorised) start := by
  refine ((guards_reversible authorised reversible_prepare).and (meeting_prepare met)).bind
    (fun _ _ kept => kept.1) ?_
  rintro facts reached ⟨authorised, events, since, all⟩
  have prepared : Prepared reached.log := ⟨vars, events, world.log, since, valid, all⟩
  exact (guards_reset_prepared authorised prepared).bind (fun _ _ authorised => authorised)
    fun facts reached authorised => guards_reversible authorised reversible_followUp

theorem guards_main_authorised (authorised : AllAuthorised world) :
    Guards perform Others AllAuthorised (main vars) (fun _ _ => True) (begins vars world) := by
  unfold main
  cases valid : validate vars with
  | error failure => exact trivial
  | ok done =>
      have began : AllAuthorised (begins vars world) := authorised
      refine ((guards_reversible began reversible_loadState).and meeting_loadState).bind
        (fun _ _ _ => trivial) ?_
      rintro facts reached ⟨authorised, met⟩
      refine (guards_always ?_ (fun outcome final authorised =>
        guards_reversible authorised reversible_cleanUp) fun _ _ _ authorised => authorised).mono
        fun _ _ _ => trivial
      refine guards_rescue (guards_block_authorised valid authorised met)
        (fun _ _ authorised => authorised) fun failure facts reached authorised => ?_
      exact guards_reversible authorised ((only_task (by trivial)).bind fun facts => trivial)

theorem prepared_of_authorised {log earlier : List Event} {answer : Answer .powerBoot}
    (authorised : Authorised (log ++ .called .powerBoot answer :: earlier)) : Prepared earlier := by
  induction log with
  | nil => exact authorised.1
  | cons event log ih =>
      cases event with
      | began vars => exact ih authorised
      | called request answered =>
          cases request <;> first | exact ih authorised | exact ih authorised.2

end Authorised

/-- Between the beginning of the run and its transition lie the calls of the preparation, which
have all succeeded, and no others. -/
theorem transition_prepared {world : World} (history : RoleHistory world) :
    ∀ later answer earlier, world.log = later ++ .called .powerBoot answer :: earlier →
      ∃ vars events older, earlier = events ++ .began vars :: older ∧ validate vars = .ok () ∧
        List.Forall₂ (Meets vars) events (preparation vars) := by
  intro later answer earlier isLog
  have authorised : AllAuthorised world := by
    refine history.invariant ?_ (fun _ _ authorised => authorised)
      fun vars world authorised => guards_main_authorised authorised
    rintro start ⟨_, noLog⟩
    rw [AllAuthorised, noLog]
    trivial
  rw [AllAuthorised, isLog] at authorised
  exact prepared_of_authorised authorised

theorem transition_prepared_ipxe :
    let log := (once ipxeVars freshWorld).log
    ∃ vars events older, log.drop 8 = events ++ .began vars :: older ∧ validate vars = .ok () ∧
      List.Forall₂ (Meets vars) events (preparation vars) :=
  let world := once ipxeVars freshWorld
  @transition_prepared world (history_once freshWorld_honest history_freshWorld) (world.log.take 7)
    (.ok ()) (world.log.drop 8) rfl

end Asmb8Ikvm.Role

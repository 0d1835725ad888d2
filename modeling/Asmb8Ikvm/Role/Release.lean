import Asmb8Ikvm.Role.Resumption

/-!
# Sessions and origins are released

The media session and the HTTP origin outlive the run that has started them. A run
that comes to its end has told the media module to detach every session it has
attached; the origin it has started is stopped unless the detach before it failed.
A run that is interrupted leaves the id of its session in the state file, from
where a later run takes it up, until the reset is confirmed: from then on the
session is forgotten.
-/

namespace Asmb8Ikvm.Role

open Interaction

/-- An image is attached for the session, whatever comes of it. -/
def Attaches (sessionId : Option String) : Event → Prop
  | .called (.attachMedia _ named) _ => named = sessionId
  | _ => False

/-- The session is detached, or the reset it was attached for is recorded as confirmed; a
save that fails counts, as it may have replaced the file. -/
def Discharges (sessionId : Option String) : Event → Prop
  | .called (.detachMedia named) (.ok _) => named = sessionId
  | .called (.saveState record) _ => record.resetConfirmed = true
  | _ => False

/-- The file names the session, for a reset that is not confirmed. -/
def Named (file : Option RunState) (sessionId : Option String) : Prop :=
  ∃ record, file = some record ∧ record.sessionId = sessionId ∧ record.resetConfirmed = false

/-- The state file names every session that is pending. -/
def AllNamed (world : World) : Prop :=
  ∀ sessionId, Pending (Attaches sessionId) (Discharges sessionId) world.log →
    PyText.given sessionId = true ∧ Named world.file sessionId

/-- So does the run state. -/
structure Names (side : Side) (state : RunState) (world : World) : Prop where
  named : AllNamed world
  own : ∀ sessionId, Pending (Attaches sessionId) (Discharges sessionId) world.log →
    state.sessionId = sessionId
  unconfirmed : side ≠ .behind → state.resetConfirmed = false

section Named

variable {side : Side} {state : RunState} {world moved : World} {request : Call}
  {sessionId : Option String}

/-- The calls that neither attach nor discharge a session. -/
def Call.Unrelated : Call → Prop
  | .attachMedia _ _ => False
  | .detachMedia _ => False
  | .saveState _ => False
  | _ => True

theorem pending_unrelated (unrelated : request.Unrelated)
    (pending : Pending (Attaches sessionId) (Discharges sessionId)
      (perform request world).2.log) :
    Pending (Attaches sessionId) (Discharges sessionId) world.log := by
  rcases pending with attaches | ⟨_, pending⟩
  · cases request <;> first | exact attaches.elim | exact unrelated.elim
  · exact pending

theorem fileAfter_unrelated (unrelated : request.Unrelated) :
    (perform request world).2.file = world.file := by
  cases request <;> first | rfl | exact unrelated.elim

theorem AllNamed.unrelated (named : AllNamed world) (unrelated : request.Unrelated) :
    AllNamed (perform request world).2 := by
  intro sessionId pending
  rw [fileAfter_unrelated unrelated]
  exact named sessionId (pending_unrelated unrelated pending)

theorem AllNamed.moves (named : AllNamed world) (move : Others world moved) : AllNamed moved := by
  intro sessionId pending
  rw [move.log] at pending
  rw [move.file]
  exact named sessionId pending

theorem Names.unrelated (names : Names side state world) (unrelated : request.Unrelated) :
    Names side state (perform request world).2 :=
  ⟨names.named.unrelated unrelated,
    fun sessionId pending => names.own sessionId (pending_unrelated unrelated pending),
    names.unconfirmed⟩

theorem Names.save (names : Names side state world) :
    Names side state (perform (.saveState state) world).2 := by
  have earlier {sessionId : Option String} (pending : Pending (Attaches sessionId)
      (Discharges sessionId) (perform (.saveState state) world).2.log) :
      state.resetConfirmed = false ∧
        Pending (Attaches sessionId) (Discharges sessionId) world.log := by
    rcases pending with attaches | ⟨notConfirmed, pending⟩
    · exact attaches.elim
    · exact ⟨Bool.eq_false_iff.mpr notConfirmed, pending⟩
  refine ⟨?_, fun sessionId pending => names.own sessionId (earlier pending).2,
    names.unconfirmed⟩
  intro sessionId pending
  rcases earlier pending with ⟨notConfirmed, pending⟩
  rcases names.named sessionId pending with ⟨isGiven, named⟩
  refine ⟨isGiven, ?_⟩
  rcases fileAfter_save world state with written | kept
  · exact ⟨state, written, names.own sessionId pending, notConfirmed⟩
  · rcases named with ⟨record, isFile, rest⟩
    exact ⟨record, kept.trans isFile, rest⟩

/-- A session is attached whose id is in the file already. -/
theorem Names.attach (names : Names .before state world) (image : String)
    (isFile : world.file = some state) (isGiven : PyText.given state.sessionId = true) :
    Names .before state (perform (.attachMedia image state.sessionId) world).2 := by
  refine ⟨?_, ?_, names.unconfirmed⟩
  · rintro sessionId (attaches | ⟨_, pending⟩)
    · obtain rfl : state.sessionId = sessionId := attaches
      exact ⟨isGiven, state, isFile, rfl, names.unconfirmed Side.noConfusion⟩
    · exact names.named sessionId pending
  · rintro sessionId (attaches | ⟨_, pending⟩)
    · exact attaches
    · exact names.own sessionId pending

theorem Names.detach (names : Names side state world) :
    Names side state (perform (.detachMedia sessionId) world).2 := by
  have earlier {other : Option String} (pending : Pending (Attaches other) (Discharges other)
      (perform (.detachMedia sessionId) world).2.log) :
      Pending (Attaches other) (Discharges other) world.log := by
    rcases pending with attaches | ⟨_, pending⟩
    · exact attaches.elim
    · exact pending
  exact ⟨fun other pending => names.named other (earlier pending),
    fun other pending => names.own other (earlier pending), names.unconfirmed⟩

theorem names_account (vars : Vars) : Account vars AllNamed Names where
  inv := Names.named
  moves names move := by
    refine ⟨names.named.moves move, ?_, names.unconfirmed⟩
    intro sessionId pending
    rw [move.log] at pending
    exact names.own sessionId pending
  agrees names agrees := ⟨names.named,
    fun sessionId pending => agrees.sessionId.trans (names.own sessionId pending),
    fun notBehind => agrees.resetConfirmed.trans (names.unconfirmed notBehind)⟩
  saves := Names.save
  idles {_ _ _ request} idle names := by
    refine names.unrelated ?_
    cases request <;> trivial
  claims {state world} names := by
    unfold claimSession
    split
    · exact names
    · next notGiven =>
        refine ⟨names.named, ?_, names.unconfirmed⟩
        intro sessionId pending
        have isGiven := (names.named sessionId pending).1
        rw [← names.own sessionId pending] at isGiven
        exact absurd isGiven notGiven
  attaches image names isFile isGiven := names.attach image isFile isGiven
  detaches names _ := names.detach
  delivers names := ⟨names.named, names.own, fun _ => names.unconfirmed Side.noConfusion⟩
  originStarts {state world _} names _ _ := by
    have called : Names .setup state (perform .startOrigin world).2 := names.unrelated trivial
    exact ⟨called.named, called.own, fun _ => called.unconfirmed Side.noConfusion⟩
  originFails {state world _} names _ := by
    have called : Names .setup state (perform .startOrigin world).2 := names.unrelated trivial
    exact ⟨called.named, called.own, fun _ => called.unconfirmed Side.noConfusion⟩
  originStops names := names.unrelated trivial
  arms names := ⟨names.named, names.own, names.unconfirmed⟩
  resets {state world} names _ _ := by
    have called : Names .before state (perform .powerBoot world).2 := names.unrelated trivial
    exact ⟨called.named, called.own, fun notBehind => absurd rfl notBehind⟩
  confirms names _ _ := ⟨names.named, names.own, fun notBehind => absurd rfl notBehind⟩

theorem allNamed_begins (vars : Vars) (world : World) (named : AllNamed world) :
    AllNamed (begins vars world) := by
  rintro sessionId (attaches | ⟨_, pending⟩)
  · exact attaches.elim
  · exact named sessionId pending

theorem names_opening (vars : Vars) (start : World) :
    Opening vars AllNamed Names (begins vars start) where
  moves := AllNamed.moves
  ensures named := named.unrelated trivial
  loads named := named.unrelated trivial
  starts {world _ _ _} named _ _ reconciled := by
    rcases reconcile_ok reconciled with ⟨unconfirmed, same, _⟩
    refine ⟨named, ?_, fun _ => unconfirmed⟩
    intro sessionId pending
    rcases named sessionId pending with ⟨_, record, isFile, isSession, notConfirmed⟩
    rw [same, isFile, ← isSession]
    exact congrArg RunState.sessionId (if_neg (Bool.eq_false_iff.mp notConfirmed))

end Named

/-- A session that was attached and neither detached nor made part of a confirmed run is named by
the state file, at every point of every history. -/
theorem session_named {world : World} (history : RoleHistory world) :
    ∀ later image sessionId answer earlier,
      world.log = later ++ .called (.attachMedia image sessionId) answer :: earlier →
      (∃ event ∈ later, Discharges sessionId event) ∨ Named world.file sessionId := by
  intro later image sessionId answer earlier isLog
  have named : AllNamed world := by
    refine account_invariant names_account names_opening allNamed_begins ?_ history
    rintro start ⟨_, noLog⟩ other pending
    rw [noLog] at pending
    exact pending.elim
  by_cases pending : Pending (Attaches sessionId) (Discharges sessionId) world.log
  · exact .inr (named sessionId pending).2
  · rw [isLog] at pending
    exact .inl (exists_closes pending rfl)

theorem session_named_once :
    let log := (once minimalVars freshWorld).log
    (∃ event ∈ log.take 10, Discharges (some "session") event) ∨
      Named (once minimalVars freshWorld).file (some "session") :=
  let world := once minimalVars freshWorld
  session_named (history_once freshWorld_honest history_freshWorld) (world.log.take 10)
    "installer.iso" (some "session") (.ok "session") (world.log.drop 11) rfl

/-- What a run has added to the log, the latest event first. -/
def Since (start world : World) (events : List Event) : Prop :=
  world.log = events ++ start.log

/-- A property of the run state, and one of every event of the run. -/
structure Throughout (start : World) (Told : Side → RunState → Prop)
    (Holds : Side → RunState → Event → Prop) (side : Side) (state : RunState) (world : World) :
    Prop where
  told : Told side state
  events : ∃ events, Since start world events ∧ ∀ event ∈ events, Holds side state event

section Throughout

variable {start world moved : World} {events : List Event} {side other : Side}
  {state later : RunState} {Told : Side → RunState → Prop}
  {Holds : Side → RunState → Event → Prop}

theorem Since.called (since : Since start world events) (request : Call) :
    Since start (perform request world).2
      (.called request (answerOf world request) :: events) :=
  congrArg _ since

theorem Throughout.moves (throughout : Throughout start Told Holds side state world)
    (move : Others world moved) : Throughout start Told Holds side state moved := by
  rcases throughout with ⟨told, events, since, all⟩
  exact ⟨told, events, move.log.trans since, all⟩

theorem Throughout.mono (throughout : Throughout start Told Holds side state world)
    (keep : Told side state → Told other later)
    (keeps : ∀ event, Holds side state event → Holds other later event) :
    Throughout start Told Holds other later world := by
  rcases throughout with ⟨told, events, since, all⟩
  exact ⟨keep told, events, since, fun event mem => keeps event (all event mem)⟩

theorem Throughout.call {request : Call}
    (throughout : Throughout start Told Holds side state world)
    (holds : Told side state → Holds side state (.called request (answerOf world request))) :
    Throughout start Told Holds side state (perform request world).2 := by
  rcases throughout with ⟨told, events, since, all⟩
  exact ⟨told, _, since.called request, List.forall_mem_cons.mpr ⟨holds told, all⟩⟩

end Throughout

/-- The calls that are not about a session. -/
def Call.OffSession : Call → Prop
  | .attachMedia _ _ => False
  | .detachMedia _ => False
  | _ => True

/-- The session is told to detach, whatever comes of it. -/
def Detaches (sessionId : Option String) : Event → Prop
  | .called (.detachMedia named) _ => named = sessionId
  | _ => False

/-- The session of a run: the one the state file names, or a new one. -/
def chosenSession (vars : Vars) (file : Option RunState) : Option String :=
  (claimSession vars (startingState file)).sessionId

/-- The session is that of the start or the chosen one. -/
def Chosen (vars : Vars) (file : Option RunState) (_ : Side) (state : RunState) : Prop :=
  state.sessionId = (startingState file).sessionId ∨ state.sessionId = chosenSession vars file

/-- What is attached or detached is the chosen session. -/
def OneSession (vars : Vars) (file : Option RunState) (_ : Side) (state : RunState)
    (event : Event) : Prop :=
  ∀ sessionId, Attaches sessionId event ∨ Detaches sessionId event →
    sessionId = chosenSession vars file ∧ state.sessionId = chosenSession vars file

section OneSession

variable {vars : Vars} {file : Option RunState} {side : Side} {state : RunState}
  {start world : World} {request : Call}

theorem chosen_of_given (chosen : Chosen vars file side state)
    (isGiven : PyText.given state.sessionId = true) :
    state.sessionId = chosenSession vars file := by
  rcases chosen with same | same
  · rw [same] at isGiven ⊢
    rw [chosenSession, claimSession, if_pos isGiven]
  · exact same

theorem chosen_claimSession (chosen : Chosen vars file side state) :
    (claimSession vars state).sessionId = chosenSession vars file := by
  by_cases isGiven : PyText.given state.sessionId = true
  · rw [claimSession, if_pos isGiven]
    exact chosen_of_given chosen isGiven
  · rcases chosen with same | same
    · rw [chosenSession, claimSession, claimSession, if_neg isGiven, if_neg (same ▸ isGiven)]
    · rw [same] at isGiven
      exact absurd (given_claimSession vars (startingState file)) isGiven

theorem oneSession_offSession (offSession : request.OffSession) (answer : Answer request) :
    OneSession vars file side state (.called request answer) := by
  rintro sessionId (attaches | detaches)
  · cases request <;> first | exact attaches.elim | exact offSession.elim
  · cases request <;> first | exact detaches.elim | exact offSession.elim

/-- The events of a run are about one session. -/
abbrev OfOneSession (vars : Vars) (file : Option RunState) (start : World) :
    Side → RunState → World → Prop :=
  Throughout start (Chosen vars file) (OneSession vars file)

theorem ofOneSession_call (ofOne : OfOneSession vars file start side state world)
    (offSession : request.OffSession) :
    OfOneSession vars file start side state (perform request world).2 :=
  ofOne.call fun _ => oneSession_offSession offSession _

/-- A change of the run state that leaves the session. -/
theorem ofOneSession_state {other : Side} {later : RunState}
    (ofOne : OfOneSession vars file start side state world)
    (same : later.sessionId = state.sessionId) :
    OfOneSession vars file start other later world := by
  refine ofOne.mono (fun chosen => ?_) fun event one sessionId related => ?_
  · rw [Chosen, same]
    exact chosen
  · rw [same]
    exact one sessionId related

theorem oneSession_account (vars : Vars) (file : Option RunState) (start : World) :
    Account vars (fun _ => True) (OfOneSession vars file start) where
  inv _ := trivial
  moves := Throughout.moves
  agrees ofOne agrees := ofOneSession_state ofOne agrees.sessionId
  saves ofOne := ofOneSession_call ofOne (by trivial)
  idles {_ _ _ request} idle ofOne := by
    refine ofOneSession_call ofOne ?_
    cases request <;> trivial
  claims ofOne := by
    have claimed := chosen_claimSession ofOne.told
    refine ofOne.mono (fun _ => .inr claimed) fun event one sessionId related => ?_
    exact ⟨(one sessionId related).1, claimed⟩
  attaches _ ofOne _ isGiven := by
    refine ofOne.call fun chosen => ?_
    have same := chosen_of_given chosen isGiven
    rintro sessionId (attaches | detaches)
    · exact ⟨attaches.symm.trans same, same⟩
    · exact detaches.elim
  detaches ofOne isGiven := by
    refine ofOne.call fun chosen => ?_
    have same := chosen_of_given chosen isGiven
    rintro sessionId (attaches | detaches)
    · exact attaches.elim
    · exact ⟨detaches.symm.trans same, same⟩
  delivers ofOne := ofOneSession_state ofOne rfl
  originStarts ofOne _ _ := ofOneSession_state (ofOneSession_call ofOne (by trivial)) rfl
  originFails ofOne _ := ofOneSession_state (ofOneSession_call ofOne (by trivial)) rfl
  originStops ofOne := ofOneSession_call ofOne (by trivial)
  arms ofOne := ofOneSession_state ofOne rfl
  resets ofOne _ _ := ofOneSession_state (ofOneSession_call ofOne (by trivial)) rfl
  confirms ofOne _ _ := ofOneSession_state ofOne rfl

theorem oneSession_opening (vars : Vars) (start : World) :
    Opening vars (fun _ => True) (OfOneSession vars start.file start) start where
  moves _ _ := trivial
  ensures _ := trivial
  loads _ := trivial
  starts {world state dir load} _ isFile isLog reconciled := by
    refine ⟨.inl ?_, [_, _], isLog, ?_⟩
    · rw [isFile] at reconciled
      exact (reconcile_ok reconciled).2.1
    · exact List.forall_mem_cons.mpr ⟨oneSession_offSession (by trivial) _,
        List.forall_mem_singleton.mpr (oneSession_offSession (by trivial) _)⟩

/-- The run has attached and detached one session only, and it has detached what it attached. -/
def Detached (chosen : Option String) (start world : World) : Prop :=
  ∃ events, Since start world events ∧
    (∀ event ∈ events, ∀ sessionId, Attaches sessionId event ∨ Detaches sessionId event →
      sessionId = chosen) ∧
    ∀ sessionId, ¬Pending (Attaches sessionId) (Detaches sessionId) events

/-- A detached session stays so as long as nothing is attached. -/
theorem detached_call {chosen : Option String} {world moved : World}
    (detached : Detached chosen start world) (move : Others world moved)
    (offSession : request.OffSession) : Detached chosen start (perform request moved).2 := by
  rcases detached with ⟨events, since, one, settled⟩
  have later : Since start moved events := move.log.trans since
  refine ⟨_, later.called request, List.forall_mem_cons.mpr ⟨?_, one⟩, ?_⟩
  · rintro sessionId (attaches | detaches)
    · cases request <;> first | exact attaches.elim | exact offSession.elim
    · cases request <;> first | exact detaches.elim | exact offSession.elim
  · rintro sessionId (attaches | ⟨_, pending⟩)
    · cases request <;> first | exact attaches.elim | exact offSession.elim
    · exact settled sessionId pending

theorem detached_plan {chosen : Option String} {world : World} {plan : Plan Facts}
    (detached : Detached chosen start world) (only : plan.Only Call.OffSession) :
    Guards perform Others (Detached chosen start) plan (fun _ => Detached chosen start) world :=
  Guards.of_only only detached fun _ _ _ offSession detached move =>
    detached_call detached move offSession

theorem only_task {P : Call → Prop} {facts : Facts} {request : Call}
    {register : Answer request → Except Failure Facts} (holds : P request) :
    (task facts request register).Only P :=
  ⟨holds, fun _ => Prog.only_ofExcept _⟩

theorem only_stopIpxeOrigin (facts : Facts) : (stopIpxeOrigin facts).Only Call.OffSession := by
  unfold stopIpxeOrigin
  split
  · exact only_task (by trivial)
  · trivial

theorem guards_offSession {chosen : Option String} {world : World} {plan : Plan Facts}
    (detached : Detached chosen start world) (only : plan.Only Call.OffSession) :
    Guards perform Others (fun _ => True) plan (fun _ => Detached chosen start) world :=
  (detached_plan detached only).weaken fun _ _ => trivial

/-- `detach_media.yml` detaches what the run has attached, whatever the module answers. -/
theorem guards_detachMedia_detached {file : Option RunState} {facts : Facts} {world : World}
    (ofOne : OfOneSession vars file start side facts.runState world) :
    Guards perform Others (fun _ => True) (detachMedia facts)
      (fun _ => Detached (chosenSession vars file) start) world := by
  rcases ofOne with ⟨chosen, events, since, one⟩
  have allOne : ∀ event ∈ events, ∀ sessionId, Attaches sessionId event ∨ Detaches sessionId event →
      sessionId = chosenSession vars file :=
    fun event mem sessionId related => (one event mem sessionId related).1
  have attached {sessionId : Option String}
      (pending : Pending (Attaches sessionId) (Detaches sessionId) events) :
      ∃ event ∈ events, Attaches sessionId event := by
    rcases pending_iff.mp pending with ⟨_, event, _, split, attaches, _⟩
    exact ⟨event, split ▸ List.mem_append_right _ List.mem_cons_self, attaches⟩
  unfold detachMedia
  split
  · next isGiven =>
      have same := chosen_of_given chosen isGiven
      suffices tells : Guards perform Others (fun _ => True) (task facts
          (.detachMedia facts.runState.sessionId) fun answer => answer.map fun _ =>
            { facts with runState := { facts.runState with detached := true } })
          (fun _ => Detached (chosenSession vars file) start) world by
        exact tells.bind (fun _ _ detached => detached)
          fun facts reached detached => guards_offSession detached (only_task (by trivial))
      refine guards_task fun moved move => ⟨trivial, ?_⟩
      have later : Since start moved events := move.log.trans since
      refine ⟨_, later.called _, List.forall_mem_cons.mpr ⟨?_, allOne⟩, ?_⟩
      · rintro sessionId (attaches | detaches)
        · exact attaches.elim
        · exact detaches.symm.trans same
      · rintro sessionId (attaches | ⟨notDetached, pending⟩)
        · exact attaches
        · rcases attached pending with ⟨event, mem, attaches⟩
          exact notDetached (same.trans (allOne event mem sessionId (.inl attaches)).symm)
  · next notGiven =>
      refine guards_offSession ⟨events, since, allOne, ?_⟩ (only_task (by trivial))
      intro sessionId pending
      rcases attached pending with ⟨event, mem, attaches⟩
      have same := (one event mem sessionId (.inl attaches)).2
      rw [same] at notGiven
      exact notGiven (given_claimSession vars (startingState file))

theorem guards_main_detached (vars : Vars) (world : World) :
    Guards perform Others (fun _ => True) (main vars)
      (fun _ => Detached (chosenSession vars world.file) (begins vars world))
      (begins vars world) := by
  refine (oneSession_account vars world.file _).guards_run
    (oneSession_opening vars (begins vars world)) trivial ?_ ?_
  · rintro reached ⟨events, isLog, called⟩
    refine ⟨events, isLog, ?_, ?_⟩
    · rintro event mem sessionId related
      rcases called event mem with ⟨request, answer, rfl, preliminary⟩
      rcases related with attaches | detaches
      · cases request <;> first | exact attaches.elim | exact preliminary.elim
      · cases request <;> first | exact detaches.elim | exact preliminary.elim
    · intro sessionId pending
      rcases pending_iff.mp pending with ⟨_, event, _, split, attaches, _⟩
      rcases called event (split ▸ List.mem_append_right _ List.mem_cons_self)
        with ⟨request, answer, rfl, preliminary⟩
      cases request <;> first | exact attaches.elim | exact preliminary.elim
  · intro side facts reached ofOne
    exact (guards_detachMedia_detached ofOne).bind (fun _ _ detached => detached)
      fun facts reached detached => guards_offSession detached (only_stopIpxeOrigin facts)

end OneSession

/-- A run that comes to its end, well or not, has attached and detached one session only: the one
the state file names, or a new one if there is none or the reset it was for is confirmed. Behind
every call that attaches it there is one that detaches it. -/
theorem run_detaches {vars : Vars} {world final : World} {trace : List (Moment Call World)}
    {outcome : Except (Failure × Facts) Facts}
    (run : Runs perform Others (main vars) (begins vars world) trace outcome final) :
    ∃ events, Since (begins vars world) final events ∧
      (∀ event ∈ events, ∀ sessionId, Attaches sessionId event ∨ Detaches sessionId event →
        sessionId = chosenSession vars world.file) ∧
      ∀ later image sessionId answer earlier,
        events = later ++ .called (.attachMedia image sessionId) answer :: earlier →
        ∃ event ∈ later, Detaches sessionId event := by
  rcases run.reaches.ended trivial (guards_main_detached vars world) with
    ⟨events, since, one, settled⟩
  refine ⟨events, since, one, ?_⟩
  intro later image sessionId answer earlier split
  have done := settled sessionId
  rw [split] at done
  exact exists_closes done rfl

theorem run_detaches_fresh : ∃ events,
    Since (begins minimalVars freshWorld) (once minimalVars freshWorld) events ∧
      (∀ event ∈ events, ∀ sessionId, Attaches sessionId event ∨ Detaches sessionId event →
        sessionId = some "session") ∧
      ∀ later image sessionId answer earlier,
        events = later ++ .called (.attachMedia image sessionId) answer :: earlier →
        ∃ event ∈ later, Detaches sessionId event :=
  run_detaches (runs_once freshWorld_honest)

/-- An origin has been started. -/
def Starts (origin : Origin) : Event → Prop
  | .called .startOrigin (.ok started) => started = origin
  | _ => False

/-- The origin is told to stop, whatever comes of it. -/
def Stops (origin : Origin) : Event → Prop
  | .called (.stopOrigin named) _ => named = some origin.sessionId
  | _ => False

/-- Only behind the delivery an origin has been started, and it is the one of the run state. -/
def OneOrigin (side : Side) (state : RunState) (event : Event) : Prop :=
  ∀ origin, Starts origin event → side ≠ .setup ∧ origin.sessionId ≠ "" ∧
    state.ipxeOriginSessionId = some origin.sessionId

abbrev OfOneOrigin (start : World) : Side → RunState → World → Prop :=
  Throughout start (fun _ _ => True) OneOrigin

/-- The last call was a detach or a save that has failed. -/
def CleanUpFailed : List Event → Prop
  | .called (.detachMedia _) (.error _) :: _ => True
  | .called (.saveState _) (.error _) :: _ => True
  | _ => False

section OneOrigin

variable {vars : Vars} {side other : Side} {state later : RunState} {start world : World}
  {request : Call}

theorem not_starts {answer : Answer request} {origin : Origin}
    (elsewhere : request ≠ .startOrigin) :
    ¬Starts origin (.called request answer) := by
  intro starts
  cases request <;> first | exact starts.elim | exact elsewhere rfl

theorem ofOneOrigin_call (ofOne : OfOneOrigin start side state world)
    (elsewhere : request ≠ .startOrigin) :
    OfOneOrigin start side state (perform request world).2 :=
  ofOne.call fun _ _ starts => absurd starts (not_starts elsewhere)

theorem ofOneOrigin_state (ofOne : OfOneOrigin start side state world)
    (advances : side ≠ .setup → other ≠ .setup)
    (same : later.ipxeOriginSessionId = state.ipxeOriginSessionId) :
    OfOneOrigin start other later world := by
  refine ofOne.mono id fun event one origin starts => ?_
  rcases one origin starts with ⟨notSetup, notEmpty, named⟩
  exact ⟨advances notSetup, notEmpty, same.trans named⟩

theorem oneOrigin_account (vars : Vars) (start : World) :
    Account vars (fun _ => True) (OfOneOrigin start) where
  inv _ := trivial
  moves := Throughout.moves
  agrees ofOne agrees := ofOneOrigin_state ofOne id agrees.ipxeOriginSessionId
  saves ofOne := ofOneOrigin_call ofOne Call.noConfusion
  idles {_ _ _ request} idle ofOne := by
    refine ofOneOrigin_call ofOne ?_
    rintro rfl
    exact idle
  claims ofOne := by
    unfold claimSession
    split
    · exact ofOne
    · exact ofOneOrigin_state ofOne id rfl
  attaches _ ofOne _ _ := ofOneOrigin_call ofOne Call.noConfusion
  detaches ofOne _ := ofOneOrigin_call ofOne Call.noConfusion
  delivers ofOne := ofOneOrigin_state ofOne (fun _ => Side.noConfusion) rfl
  originStarts {state world origin} ofOne honest started := by
    rcases ofOne with ⟨_, events, since, one⟩
    refine ⟨trivial, _, since.called .startOrigin, List.forall_mem_cons.mpr ⟨?_, ?_⟩⟩
    · intro other starts
      simp only [answerOf, started] at starts
      obtain rfl : origin = other := starts
      exact ⟨Side.noConfusion, honest.starts origin started, rfl⟩
    · intro event mem other starts
      exact absurd rfl (one event mem other starts).1
  originFails {state world failure} ofOne failed := by
    rcases ofOne with ⟨_, events, since, one⟩
    refine ⟨trivial, _, since.called .startOrigin, List.forall_mem_cons.mpr ⟨?_, ?_⟩⟩
    · intro other starts
      simp only [answerOf, failed] at starts
      exact starts.elim
    · intro event mem other starts
      exact absurd rfl (one event mem other starts).1
  originStops ofOne := ofOneOrigin_call ofOne Call.noConfusion
  arms ofOne := ofOneOrigin_state ofOne id rfl
  resets ofOne _ _ := ofOneOrigin_state (ofOneOrigin_call ofOne Call.noConfusion)
    (fun _ => Side.noConfusion) rfl
  confirms ofOne _ _ := ofOneOrigin_state ofOne id rfl

theorem oneOrigin_opening (vars : Vars) (start : World) :
    Opening vars (fun _ => True) (OfOneOrigin start) start where
  moves _ _ := trivial
  ensures _ := trivial
  loads _ := trivial
  starts {world state dir load} _ _ isLog _ := by
    refine ⟨trivial, [_, _], isLog, List.forall_mem_cons.mpr ⟨?_, ?_⟩⟩
    · exact fun origin starts => absurd starts (not_starts Call.noConfusion)
    · exact List.forall_mem_singleton.mpr
        fun origin starts => absurd starts (not_starts Call.noConfusion)

/-- Every origin of the run was stopped, unless the run has ended with a detach or a save that
failed. -/
def OriginsStopped (start world : World) : Prop :=
  ∃ events, Since start world events ∧
    (CleanUpFailed events ∨ ∀ origin, ¬Pending (Starts origin) (Stops origin) events)

/-- What the detach leaves to the task behind it; if it fails, that is the end of the run. -/
def LeavesOrigin (start : World) (side : Side) :
    Except (Failure × Facts) Facts → World → Prop
  | .ok facts, reached => OfOneOrigin start side facts.runState reached
  | .error _, reached => OriginsStopped start reached

theorem guards_leavesOrigin {facts : Facts} {register : Answer request → Except Failure Facts}
    (ofOne : OfOneOrigin start side facts.runState world) (elsewhere : request ≠ .startOrigin)
    (fails : ∀ answer failure events, register answer = .error failure →
      CleanUpFailed (.called request answer :: events))
    (registers : ∀ answer result, register answer = .ok result →
      result.runState.ipxeOriginSessionId = facts.runState.ipxeOriginSessionId) :
    Guards perform Others (fun _ => True) (task facts request register)
      (LeavesOrigin start side) world := by
  refine guards_task fun moved move => ⟨trivial, ?_⟩
  cases registered : register (answerOf moved request) with
  | ok result =>
      exact ofOneOrigin_state (ofOneOrigin_call (ofOne.moves move) elsewhere) id
        (registers _ result registered)
  | error failure =>
      rcases ofOne.moves move with ⟨_, events, since, _⟩
      exact ⟨_, since.called request, .inl (fails _ failure events registered)⟩

theorem guards_saveState_origin {facts : Facts}
    (ofOne : OfOneOrigin start side facts.runState world) :
    Guards perform Others (fun _ => True) (saveState facts) (LeavesOrigin start side) world := by
  refine guards_leavesOrigin ofOne Call.noConfusion ?_ ?_
  · intro answer failure events failed
    cases answer with
    | ok done => cases failed
    | error failure => trivial
  · intro answer result saved
    cases answer with
    | ok done =>
        cases saved
        rfl
    | error failure => cases saved

theorem guards_detachMedia_origin {facts : Facts}
    (ofOne : OfOneOrigin start side facts.runState world) :
    Guards perform Others (fun _ => True) (detachMedia facts) (LeavesOrigin start side) world := by
  unfold detachMedia
  split
  · suffices detaches : Guards perform Others (fun _ => True) (task facts
        (.detachMedia facts.runState.sessionId) fun answer => answer.map fun _ =>
          { facts with runState := { facts.runState with detached := true } })
        (LeavesOrigin start side) world by
      exact detaches.bind (fun _ _ stopped => stopped)
        fun facts reached ofOne => guards_saveState_origin ofOne
    refine guards_leavesOrigin ofOne Call.noConfusion ?_ ?_
    · intro answer failure events failed
      cases answer with
      | ok done => cases failed
      | error failure => trivial
    · intro answer result detached
      cases answer with
      | ok done =>
          cases detached
          rfl
      | error failure => cases detached
  · exact guards_saveState_origin ofOne

/-- The origin of the run state is stopped. -/
theorem guards_stopIpxeOrigin_stopped {facts : Facts}
    (ofOne : OfOneOrigin start side facts.runState world) :
    Guards perform Others (fun _ => True) (stopIpxeOrigin facts)
      (fun _ => OriginsStopped start) world := by
  rcases ofOne with ⟨_, events, since, one⟩
  have named {origin : Origin} (pending : Pending (Starts origin) (Stops origin) events) :
      origin.sessionId ≠ "" ∧ facts.runState.ipxeOriginSessionId = some origin.sessionId := by
    rcases pending_iff.mp pending with ⟨_, event, _, split, starts, _⟩
    have mem : event ∈ events := split ▸ List.mem_append_right _ List.mem_cons_self
    exact (one event mem origin starts).2
  unfold stopIpxeOrigin
  split
  · refine guards_task fun moved move => ⟨trivial, ?_⟩
    have later : Since start moved events := move.log.trans since
    refine ⟨_, later.called _, .inr ?_⟩
    rintro origin (starts | ⟨notStopped, pending⟩)
    · exact starts
    · exact notStopped (named pending).2
  · next notGiven =>
      refine ⟨events, since, .inr fun origin pending => notGiven ?_⟩
      rcases named pending with ⟨notEmpty, same⟩
      rw [same]
      exact bne_iff_ne.mpr notEmpty

theorem guards_main_origins (vars : Vars) (world : World) :
    Guards perform Others (fun _ => True) (main vars)
      (fun _ => OriginsStopped (begins vars world)) (begins vars world) := by
  refine (oneOrigin_account vars _).guards_run (oneOrigin_opening vars (begins vars world))
    trivial ?_ ?_
  · rintro reached ⟨events, isLog, called⟩
    refine ⟨events, isLog, .inr fun origin pending => ?_⟩
    rcases pending_iff.mp pending with ⟨_, event, _, split, starts, _⟩
    rcases called event (split ▸ List.mem_append_right _ List.mem_cons_self)
      with ⟨request, answer, rfl, preliminary⟩
    refine not_starts ?_ starts
    rintro rfl
    exact preliminary
  · intro side facts reached ofOne
    exact (guards_detachMedia_origin ofOne).bind (fun _ _ stopped => stopped)
      fun facts reached ofOne => guards_stopIpxeOrigin_stopped ofOne

end OneOrigin

/-- Behind every start of an origin that has succeeded a run that comes to its end has stopped the
origin, unless its last call was a detach or a save that has failed. -/
theorem run_stops_origin {vars : Vars} {world final : World} {trace : List (Moment Call World)}
    {outcome : Except (Failure × Facts) Facts}
    (run : Runs perform Others (main vars) (begins vars world) trace outcome final) :
    ∃ events, Since (begins vars world) final events ∧
      (CleanUpFailed events ∨ ∀ later origin earlier,
        events = later ++ .called .startOrigin (.ok origin) :: earlier →
        ∃ event ∈ later, Stops origin event) := by
  rcases run.reaches.ended trivial (guards_main_origins vars world) with
    ⟨events, since, failed | stopped⟩
  · exact ⟨events, since, .inl failed⟩
  · refine ⟨events, since, .inr ?_⟩
    intro later origin earlier split
    have done := stopped origin
    rw [split] at done
    exact exists_closes done rfl

/-- The variables of a run that delivers over HTTP. -/
def ipxeVars : Vars :=
  { minimalVars with
    delivery := "ipxe_http"
    ipxeOriginPath := some "/srv/origin"
    ipxeOriginBindAddress := some "10.0.0.2"
    ipxeLkrnPath := some "ipxe.lkrn"
    ipxeNetworkMode := "dhcp"
    samplePostCodeDuringHandoff := true }

theorem run_stops_origin_ipxe : ∃ events,
    Since (begins ipxeVars freshWorld) (once ipxeVars freshWorld) events ∧
      (CleanUpFailed events ∨ ∀ later origin earlier,
        events = later ++ .called .startOrigin (.ok origin) :: earlier →
        ∃ event ∈ later, Stops origin event) :=
  run_stops_origin (runs_once freshWorld_honest)

end Asmb8Ikvm.Role

import Asmb8Ikvm.Modules.Stopping

/-!
# Attaching an image

What a success of `asmb8_media` with `state=attached` says. A fresh daemon is
waited for until it reports `attached`; the session that is found live is answered
with as it is, whatever it has attached and however far it has come.
-/

namespace Asmb8Ikvm.Modules

open Interaction Asmb8Ikvm.Runtime

variable {S : Type}

/-- A failure that `main` reports with `fail_json`. -/
def Reported : Failure S → Prop
  | .failJson _ _ _ _ => True
  | .raised (.ikvm _) => True
  | _ => False

/-- What a call looks for: its session, its image and its endpoint. -/
def Params.config (params : Params) : SessionConfig where
  sessionId := params.chosenId
  endpoint := some params.endpoint
  image := params.path

/-- The record is of the session that was asked for, and ready. -/
structure Matches (policy : Policy S) (config : SessionConfig) (record : StateRecord S) : Prop where
  state : record.state = some policy.ready
  endpoint : record.endpoint = config.endpoint
  image : record.image = config.image

/-- A record of the session or of a conflicting one, whose pid cannot be probed. -/
def UnusableLook (codec : Codec S) (config : SessionConfig) (trace : List (Moment Call World)) :
    Prop :=
  ∃ look ∈ trace, ∃ sessionId record, Look codec look sessionId record ∧
    (sessionId = config.sessionId ∨ record.endpoint = config.endpoint) ∧ Unusable record.pid

/-- Why an exception other than an `IkvmError` comes out of an attach. -/
def Excused (codec : Codec S) (config : SessionConfig) (trace : List (Moment Call World)) : Prop :=
  Undecodable codec trace ∨ Refused trace ∨ UnusableLook codec config trace

/-- The last look at the record of the session has shown this record. -/
def LastLook (codec : Codec S) (sessionId : Name) (trace : List (Moment Call World))
    (look : Moment Call World) (after : List (Moment Call World)) (record : StateRecord S) : Prop :=
  Look codec look sessionId record ∧ (∃ before, trace = before ++ look :: after) ∧
    ∀ moment ∈ after, moment.request ≠ .readFile (stateFilePath sessionId)

section Excuses

variable {codec : Codec S} {config : SessionConfig} {trace later : List (Moment Call World)}

theorem Excused.append (excused : Excused codec config trace) :
    Excused codec config (trace ++ later) := by
  refine excused.imp Undecodable.append (Or.imp Refused.append ?_)
  rintro ⟨look, mem, rest⟩
  exact ⟨look, List.mem_append_left _ mem, rest⟩

theorem Excused.behind (excused : Excused codec config later) :
    Excused codec config (trace ++ later) := by
  refine excused.imp Undecodable.behind (Or.imp Refused.behind ?_)
  rintro ⟨look, mem, rest⟩
  exact ⟨look, List.mem_append_right _ mem, rest⟩

theorem readTraceLogPath_ne (sessionId other : Name) :
    readTraceLogPath sessionId ≠ stateFilePath other := by
  intro same
  have ends := congrArg List.getLast? same
  rw [getLast?_readTraceLogPath, getLast?_stateFilePath] at ends
  cases ends

end Excuses

section Launch

variable {α : Type}

theorem reported_validatePath (policy : Policy S) (path : Option Name) :
    Ensures perform (fun _ => True) (validatePath policy path) fun _ outcome =>
      (∀ failure, outcome = .error failure → Reported failure) ∧
        ∀ image, outcome = .ok image → path = some image := by
  have fails (exn : IkvmError) : (∀ failure, (.error (.raised (.ikvm exn)) :
      Except (Failure S) Name) = .error failure → Reported failure) ∧
      ∀ image, (.error (.raised (.ikvm exn)) : Except (Failure S) Name) = .ok image →
        path = some image := by
    refine ⟨?_, fun _ same => (by cases same)⟩
    intro failure same
    cases same
    trivial
  rcases path with _ | _ | ⟨c, rest⟩
  · exact fails _
  · exact fails _
  · intro world _
    dsimp only [perform]
    cases world.openPath (c :: rest) with
    | ok opened =>
        refine ⟨fun _ same => (by cases same), ?_⟩
        intro image same
        cases same
        rfl
    | error message => exact fails _

theorem reported_spawnSession (policy : Policy S) (codec : Codec S) (config : SessionConfig) :
    Ensures perform (fun _ => True) (spawnSession policy codec config) fun _ outcome =>
      ∀ failure, outcome = .error failure → Reported failure := by
  intro world _
  dsimp only [perform]
  cases world.forkAnswer with
  | unsupported =>
      intro failure same
      cases same
      trivial
  | unreported =>
      intro failure same
      cases same
      trivial
  | reported pid process =>
      intro moved _ failure same
      cases same

/-- A wait ends with a look at the record. -/
structure Watches (codec : Codec S) (sessionId : Name) (trace : List (Moment Call World))
    (outcome : Except (Failure S) (Option (StateRecord S))) : Prop where
  last : ∀ observed, outcome = .ok observed → ∃ before look, trace = before ++ [look] ∧
    look.request = .readFile (stateFilePath sessionId) ∧
      readOutcome (loaded codec look.world sessionId) = .ok observed
  fails : ∀ failure, outcome = .error failure → Undecodable codec trace

theorem watches_readState (codec : Codec S) (sessionId : Name) :
    Ensures perform (fun _ => True) (readState codec sessionId) (Watches codec sessionId) := by
  refine ensures_readState codec sessionId fun world _ => ⟨?_, ?_⟩
  · intro observed same
    exact ⟨[], _, rfl, rfl, same⟩
  · intro failure same
    exact ⟨_, List.mem_singleton_self _, sessionId, rfl, undecodable_of_readOutcome same⟩

theorem watches_waitForState (codec : Codec S) (sessionId : Name)
    (isDone : StateRecord S → Bool) (polls : ℕ) :
    Ensures perform (fun _ => True) (waitForState codec sessionId isDone polls)
      (Watches codec sessionId) := by
  induction polls with
  | zero => exact watches_readState codec sessionId
  | succ polls ih =>
      refine (watches_readState codec sessionId).bind ?_ ?_
      · intro trace failure failed
        exact ⟨fun _ same => (by cases same), fun other _ => failed.fails failure rfl⟩
      · intro before observed looked
        split
        · refine ⟨?_, fun _ same => (by cases same)⟩
          intro other same
          cases same
          rw [List.append_nil]
          exact looked.last observed rfl
        · refine ih.mono fun trace outcome watches => ⟨?_, ?_⟩
          · intro other same
            rcases watches.last other same with ⟨front, look, split, rest⟩
            exact ⟨before ++ front, look, by rw [split, List.append_assoc], rest⟩
          · exact fun failure failed => (watches.fails failure failed).behind

/-- A verdict lets a session through that has reported to be ready. -/
theorem ensures_confirm [DecidableEq S] (policy : Policy S) (codec : Codec S) (sessionId : Name)
    (observed : Option (StateRecord S)) :
    Ensures perform (fun _ => True) (confirm policy codec sessionId observed)
      fun trace outcome =>
        (∀ result, outcome = .ok result →
          trace = [] ∧ observed.bind StateRecord.state = some policy.ready) ∧
        ∀ failure, outcome = .error failure → Reported failure ∨ Undecodable codec trace ∨
          Refused trace ∨ Unusable ((observed.map StateRecord.pid).getD .null) := by
  have reports {trace : List (Moment Call World)} (errorClass : Option ErrorClass)
      (named : Option Name) (seen : Option (StateRecord S)) (indeterminate : Bool) :
      (∀ result, (.error (.failJson errorClass named seen indeterminate) :
          Except (Failure S) Unit) = .ok result →
        trace = [] ∧ observed.bind StateRecord.state = some policy.ready) ∧
      ∀ failure, (.error (.failJson errorClass named seen indeterminate) :
          Except (Failure S) Unit) = .error failure → Reported failure ∨ Undecodable codec trace ∨
        Refused trace ∨ Unusable ((observed.map StateRecord.pid).getD .null) := by
    refine ⟨fun _ same => (by cases same), ?_⟩
    intro failure same
    cases same
    exact .inl trivial
  unfold confirm
  split
  · exact reports _ _ _ _
  · split
    · refine (signalling_isPidAlive _).bind ?_ ?_
      · intro trace failure failed
        refine ⟨fun _ same => (by cases same), ?_⟩
        intro other same
        rcases failed.fails failure rfl with unusable | refused
        · exact .inr (.inr (.inr unusable))
        · exact .inr (.inr (.inl refused))
      · intro probes isAlive probed
        split
        · split
          · exact reports _ _ _ _
          · exact reports _ _ _ _
        · refine (watches_readState codec sessionId).bind ?_ ?_
          · intro trace failure failed
            refine ⟨fun _ same => (by cases same), fun other _ => ?_⟩
            exact .inr (.inl (failed.fails failure rfl).behind)
          · intro before final looked
            refine (ensures_readTrace policy.kind sessionId).bind
              (fun trace failure failed => by cases failed.1) ?_
            intro traced _ _
            exact reports _ _ _ _
    · next isReady =>
        refine ⟨fun _ _ => ⟨rfl, not_not.mp isReady⟩, fun _ same => (by cases same)⟩

/-- A launch that succeeds has seen the record of a session that is ready. -/
structure Launched (policy : Policy S) (codec : Codec S) (config : SessionConfig)
    (trace : List (Moment Call World))
    (outcome : Except (Failure S) (Option (StateRecord S))) : Prop where
  ready : ∀ observed, outcome = .ok observed → ∃ look after record, observed = some record ∧
    LastLook codec config.sessionId trace look after record ∧ record.state = some policy.ready
  fails : ∀ failure, outcome = .error failure → Reported failure ∨ Excused codec config trace

theorem launched_launch [DecidableEq S] (policy : Policy S) (codec : Codec S)
    (config : SessionConfig) (startPolls : ℕ) :
    Ensures perform (fun _ => True) (launch policy codec config startPolls)
      (Launched policy codec config) := by
  refine (reported_spawnSession policy codec config).bind ?_ ?_
  · intro trace failure failed
    exact ⟨fun _ same => (by cases same), fun other same =>
      .inl (failed other (by cases same; rfl))⟩
  intro spawns _ _
  refine (watches_waitForState codec config.sessionId _ startPolls).bind ?_ ?_
  · intro trace failure failed
    have undecodable : Undecodable codec (spawns ++ trace) := (failed.fails failure rfl).behind
    exact ⟨fun _ same => (by cases same), fun other same => .inr (.inl undecodable)⟩
  intro waits observed watched
  rcases watched.last observed rfl with ⟨before, look, split, reads, finds⟩
  refine (ensures_readTrace policy.kind config.sessionId).bind
    (fun trace failure failed => by cases failed.1) ?_
  rintro traced _ ⟨-, traceReads⟩
  refine (ensures_confirm policy codec config.sessionId observed).bind ?_ ?_
  · rintro trace failure ⟨-, failed⟩
    refine ⟨fun _ same => (by cases same), ?_⟩
    intro other same
    cases same
    have excused : Reported failure ∨ Excused codec config (waits ++ (traced ++ trace)) := by
      rcases failed failure rfl with reported | undecodable | refused | unusable
      · exact .inl reported
      · exact .inr (.inl (undecodable.behind.behind))
      · exact .inr (.inr (.inl (refused.behind.behind)))
      · cases observed with
        | none =>
            rcases unusable with other | ⟨number, isPid, -⟩
            · cases other
            · cases isPid
        | some record =>
            refine .inr (.inr (.inr ⟨look, ?_, config.sessionId, record,
              ⟨reads, loaded_of_readOutcome finds⟩, .inl rfl, unusable⟩))
            rw [split]
            simp
    exact excused.imp_right Excused.behind
  · rintro verdict _ ⟨confirmed, -⟩
    rcases confirmed _ rfl with ⟨rfl, isReady⟩
    refine ⟨?_, fun _ same => (by cases same)⟩
    intro given same
    cases same
    cases observed with
    | none => cases isReady
    | some record =>
        refine ⟨look, traced, record, rfl, ⟨⟨reads, loaded_of_readOutcome finds⟩,
          ⟨spawns ++ before, ?_⟩, ?_⟩, isReady⟩
        · rw [split]
          simp
        · intro moment mem same
          rw [traceReads moment mem] at same
          exact readTraceLogPath_ne _ _ (Call.readFile.inj same)

end Launch

/-- An attach that has begun a session succeeds with a last look at a record that is ready. -/
structure Settles (policy : Policy S) (codec : Codec S) (config : SessionConfig)
    (trace : List (Moment Call World)) (outcome : Except (Failure S) (Result S)) : Prop where
  ready : ∀ result, outcome = .ok result → result.sessionId = config.sessionId ∧
    ∃ look after record, LastLook codec config.sessionId trace look after record ∧
      record.state = some policy.ready
  fails : ∀ failure, outcome = .error failure → Reported failure ∨ Excused codec config trace

section Fresh

theorem LastLook.behind {codec : Codec S} {sessionId : Name} {look : Moment Call World}
    {trace before after : List (Moment Call World)} {record : StateRecord S}
    (last : LastLook codec sessionId trace look after record) :
    LastLook codec sessionId (before ++ trace) look after record := by
  rcases last with ⟨isLook, ⟨front, split⟩, quiet⟩
  exact ⟨isLook, ⟨before ++ front, by rw [split, List.append_assoc]⟩, quiet⟩

theorem Settles.behind {policy : Policy S} {codec : Codec S} {config : SessionConfig}
    {trace before : List (Moment Call World)} {outcome : Except (Failure S) (Result S)}
    (settles : Settles policy codec config trace outcome) :
    Settles policy codec config (before ++ trace) outcome where
  ready := by
    intro result same
    rcases settles.ready result same with ⟨named, look, after, record, last, ready⟩
    exact ⟨named, look, after, record, last.behind, ready⟩
  fails := fun failure failed => (settles.fails failure failed).imp_right Excused.behind

variable [DecidableEq S]

theorem settles_attachFresh (policy : Policy S) (codec : Codec S) {params : Params}
    (live : params.checkMode = false) (existing : Option (StateRecord S)) {image : Name}
    (isPath : params.path = some image) :
    Ensures perform (fun _ => True) (attachFresh policy codec params existing image)
      (Settles policy codec params.config) := by
  have same : params.config =
      { sessionId := params.chosenId, endpoint := some params.endpoint, image := some image } := by
    rw [Params.config, isPath]
  simp only [attachFresh, live, Bool.false_eq_true, if_false, ← same]
  refine (tidy_reclaim codec params.endpoint params.chosenId params.reclaimPolls).bind ?_ ?_
  · intro trace failure failed
    refine ⟨fun _ same => (by cases same), fun other _ => .inr ?_⟩
    rcases failed.fails failure rfl with undecodable | refused | ⟨look, mem, sessionId, record,
      isLook, targets, unusable⟩
    · exact .inl undecodable
    · exact .inr (.inl refused)
    · exact .inr (.inr ⟨look, mem, sessionId, record, isLook, .inr targets.2, unusable⟩)
  · intro before reclaimed _
    refine (launched_launch policy codec params.config params.startPolls).bind ?_ ?_
    · intro trace failure failed
      refine ⟨fun _ same => (by cases same), fun other same => ?_⟩
      cases same
      exact (failed.fails failure rfl).imp_right Excused.behind
    · intro trace observed launched
      refine ⟨?_, fun _ same => (by cases same)⟩
      intro result isResult
      cases isResult
      rcases launched.ready observed rfl with ⟨look, after, record, -, last, ready⟩
      rw [List.append_nil]
      exact ⟨rfl, look, after, record, last.behind, ready⟩

theorem settles_fresh (policy : Policy S) (codec : Codec S) {params : Params}
    (live : params.checkMode = false) (existing : Option (StateRecord S)) :
    Ensures perform (fun _ => True)
      (do
        let image ← validatePath policy params.path
        attachFresh policy codec params existing image)
      (Settles policy codec params.config) := by
  refine (reported_validatePath policy params.path).bind ?_ ?_
  · intro trace failure failed
    exact ⟨fun _ same => (by cases same), fun other same =>
      .inl (failed.1 other (by cases same; rfl))⟩
  · intro before image validated
    exact (settles_attachFresh policy codec live existing (validated.2 image rfl)).mono
      fun trace outcome settles => settles.behind

end Fresh

/-- A record of the session that says it is ready tells the truth: it is the session that was
asked for, and its process lives. -/
def Truthful (policy : Policy S) (codec : Codec S) (config : SessionConfig) (world : World) :
    Prop :=
  ∀ record, loaded codec world config.sessionId = .record record →
    record.state = some policy.ready →
      record.endpoint = config.endpoint ∧ record.image = config.image ∧
        alive (S := S) world record.pid = .ok true

/-- The calls of an attach: it writes no record but the first one of its own daemon. -/
def Begun (policy : Policy S) (codec : Codec S) (config : SessionConfig) : Call → Prop
  | .createFile file content => ∃ pid, file = stateFilePath config.sessionId ∧
      content = codec.dumps (initialState policy config pid)
  | _ => True

section Truthful

variable {policy : Policy S} {codec : Codec S} {config : SessionConfig} {world : World}

theorem truthful_of_noRecord (absent : loaded codec world config.sessionId = .noRecord) :
    Truthful policy codec config world := by
  intro record found
  rw [absent] at found
  cases found

theorem alive_forked {pid : PidField} (isAlive : alive (S := S) world pid = .ok true) :
    alive (S := S) world.forked pid = .ok true := by
  unfold World.forked
  split
  · next number process _ =>
      cases pid with
      | null => cases isAlive
      | other => cases isAlive
      | int pid =>
          simp only [alive] at isAlive ⊢
          by_cases positive : pid ≤ 0
          · rw [if_pos positive] at isAlive
            cases isAlive
          · rw [if_neg positive] at isAlive ⊢
            unfold World.kill at isAlive ⊢
            by_cases beyond : pidLimit ≤ pid
            · rw [if_pos beyond] at isAlive
              cases isAlive
            · rw [if_neg beyond] at isAlive ⊢
              dsimp only
              by_cases same : pid = number
              · subst same
                rw [Function.update_self]
                dsimp only
                split <;> rfl
              · rw [Function.update_of_ne same]
                exact isAlive
  · exact isAlive

/-- No call of an attach makes a record lie. -/
theorem Truthful.perform
    (lawful : ∀ record back, codec.loads (codec.dumps record) = .record back → back = record)
    (different : policy.starting ≠ policy.ready) (request : Call)
    (begun : Begun policy codec config request) (truthful : Truthful policy codec config world) :
    Truthful policy codec config (Runtime.perform request world).2 := by
  cases request with
  | listSessionIds => exact truthful
  | readFile file => exact truthful
  | unlink file =>
      by_cases same : stateFilePath config.sessionId = file
      · refine truthful_of_noRecord ?_
        subst same
        change load codec ((world.files.pop (stateFilePath config.sessionId)).get?
          (stateFilePath config.sessionId)) = .noRecord
        rw [OrderedDict.get?_pop_self]
        rfl
      · intro record found
        have kept : loaded codec world config.sessionId = .record record := by
          rw [← found]
          exact congrArg (load codec) (OrderedDict.get?_pop_of_ne same).symm
        exact truthful record kept
  | createFile file content =>
      rcases begun with ⟨pid, rfl, rfl⟩
      change Truthful policy codec config (world.create _ _)
      unfold World.create
      split
      · intro record found ready
        have written : (world.files.setLast (stateFilePath config.sessionId)
            (codec.dumps (initialState policy config pid))).get?
              (stateFilePath config.sessionId) =
            some (codec.dumps (initialState policy config pid)) :=
          OrderedDict.get?_eq_some_iff.mpr (OrderedDict.mem_setLast.mpr (.inr ⟨rfl, rfl⟩))
        unfold loaded at found
        rw [written] at found
        have first := lawful (initialState policy config pid) record found
        subst first
        exact absurd (Option.some.inj ready) different
      · exact truthful
  | kill pid signal => exact truthful
  | fork =>
      intro record found ready
      change loaded codec world.forked config.sessionId = .record record at found
      have kept : loaded codec world config.sessionId = .record record := by
        rw [← found]
        unfold World.forked
        split <;> rfl
      rcases truthful record kept ready with ⟨endpoint, image, isAlive⟩
      exact ⟨endpoint, image, alive_forked isAlive⟩
  | openPath path => exact truthful

theorem begun_of_spawnless (call : Call) (spawnless : Spawnless call) :
    Begun policy codec config call := by
  cases call with
  | createFile file content => exact spawnless.elim
  | _ => trivial

theorem only_waitForState (codec : Codec S) (sessionId : Name) (isDone : StateRecord S → Bool)
    (polls : ℕ) : (waitForState codec sessionId isDone polls).Only Idle := by
  induction polls with
  | zero => exact only_readState codec sessionId
  | succ polls ih =>
      refine (only_readState codec sessionId).bind fun observed => ?_
      split
      · trivial
      · exact ih

variable [DecidableEq S]

theorem only_confirm (policy : Policy S) (codec : Codec S) (sessionId : Name)
    (observed : Option (StateRecord S)) :
    (confirm policy codec sessionId observed).Only Idle := by
  unfold confirm
  split
  · trivial
  · split
    · refine (only_isPidAlive _).bind fun isAlive => ?_
      split
      · split <;> trivial
      · exact (only_readState codec sessionId).bind fun final =>
          (only_readTrace policy.kind sessionId).bind fun _ => trivial
    · trivial

theorem begun_launch (policy : Policy S) (codec : Codec S) (config : SessionConfig)
    (startPolls : ℕ) :
    (launch policy codec config startPolls).Only (Begun policy codec config) := by
  have idle {α : Type} {prog : Script S α} (only : prog.Only Idle) :
      prog.Only (Begun policy codec config) :=
    (only.mono spawnless_of_idle).mono begun_of_spawnless
  have spawns : (spawnSession policy codec config).Only (Begun policy codec config) := by
    refine Prog.Only.bind ⟨trivial, fun _ => trivial⟩ fun answer => ?_
    cases answer with
    | unsupported => trivial
    | unreported => trivial
    | reported pid process => exact ⟨⟨pid, rfl, rfl⟩, fun _ => trivial⟩
  exact spawns.bind fun _ => (idle (only_waitForState codec _ _ startPolls)).bind fun observed =>
    (idle (only_readTrace policy.kind config.sessionId)).bind fun _ =>
      (idle (only_confirm policy codec config.sessionId observed)).bind fun _ => trivial

theorem begun_attachFresh (policy : Policy S) (codec : Codec S) {params : Params}
    (live : params.checkMode = false) (existing : Option (StateRecord S)) {image : Name}
    (isPath : params.path = some image) :
    (attachFresh policy codec params existing image).Only (Begun policy codec params.config) := by
  have same : params.config =
      { sessionId := params.chosenId, endpoint := some params.endpoint, image := some image } := by
    rw [Params.config, isPath]
  simp only [attachFresh, live, Bool.false_eq_true, if_false, ← same]
  have found := (only_findConflictingSessions codec params.endpoint params.chosenId).mono
    spawnless_of_idle
  have reclaims : (reclaimConflictingSessions codec params.endpoint params.chosenId
      params.reclaimPolls).Only Spawnless :=
    found.bind fun conflicts => spawnless_reclaimAll params.reclaimPolls conflicts
  exact (reclaims.mono begun_of_spawnless).bind fun _ =>
    (begun_launch policy codec params.config params.startPolls).bind fun _ => trivial

theorem begun_fresh (policy : Policy S) (codec : Codec S) {params : Params}
    (live : params.checkMode = false) (existing : Option (StateRecord S)) :
    (do
      let image ← validatePath policy params.path
      attachFresh policy codec params existing image).Only (Begun policy codec params.config) := by
  have isFresh : params.path = some (params.path.getD []) →
      (attachFresh policy codec params existing (params.path.getD [])).Only
        (Begun policy codec params.config) := begun_attachFresh policy codec live existing
  rcases isPath : params.path with _ | _ | ⟨c, rest⟩
  · trivial
  · trivial
  · rw [isPath] at isFresh
    refine ⟨trivial, fun answer => ?_⟩
    cases answer with
    | error message => trivial
    | ok opened => exact isFresh rfl

end Truthful

section Shape

variable {others : World → World → Prop} {world final : World} {trace : List (Moment Call World)}

/-- A probe, or no call at all. -/
theorem runs_isPidAlive {pid : PidField} {outcome : Except (Failure S) Bool}
    (run : Runs perform others (isPidAlive pid : Script S Bool) world trace outcome final) :
    (trace = [] ∧ final = world ∧ ∀ moved, alive moved pid = outcome ∧ outcome ≠ .ok true) ∨
      ∃ request, trace = [⟨request, final⟩] ∧ outcome = alive final pid ∧
        ∀ file, request ≠ .readFile file := by
  cases pid with
  | null =>
      cases run
      exact .inl ⟨rfl, rfl, fun _ => ⟨rfl, by simp⟩⟩
  | other =>
      cases run
      exact .inl ⟨rfl, rfl, fun _ => ⟨rfl, by simp⟩⟩
  | int pid =>
      by_cases positive : pid ≤ 0
      · rw [isPidAlive_of_nonpos positive] at run
        cases run
        refine .inl ⟨rfl, rfl, fun moved => ⟨?_, by simp⟩⟩
        rw [alive, if_pos positive]
      · rw [isPidAlive_of_pos positive] at run
        rcases run.of_call_ofExcept with ⟨moved, move, rfl, isOutcome, rfl⟩
        refine .inr ⟨_, rfl, ?_, by simp⟩
        rw [alive, if_neg positive, isOutcome]
        rfl

/-- A removal leaves no record that lies. -/
theorem runs_removeRecord {policy : Policy S} {codec : Codec S} {config : SessionConfig}
    {kind : DaemonKind} {outcome : Except (Failure S) Unit}
    (lawful : ∀ record back, codec.loads (codec.dumps record) = .record back → back = record)
    (different : policy.starting ≠ policy.ready)
    (rely : ∀ world moved, others world moved → Truthful policy codec config world →
      Truthful policy codec config moved)
    (run : Runs perform others (removeRecord kind config.sessionId : Script S Unit) world trace
      outcome final) :
    (∃ result, outcome = .ok result) ∧ Truthful policy codec config final := by
  cases run with
  | call move rest =>
      rename_i moved later
      refine ⟨?_, ?_⟩
      · cases rest with
        | call _ rest =>
            cases rest with
            | call _ rest =>
                cases rest
                exact ⟨(), rfl⟩
      · have removed : Truthful policy codec config
            (perform (.unlink (stateFilePath config.sessionId)) moved).2 := by
          refine truthful_of_noRecord ?_
          change load codec ((moved.files.pop (stateFilePath config.sessionId)).get?
            (stateFilePath config.sessionId)) = .noRecord
          rw [OrderedDict.get?_pop_self]
          rfl
        have only : (unlinkAll [logFilePath config.sessionId,
            requestLogPath kind config.sessionId] : Script S Unit).Only
              (Begun policy codec config) :=
          ⟨trivial, fun _ => ⟨trivial, fun _ => trivial⟩⟩
        exact (Runs.invariant only rely (fun request _ begun truthful =>
          Truthful.perform lawful different request begun truthful) removed rest).2

theorem unusable_of_alive {pid : PidField} {failure : Failure S}
    (fails : alive world pid = .error failure) : Unusable pid := by
  cases pid with
  | null => cases fails
  | other => exact .inl rfl
  | int pid =>
      rw [alive] at fails
      split at fails
      · cases fails
      · cases answer : world.kill pid with
        | overflowError => exact unusable_of_overflow answer
        | _ =>
            rw [answer] at fails
            cases fails

variable [DecidableEq S]

/-- The process of the record lives, and its state is not terminal. -/
def Live (policy : Policy S) (world : World) (record : StateRecord S) : Prop :=
  alive (S := S) world record.pid = .ok true ∧ policy.isTerminal record.state = false

/-- A session is reusable when the probe finds it live; when it is not, the next call is made in
a world where it is not live. -/
theorem runs_isReusable {policy : Policy S} {record : StateRecord S}
    {outcome : Except (Failure S) Bool}
    (run : Runs perform others (isReusable policy (some record)) world trace outcome final) :
    (∀ failure, outcome = .error failure → Unusable record.pid) ∧
      (outcome = .ok true → ∃ request, trace = [⟨request, final⟩] ∧
        (∀ file, request ≠ .readFile file) ∧ Live policy final record) ∧
      (outcome ≠ .ok true → ∀ later moment rest, trace ++ later = moment :: rest →
        ¬ Live policy moment.world record) := by
  have split : Runs perform others (isPidAlive record.pid >>= fun isAlive =>
      (pure (isAlive && !policy.isTerminal record.state) : Script S Bool)) world trace outcome
      final := run
  rcases split.of_bind with ⟨failure, rfl, probe⟩ | ⟨isAlive, reached, before, later, rfl, probe,
    ends⟩
  · rcases runs_isPidAlive probe with ⟨rfl, rfl, settled⟩ | ⟨request, rfl, isOutcome, _⟩
    · refine ⟨fun other _ => unusable_of_alive (settled final).1, fun same => (by cases same), ?_⟩
      intro _ _ moment rest _ live
      rw [Live, (settled moment.world).1] at live
      cases live.1
    · refine ⟨fun other _ => unusable_of_alive isOutcome.symm, fun same => (by cases same), ?_⟩
      intro _ later moment rest same live
      cases same
      rw [Live, ← isOutcome] at live
      cases live.1
  · cases ends
    rw [List.append_nil]
    refine ⟨fun other same => (by cases same), ?_, ?_⟩
    · intro same
      rw [Except.ok.injEq, Bool.and_eq_true, Bool.not_eq_true'] at same
      rcases runs_isPidAlive probe with ⟨rfl, rfl, settled⟩ | ⟨request, rfl, isOutcome, noRead⟩
      · rw [same.1] at settled
        exact absurd rfl (settled final).2
      · rw [same.1] at isOutcome
        exact ⟨request, rfl, noRead, isOutcome.symm, same.2⟩
    · intro differs later moment rest isTrace live
      rcases runs_isPidAlive probe with ⟨rfl, rfl, settled⟩ | ⟨request, rfl, isOutcome, _⟩
      · have isTrue := (settled moment.world).1.symm.trans live.1
        exact (settled moment.world).2 isTrue
      · cases isTrace
        rw [live.1] at isOutcome
        cases isOutcome
        rw [live.2] at differs
        exact differs rfl

/-- The call finds its session live. -/
def FindsLive (policy : Policy S) (codec : Codec S) (sessionId : Name)
    (trace : List (Moment Call World)) (record : StateRecord S) : Prop :=
  ∃ look probe rest, trace = look :: probe :: rest ∧ Look codec look sessionId record ∧
    Live policy probe.world record

/-- The session was answered with as it was found: one look at its record, and one probe. -/
structure Reused (policy : Policy S) (codec : Codec S) (sessionId : Name)
    (look probe : Moment Call World) (traced : List (Moment Call World)) (record : StateRecord S) :
    Prop where
  isLook : Look codec look sessionId record
  live : Live policy probe.world record
  quiet : ∀ moment ∈ probe :: traced, moment.request ≠ .readFile (stateFilePath sessionId)

/-- A success says that the session is attached as it was asked for; exceptions that are not
reported have their excuse. -/
structure Sound (policy : Policy S) (codec : Codec S) (config : SessionConfig)
    (trace : List (Moment Call World)) (outcome : Except (Failure S) (Result S)) : Prop where
  success : ∀ result, outcome = .ok result → result.sessionId = config.sessionId ∧
    ∃ look after record, LastLook codec config.sessionId trace look after record ∧
      Matches policy config record ∧
        ∃ moment ∈ look :: after, alive (S := S) moment.world record.pid = .ok true
  fails : ∀ failure, outcome = .error failure → Reported failure ∨ Excused codec config trace

omit [DecidableEq S] in
/-- What has settled on truthful records is sound. -/
theorem Settles.sound {policy : Policy S} {codec : Codec S} {config : SessionConfig}
    {before : List (Moment Call World)} {outcome : Except (Failure S) (Result S)}
    (settles : Settles policy codec config trace outcome)
    (truthful : ∀ moment ∈ trace, Truthful policy codec config moment.world) :
    Sound policy codec config (before ++ trace) outcome where
  success := by
    intro result same
    rcases settles.ready result same with ⟨named, look, after, record, last, ready⟩
    have lookMem : look ∈ trace := by
      rcases last.2.1 with ⟨front, rfl⟩
      simp
    rcases truthful look lookMem record last.1.finds ready with ⟨endpoint, image, isAlive⟩
    exact ⟨named, look, after, record, last.behind, ⟨ready, endpoint, image⟩, look,
      List.mem_cons_self, isAlive⟩
  fails := settles.behind.fails

variable {policy : Policy S} {codec : Codec S}
  (lawful : ∀ record back, codec.loads (codec.dumps record) = .record back → back = record)
  (different : policy.starting ≠ policy.ready)

include lawful different in
/-- A session begun in a world where no record lies. -/
theorem sound_fresh {params : Params} {existing : Option (StateRecord S)}
    {before : List (Moment Call World)} {outcome : Except (Failure S) (Result S)}
    (live : params.checkMode = false)
    (rely : ∀ world moved, others world moved → Truthful policy codec params.config world →
      Truthful policy codec params.config moved)
    (start : Truthful policy codec params.config world)
    (run : Runs perform others (do
        let image ← validatePath policy params.path
        attachFresh policy codec params existing image) world trace outcome final) :
    Sound policy codec params.config (before ++ trace) outcome := by
  have truthful := (Runs.invariant (begun_fresh policy codec live existing) rely
    (fun request _ begun truthful => Truthful.perform lawful different request begun truthful)
    start run).1
  exact (run.post (settles_fresh policy codec live existing) fun _ _ => trivial).sound truthful

omit [DecidableEq S] in
theorem ensures_reused (policy : Policy S) (sessionId : Name)
    (existing : Option (StateRecord S)) :
    Ensures perform (fun _ => True) (reused policy sessionId existing) fun trace outcome =>
      (∀ moment ∈ trace, moment.request = .readFile (readTraceLogPath sessionId)) ∧
        ∃ result, outcome = .ok result ∧ result.sessionId = sessionId := by
  refine (ensures_readTrace policy.kind sessionId).bind (fun _ _ failed => by cases failed.1) ?_
  rintro before _ ⟨-, reads⟩
  refine ⟨?_, _, rfl, rfl⟩
  rw [List.append_nil]
  exact reads

include lawful different in
/-- Either the session was found live and was answered with, or it was not and the call is
sound. -/
theorem reused_or_sound {params : Params} {outcome : Except (Failure S) (Result S)}
    (live : params.checkMode = false)
    (rely : ∀ world moved, others world moved → Truthful policy codec params.config world →
      Truthful policy codec params.config moved)
    (run : Runs perform others (attach policy codec params) world trace outcome final) :
    (∃ look probe traced record, trace = look :: probe :: traced ∧
        Reused policy codec params.chosenId look probe traced record ∧
          ∃ result, outcome = .ok result ∧ result.sessionId = params.chosenId) ∨
      (∀ record, ¬ FindsLive policy codec params.chosenId trace record) ∧
        Sound policy codec params.config trace outcome := by
  unfold attach beginSession at run
  rcases run.of_bind with ⟨failure, rfl, first⟩ | ⟨existing, reached, before, later, rfl, first,
    second⟩
  · rcases runs_readState first with ⟨-, rfl, isOutcome⟩
    have found := undecodable_of_readOutcome isOutcome.symm
    refine .inr ⟨?_, fun _ same => (by cases same), fun other _ => .inr (.inl ?_)⟩
    · rintro record ⟨look, probe, rest, same, -⟩
      cases same
    · exact ⟨_, List.mem_singleton_self _, _, rfl, found⟩
  · rcases runs_readState first with ⟨-, rfl, isOutcome⟩
    cases existing with
    | none =>
        have absent := noRecord_of_readOutcome isOutcome.symm
        refine .inr ⟨?_, sound_fresh lawful different live rely (truthful_of_noRecord absent)
          second⟩
        rintro record ⟨look, probe, rest, same, isLook, -⟩
        cases same
        have finds := isLook.finds
        rw [absent] at finds
        cases finds
    | some record =>
        have found := loaded_of_readOutcome isOutcome.symm
        have onlyLook {trace : List (Moment Call World)}
            (notLive : ∀ later moment rest, trace ++ later = moment :: rest →
              ¬ Live policy moment.world record) (tail : List (Moment Call World))
            (other : StateRecord S) :
            ¬ FindsLive policy codec params.chosenId
              ([⟨.readFile (stateFilePath params.chosenId), reached⟩] ++
                (trace ++ tail)) other := by
          rintro ⟨look, probe, rest, same, isLook, isLive⟩
          rw [List.singleton_append, List.cons.injEq] at same
          rcases same with ⟨rfl, same⟩
          have finds := isLook.finds
          rw [found] at finds
          cases finds
          exact notLive tail probe rest same isLive
        rcases second.of_bind with ⟨failure, rfl, probed⟩ | ⟨isLive, probedIn, probes, rest, rfl,
          probed, third⟩
        · rcases runs_isReusable probed with ⟨unusable, -, notLive⟩
          have noHead := onlyLook (notLive (by simp)) []
          rw [List.append_nil] at noHead
          refine .inr ⟨noHead, fun _ same => (by cases same), fun other _ => .inr (.inr (.inr ?_))⟩
          exact ⟨_, List.mem_cons_self, params.chosenId, record, ⟨rfl, found⟩, .inl rfl,
            unusable failure rfl⟩
        · rcases runs_isReusable probed with ⟨-, isReusable, notLive⟩
          cases isLive with
          | true =>
              rcases isReusable rfl with ⟨request, rfl, noRead, isLive⟩
              rw [if_pos rfl] at third
              rcases third.post (ensures_reused policy params.chosenId _) fun _ _ => trivial
                with ⟨reads, result, rfl, named⟩
              refine .inl ⟨_, _, rest, record, rfl, ⟨⟨rfl, found⟩, isLive, ?_⟩, result, rfl, named⟩
              intro moment mem
              rcases List.mem_cons.mp mem with rfl | after
              · exact noRead _
              · rw [reads moment after]
                exact fun same => readTraceLogPath_ne _ _ (Call.readFile.inj same)
          | false =>
              rw [if_neg (by simp)] at third
              rcases third.of_bind with ⟨failure, -, removal⟩ | ⟨_, removedIn, removals, after, rfl,
                removal, fourth⟩
              · rcases runs_removeRecord lawful different rely removal with ⟨⟨_, same⟩, -⟩
                cases same
              · have truthful := (runs_removeRecord lawful different rely removal).2
                refine .inr ⟨onlyLook (notLive (by simp)) _, ?_⟩
                rw [← List.append_assoc, ← List.append_assoc]
                exact sound_fresh lawful different live rely truthful fourth

end Shape

/-- A success is a session that is attached, at the endpoint and with the image of the call, and
whose process was alive when its record was last looked at, or later; anything else is reported
with `fail_json`. -/
structure AttachedOrFails (policy : Policy S) (codec : Codec S) (config : SessionConfig)
    (trace : List (Moment Call World)) (outcome : Except (Failure S) (Result S)) : Prop where
  success : ∀ result, outcome = .ok result → result.sessionId = config.sessionId ∧
    ∃ look after record, LastLook codec config.sessionId trace look after record ∧
      Matches policy config record ∧
        ∃ moment ∈ look :: after, alive (S := S) moment.world record.pid = .ok true
  failure : ∀ failure, outcome = .error failure →
    ∃ errorClass sessionId observed indeterminate,
      failure = .failJson errorClass sessionId observed indeterminate

/-- A session that is found live is the one that was asked for. -/
def FoundReady [DecidableEq S] (policy : Policy S) (codec : Codec S) (config : SessionConfig)
    (trace : List (Moment Call World)) : Prop :=
  ∀ look probe rest record, trace = look :: probe :: rest →
    Look codec look config.sessionId record → Live policy probe.world record →
      Matches policy config record

section Attached

variable {others : World → World → Prop} {world final : World} {trace : List (Moment Call World)}

theorem reported_report {failure : Failure S} (reported : Reported failure) :
    ∃ errorClass sessionId observed indeterminate,
      report failure = .failJson errorClass sessionId observed indeterminate := by
  cases failure with
  | failJson errorClass sessionId observed indeterminate => exact ⟨_, _, _, _, rfl⟩
  | raised exn =>
      cases exn with
      | ikvm error => exact ⟨_, _, _, _, rfl⟩
      | _ => exact reported.elim
  | _ => exact reported.elim

variable {policy : Policy S} {codec : Codec S} {config : SessionConfig}

theorem attachedOrFails_of_sound {inner : Except (Failure S) (Result S)}
    (sound : Sound policy codec config trace inner)
    (unexcused : ¬ Excused codec config trace) :
    AttachedOrFails policy codec config trace (inner.mapError report) where
  success := by
    intro result same
    cases inner with
    | ok other => exact sound.success result same
    | error failure => cases same
  failure := by
    intro failure same
    cases inner with
    | ok other => cases same
    | error inside =>
        cases same
        exact reported_report ((sound.fails inside rfl).resolve_right unexcused)

theorem attachedOrFails_refused {failure : Failure S}
    (reported : Reported failure) :
    AttachedOrFails policy codec config [] (.error (report failure)) := by
  refine ⟨fun _ same => (by cases same), ?_⟩
  intro other same
  cases same
  exact reported_report reported

variable [DecidableEq S]

/-- A reuse keeps the promise exactly when the record matches. -/
theorem attachedOrFails_of_reused {look probe : Moment Call World}
    {traced : List (Moment Call World)} {record : StateRecord S} {result : Result S}
    (isReused : Reused policy codec config.sessionId look probe traced record)
    (named : result.sessionId = config.sessionId) :
    AttachedOrFails policy codec config (look :: probe :: traced) (.ok result) ↔
      FoundReady policy codec config (look :: probe :: traced) := by
  constructor
  · intro attached first second rest other same isLook _
    cases same
    rcases attached.success result rfl with ⟨-, last, after, seen, ⟨lastLook, ⟨before, split⟩, -⟩,
      matchesSeen, -⟩
    have lastMem : last ∈ look :: probe :: traced := by
      rw [split]
      simp
    have isFirst : last = look :=
      (List.mem_cons.mp lastMem).resolve_right fun mem => isReused.quiet last mem lastLook.reads
    subst isFirst
    have sameRecord := lastLook.finds.symm.trans isLook.finds
    cases sameRecord
    exact matchesSeen
  · intro foundReady
    have isMatch := foundReady look probe traced record rfl isReused.isLook isReused.live
    refine ⟨?_, fun _ same => (by cases same)⟩
    intro other same
    cases same
    exact ⟨named, look, probe :: traced, record, ⟨isReused.isLook, ⟨[], rfl⟩, isReused.quiet⟩,
      isMatch, probe, by simp, isReused.live.1⟩

theorem foundReady_nil : FoundReady policy codec config [] :=
  fun _ _ _ _ same => (by cases same)

end Attached

/-- On a host where what others do makes no record of the session lie, a call attaches the image
or fails, exactly when a session it finds live is already the one it asks for. -/
theorem attached_iff_foundReady (codec : Codec Media.SessionState) (params : Params)
    (live : params.checkMode = false)
    (lawful : ∀ record back, codec.loads (codec.dumps record) = .record back → back = record)
    {others : World → World → Prop}
    (rely : ∀ world moved, others world moved →
      Truthful mediaPolicy codec params.config world →
        Truthful mediaPolicy codec params.config moved)
    {world final : World} {trace : List (Moment Call World)}
    {outcome : Except (Failure Media.SessionState) (Result Media.SessionState)}
    (run : Runs perform others (main mediaPolicy codec .present params) world trace outcome final)
    (unexcused : ¬ Excused codec params.config trace) :
    AttachedOrFails mediaPolicy codec params.config trace outcome ↔
      FoundReady mediaPolicy codec params.config trace := by
  have refused {failure : Failure Media.SessionState} (reported : Reported failure) :
      AttachedOrFails mediaPolicy codec params.config [] (.error (report failure)) ↔
        FoundReady mediaPolicy codec params.config [] :=
    iff_of_true (attachedOrFails_refused reported) foundReady_nil
  unfold main at run
  split at run
  · cases run
    have reported : Reported (.failJson none none none false : Failure Media.SessionState) :=
      trivial
    exact refused reported
  · rcases run.of_mapFail with ⟨inner, rfl, inside⟩
    unfold dispatch at inside
    by_cases missing : params.path = none
    · simp only [if_pos missing] at inside
      cases inside
      exact refused trivial
    · simp only [if_neg missing] at inside
      by_cases transport : (params.useTls || params.allowInsecureTransport) = true
      · have passes : Asp.enforceTransportPolicy params.useTls
            params.allowInsecureTransport = .ok () := if_pos transport
        simp only [mediaPolicy, passes] at inside
        rcases reused_or_sound lawful starting_ne_ready.1 live rely inside with
          ⟨look, probe, traced, record, rfl, isReused, result, rfl, named⟩ | ⟨notLive, sound⟩
        · exact attachedOrFails_of_reused isReused named
        · refine iff_of_true (attachedOrFails_of_sound sound unexcused) ?_
          intro look probe rest record same isLook isLive
          exact absurd ⟨look, probe, rest, same, isLook, isLive⟩ (notLive record)
      · have fails : Asp.enforceTransportPolicy params.useTls params.allowInsecureTransport =
            .error (Asp.tlsValidationError _) := if_neg transport
        simp only [mediaPolicy, fails] at inside
        cases inside
        exact refused trivial

theorem soleCodec_lawful {known : StateRecord Media.SessionState} {text : Content}
    (nonempty : text ≠ []) (record back : StateRecord Media.SessionState)
    (loads : (soleCodec known text).loads ((soleCodec known text).dumps record) = .record back) :
    back = record := by
  simp only [soleCodec] at loads
  by_cases same : record = known
  · rw [if_pos same, if_pos rfl] at loads
    rw [same]
    exact (Loaded.record.inj loads).symm
  · rw [if_neg same, if_neg nonempty.symm] at loads
    cases loads

def attachParams : Params :=
  { sampleParams "run" with checkMode := false }

/-- An attach of the image that is attached already. -/
theorem attachedOrFails_attachedHost :
    AttachedOrFails mediaPolicy (soleCodec attachedRecord attachedText) attachParams.config
      (exec perform (main mediaPolicy (soleCodec attachedRecord attachedText) .present
        attachParams) attachedHost).1
      (exec perform (main mediaPolicy (soleCodec attachedRecord attachedText) .present
        attachParams) attachedHost).2.1 := by
  refine (attached_iff_foundReady _ attachParams rfl (soleCodec_lawful (by decide)) ?_
    (exec_runs fun world => Eq.refl world) ?_).mpr ?_
  · rintro world moved rfl truthful
    exact truthful
  · rintro (⟨moment, mem, sessionId, reads, undecodable⟩ | ⟨moment, mem, pid, process, kills, -⟩ |
      ⟨look, mem, sessionId, record, isLook, -, unusable⟩)
    · unfold loaded load soleCodec at undecodable
      split at undecodable
      · cases undecodable
      · dsimp only at undecodable
        split at undecodable <;> cases undecodable
    · have requests : (exec perform (main mediaPolicy (soleCodec attachedRecord attachedText)
          .present attachParams) attachedHost).1.map Moment.request =
            [.readFile (stateFilePath "run".toList), .kill 71 .probe,
              .readFile (readTraceLogPath "run".toList)] := by
        decide
      have requested := List.mem_map_of_mem (f := Moment.request) mem
      rw [requests, kills] at requested
      simp at requested
    · rw [loads_soleCodec isLook.finds] at unusable
      rcases unusable with other | ⟨number, isPid, beyond⟩
      · cases other
      · cases isPid
        exact absurd beyond (by decide)
  · intro look probe rest record _ isLook _
    rw [loads_soleCodec isLook.finds]
    exact ⟨rfl, rfl, rfl⟩

/-- The record of the daemon with pid 71 while it still connects, with another image. -/
def connectingRecord : StateRecord Media.SessionState :=
  { detachedRecord with state := some .connecting, image := some "/b.iso".toList }

def connectingText : Content :=
  asciiBytes "\x7b\"session_id\": \"run\", \"pid\": 71, \"state\": \"connecting\", " ++
    asciiBytes "\"endpoint\": \"bmc:5120\", \"image\": \"/b.iso\"\x7d"

/-- A host on which a daemon is about to attach another image. -/
def connectingHost : World :=
  { attachedHost with
    files := append (stateFilePath "run".toList) connectingText OrderedDict.empty }

/-- An attach is answered with the daemon that still connects, and with another image. -/
theorem not_attachedOrFails_connectingHost :
    ¬ AttachedOrFails mediaPolicy (soleCodec connectingRecord connectingText) attachParams.config
      (exec perform (main mediaPolicy (soleCodec connectingRecord connectingText) .present
        attachParams) connectingHost).1
      (exec perform (main mediaPolicy (soleCodec connectingRecord connectingText) .present
        attachParams) connectingHost).2.1 := by
  intro attached
  rcases attached.success _ rfl with ⟨-, look, after, record, ⟨isLook, -, -⟩, isMatch, -⟩
  have state := isMatch.state
  rw [loads_soleCodec isLook.finds] at state
  cases state

end Asmb8Ikvm.Modules

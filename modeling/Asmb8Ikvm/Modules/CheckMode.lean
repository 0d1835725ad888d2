import Asmb8Ikvm.Modules.Sessions

/-!
# Check mode

What a module does to the host when it is run in check mode. All it calls for is
idle, except for the removal of a stale record, which stands before the test of
the mode.
-/

namespace Asmb8Ikvm.Modules

open Interaction Asmb8Ikvm.Runtime

variable {S : Type}

/-- The calls that change no file, signal no process and start none. -/
def Idle : Call → Prop
  | .listSessionIds => True
  | .readFile _ => True
  | .unlink _ => False
  | .createFile _ _ => False
  | .kill _ signal => signal = .probe
  | .fork => False
  | .openPath _ => True

/-- A run has left the files as they were, and no process was signalled or started. -/
structure Effectless (world : World) {α : Type}
    (run : List (Moment Call World) × Except (Failure S) α × World) : Prop where
  files : run.2.2.files = world.files
  noSignal : ∀ moment ∈ run.1, ∀ pid, moment.request ≠ .kill pid .sigterm
  noProcess : ∀ moment ∈ run.1, moment.request ≠ .fork

/-- A record whose pid is free, or whose state is terminal. -/
def Stale [DecidableEq S] (policy : Policy S) (world : World) (record : StateRecord S) : Prop :=
  alive (S := S) world record.pid = .ok false ∨
    alive (S := S) world record.pid = .ok true ∧ policy.isTerminal record.state = true

/-- The module comes to look for a session that it is to begin. -/
def Begins (policy : Policy S) (wanted : Wanted) (params : Params) : Prop :=
  wanted = .present ∧ params.path ≠ none ∧ (policy.kind = .media →
    params.hasRequests = true ∧ (params.useTls || params.allowInsecureTransport) = true)

theorem Idle.keeps (call : Call) (world : World) (idle : Idle call) :
    (perform call world).2 = world := by
  cases call with
  | listSessionIds => rfl
  | readFile file => rfl
  | unlink file => exact idle.elim
  | createFile file content => exact idle.elim
  | kill pid signal => rfl
  | fork => exact idle.elim
  | openPath path => rfl

theorem effectless_of_only {α : Type} {prog : Script S α} (only : prog.Only Idle)
    (world : World) : Effectless world (exec perform prog world) where
  files := by
    rw [only.exec_world Idle.keeps]
  noSignal := by
    intro moment mem pid same
    have idle := only.moments moment mem
    rw [same] at idle
    cases idle
  noProcess := by
    intro moment mem same
    have idle := only.moments moment mem
    rw [same] at idle
    exact idle

section Idle

theorem only_readState (codec : Codec S) (sessionId : Name) :
    (readState codec sessionId).Only Idle := by
  rw [readState_eq]
  exact ⟨trivial, fun _ => Prog.only_ofExcept _⟩

theorem only_isPidAlive (pid : PidField) : (isPidAlive pid : Script S Bool).Only Idle := by
  cases pid with
  | null => trivial
  | other => trivial
  | int pid =>
      by_cases positive : pid ≤ 0
      · rw [isPidAlive_of_nonpos positive]
        trivial
      · rw [isPidAlive_of_pos positive]
        exact ⟨rfl, fun _ => Prog.only_ofExcept _⟩

theorem only_readTrace (kind : DaemonKind) (sessionId : Name) :
    (readTrace kind sessionId : Script S Unit).Only Idle := by
  cases kind with
  | media => exact ⟨trivial, fun _ => trivial⟩
  | httpOrigin => trivial

theorem only_findConflictsAmong (codec : Codec S) (endpoint excluded : Name)
    (sessionIds : List Name) :
    (findConflictsAmong codec endpoint excluded sessionIds).Only Idle := by
  induction sessionIds with
  | nil => trivial
  | cons sessionId sessionIds ih =>
      unfold findConflictsAmong
      split
      · exact ih
      · refine (only_readState codec sessionId).bind fun state => ih.bind fun others => ?_
        rcases state with _ | record
        · trivial
        · dsimp only
          split <;> trivial

theorem only_findConflictingSessions (codec : Codec S) (endpoint excluded : Name) :
    (findConflictingSessions codec endpoint excluded).Only Idle :=
  ⟨trivial, fun sessionIds => only_findConflictsAmong codec endpoint excluded sessionIds⟩

theorem only_validatePath (policy : Policy S) (path : Option Name) :
    (validatePath policy path).Only Idle := by
  rcases path with _ | _ | ⟨c, rest⟩
  · trivial
  · trivial
  · refine ⟨trivial, ?_⟩
    intro answer
    rcases answer with message | ⟨⟩ <;> trivial

theorem only_reused (policy : Policy S) (sessionId : Name) (existing : Option (StateRecord S)) :
    (reused policy sessionId existing).Only Idle :=
  (only_readTrace policy.kind sessionId).bind fun _ => trivial

variable [DecidableEq S]

theorem only_isReusable (policy : Policy S) (existing : Option (StateRecord S)) :
    (isReusable policy existing).Only Idle := by
  rcases existing with _ | record
  · trivial
  · exact (only_isPidAlive record.pid).bind fun _ => trivial

theorem only_attachFresh (policy : Policy S) (codec : Codec S) {params : Params}
    (checkMode : params.checkMode = true) (existing : Option (StateRecord S)) (image : Name) :
    (attachFresh policy codec params existing image).Only Idle := by
  simp only [attachFresh, checkMode, if_true]
  exact (only_findConflictingSessions codec _ _).bind fun _ => trivial

theorem only_attach (policy : Policy S) (codec : Codec S) {params : Params}
    (checkMode : params.checkMode = true) (existing : Option (StateRecord S)) :
    (do
      let image ← validatePath policy params.path
      attachFresh policy codec params existing image).Only Idle :=
  (only_validatePath policy params.path).bind fun image =>
    only_attachFresh policy codec checkMode existing image

theorem only_start (policy : Policy S) (codec : Codec S) {params : Params}
    (checkMode : params.checkMode = true) (existing : Option (StateRecord S)) :
    (do
      let _root ← validatePath policy params.path
      startFresh policy codec params existing).Only Idle := by
  refine (only_validatePath policy params.path).bind fun _ => ?_
  simp only [startFresh, checkMode, if_true]
  trivial

omit [DecidableEq S] in
theorem only_stop (policy : Policy S) (codec : Codec S) {params : Params}
    (checkMode : params.checkMode = true) (sessionId : Name) :
    (stop policy codec params sessionId).Only Idle := by
  refine (only_readState codec sessionId).bind fun existing => ?_
  rcases existing with _ | record
  · trivial
  · refine (only_isPidAlive record.pid).bind fun live => ?_
    simp only [checkMode, if_true]
    exact (only_readTrace policy.kind sessionId).bind fun _ => trivial

end Idle

section Begin

theorem effectless_bind_ok {α β : Type} {prog : Script S α} {rest : α → Script S β} {world : World}
    {result : α} (only : prog.Only Idle)
    (outcome : (exec perform prog world).2.1 = .ok result) :
    Effectless world (exec perform (prog >>= rest) world) ↔
      Effectless world (exec perform (rest result) world) := by
  have same : (exec perform prog world).2.2 = world := only.exec_world Idle.keeps
  have idle : ∀ moment ∈ (exec perform prog world).1, Idle moment.request := only.moments
  rw [exec_bind]
  rcases run : exec perform prog world with ⟨before, ended, reached⟩
  rw [run] at outcome same idle
  dsimp only at outcome same idle ⊢
  subst outcome same
  dsimp only
  constructor
  · intro effectless
    exact ⟨effectless.files,
      fun moment mem => effectless.noSignal moment (List.mem_append_right _ mem),
      fun moment mem => effectless.noProcess moment (List.mem_append_right _ mem)⟩
  · intro effectless
    refine ⟨effectless.files, ?_, ?_⟩
    · intro moment mem pid signals
      rcases List.mem_append.mp mem with earlier | later
      · have idleHere := idle moment earlier
        rw [signals] at idleHere
        cases idleHere
      · exact effectless.noSignal moment later pid signals
    · intro moment mem forks
      rcases List.mem_append.mp mem with earlier | later
      · have idleHere := idle moment earlier
        rw [forks] at idleHere
        exact idleHere
      · exact effectless.noProcess moment later forks

theorem effectless_bind_error {α β : Type} {prog : Script S α} {rest : α → Script S β}
    {world : World} {failure : Failure S} (only : prog.Only Idle)
    (outcome : (exec perform prog world).2.1 = .error failure) :
    Effectless world (exec perform (prog >>= rest) world) := by
  have alone := effectless_of_only only world
  rw [exec_bind]
  rcases run : exec perform prog world with ⟨before, ended, reached⟩
  rw [run] at outcome alone
  dsimp only at outcome
  subst outcome
  exact ⟨alone.files, alone.noSignal, alone.noProcess⟩

/-- What is removed before idle work stays removed. -/
theorem not_effectless_remove {α : Type} {rest : Script S α} {world : World} {sessionId : Name}
    {kind : DaemonKind} (only : rest.Only Idle)
    (present : world.files.get? (stateFilePath sessionId) ≠ none) :
    ¬ Effectless world (exec perform (removeRecord kind sessionId >>= fun _ => rest) world) := by
  intro effectless
  have removed : (removeState kind sessionId world.files).get? (stateFilePath sessionId) = none :=
    get?_removePaths_of_mem List.mem_cons_self
  have after : (exec perform rest
      { world with files := removeState kind sessionId world.files }).2.2 =
        { world with files := removeState kind sessionId world.files } :=
    only.exec_world Idle.keeps
  have files := effectless.files
  rw [exec_bind] at files
  have final : (exec perform rest
      { world with files := removeState kind sessionId world.files }).2.2.files = world.files :=
    files
  rw [after] at final
  rw [← final] at present
  exact present removed

variable [DecidableEq S]

theorem exec_isReusable (policy : Policy S) (record : StateRecord S) (world : World) :
    (exec perform (isReusable policy (some record)) world).2.1 =
      (alive world record.pid).map fun isAlive => isAlive && !policy.isTerminal record.state := by
  have probe := exec_isPidAlive (S := S) world record.pid
  have unfolded : isReusable policy (some record) = (do
      let isAlive ← isPidAlive record.pid
      pure (isAlive && !policy.isTerminal record.state)) := rfl
  rw [unfolded, exec_bind]
  rcases run : exec perform (isPidAlive record.pid : Script S Bool) world
    with ⟨before, ended, reached⟩
  rw [run] at probe
  cases probe
  cases alive (S := S) world record.pid <;> rfl

theorem effectless_found_iff (policy : Policy S) (record : StateRecord S) (sessionId : Name)
    {rest : Script S (Result S)} (idle : rest.Only Idle) {world : World}
    (present : world.files.get? (stateFilePath sessionId) ≠ none) :
    Effectless world (exec perform (do
        let reusable ← isReusable policy (some record)
        if reusable then reused policy sessionId (some record)
        else do
          recoverStale policy sessionId (some record)
          rest) world) ↔
      ¬ Stale policy world record := by
  have looked := exec_isReusable policy record world
  have only := only_isReusable policy (some record)
  unfold Stale
  cases probe : alive (S := S) world record.pid with
  | error failure =>
      rw [probe] at looked
      simpa using effectless_bind_error only looked
  | ok isAlive =>
      rw [probe] at looked
      rw [effectless_bind_ok only looked]
      by_cases keeps : (isAlive && !policy.isTerminal record.state) = true
      · rw [if_pos keeps]
        rw [Bool.and_eq_true, Bool.not_eq_true'] at keeps
        simpa [keeps.1, keeps.2] using effectless_of_only (only_reused policy sessionId _) world
      · rw [if_neg keeps]
        have removed : ¬ Effectless world (exec perform (do
            recoverStale policy sessionId (some record)
            rest) world) :=
          not_effectless_remove idle present
        cases isAlive with
        | false => simpa using removed
        | true =>
            rw [Bool.true_and, Bool.not_eq_true', Bool.not_eq_false] at keeps
            simpa [keeps] using removed

omit [DecidableEq S] in
theorem present_of_loaded {codec : Codec S} {world : World} {sessionId : Name}
    {record : StateRecord S} (found : loaded codec world sessionId = .record record) :
    world.files.get? (stateFilePath sessionId) ≠ none := by
  intro absent
  rw [loaded, absent] at found
  cases found

/-- A record that is found stale is removed; any other look at the session is idle. -/
theorem effectless_beginSession_iff (policy : Policy S) (codec : Codec S) (sessionId : Name)
    (fresh : Option (StateRecord S) → Script S (Result S))
    (idle : ∀ existing, (fresh existing).Only Idle) (world : World) :
    Effectless world (exec perform (beginSession policy codec sessionId fresh) world) ↔
      ¬ ∃ record, loaded codec world sessionId = .record record ∧ Stale policy world record := by
  have read := exec_readState codec world sessionId
  unfold beginSession
  cases found : loaded codec world sessionId with
  | undecodable =>
      have outcome := congrArg (fun run => run.2.1) read
      rw [found] at outcome
      have effectless : Effectless world (exec perform (do
          let existing ← readState codec sessionId
          let reusable ← isReusable policy existing
          if reusable then reused policy sessionId existing
          else do
            recoverStale policy sessionId existing
            fresh existing) world) :=
        effectless_bind_error (only_readState codec sessionId) outcome
      simpa using effectless
  | noRecord =>
      have outcome := congrArg (fun run => run.2.1) read
      rw [found] at outcome
      rw [effectless_bind_ok (only_readState codec sessionId) outcome]
      change Effectless world (exec perform (fresh none) world) ↔ _
      simpa using effectless_of_only (idle none) world
  | record record =>
      have outcome := congrArg (fun run => run.2.1) read
      rw [found] at outcome
      rw [effectless_bind_ok (only_readState codec sessionId) outcome,
        effectless_found_iff policy record sessionId (idle (some record)) (present_of_loaded found)]
      simp

end Begin

theorem only_refuse {α : Type} : (refuse : Script S α).Only Idle :=
  trivial

theorem effectless_mapFail {α : Type} {prog : Script S α} {world : World} :
    Effectless world (exec perform (prog.mapFail report) world) ↔
      Effectless world (exec perform prog world) := by
  rw [exec_mapFail]
  exact ⟨fun effectless => ⟨effectless.files, effectless.noSignal, effectless.noProcess⟩,
    fun effectless => ⟨effectless.files, effectless.noSignal, effectless.noProcess⟩⟩

/-- The session the call is about is there, and stale. -/
def FindsStale [DecidableEq S] (policy : Policy S) (codec : Codec S) (params : Params)
    (world : World) : Prop :=
  ∃ record, loaded codec world params.chosenId = .record record ∧ Stale policy world record

theorem effectless_attach_iff [DecidableEq S] (policy : Policy S) (codec : Codec S)
    {params : Params} (checkMode : params.checkMode = true) (world : World) :
    Effectless world (exec perform (attach policy codec params) world) ↔
      ¬ FindsStale policy codec params world :=
  effectless_beginSession_iff policy codec params.chosenId _
    (fun existing => only_attach policy codec checkMode existing) world

theorem effectless_start_iff [DecidableEq S] (policy : Policy S) (codec : Codec S)
    {params : Params} (checkMode : params.checkMode = true) (world : World) :
    Effectless world (exec perform (start policy codec params) world) ↔
      ¬ FindsStale policy codec params world :=
  effectless_beginSession_iff policy codec params.chosenId _
    (fun existing => only_start policy codec checkMode existing) world

theorem enforceTransportPolicy_refuses {useTls allowInsecureTransport : Bool}
    (refused : ¬ (useTls || allowInsecureTransport) = true) :
    ∃ exn, Asp.enforceTransportPolicy useTls allowInsecureTransport = .error exn :=
  ⟨_, if_neg refused⟩

/-- A run in check mode has no effect exactly when it is not one that is to begin a session and
finds a stale record under its id. -/
theorem checkMode_effectless_iff [DecidableEq S] (policy : Policy S) (codec : Codec S)
    (wanted : Wanted) (params : Params) (checkMode : params.checkMode = true) (world : World) :
    Effectless world (exec perform (main policy codec wanted params) world) ↔
      ¬ (Begins policy wanted params ∧ FindsStale policy codec params world) := by
  unfold main Begins
  by_cases refused : policy.kind = .media ∧ params.hasRequests = false
  · rw [if_pos refused]
    have effectless := effectless_of_only (only_refuse (S := S) (α := Result S)) world
    simpa [refused.1, refused.2] using effectless
  · rw [if_neg refused, effectless_mapFail]
    unfold dispatch
    cases wanted with
    | absent =>
        cases params.sessionId with
        | none => simpa using effectless_of_only (only_refuse (S := S) (α := Result S)) world
        | some sessionId =>
            simpa using effectless_of_only (only_stop policy codec checkMode sessionId) world
    | present =>
        by_cases missing : params.path = none
        · rw [if_pos missing]
          simpa [missing] using effectless_of_only (only_refuse (S := S) (α := Result S)) world
        · rw [if_neg missing]
          cases kind : policy.kind with
          | httpOrigin =>
              simpa [missing] using effectless_start_iff policy codec checkMode world
          | media =>
              rw [kind] at refused
              have has : params.hasRequests = true := by
                simpa using refused
              by_cases transport : (params.useTls || params.allowInsecureTransport) = true
              · have passes : Asp.enforceTransportPolicy params.useTls
                    params.allowInsecureTransport = .ok () := if_pos transport
                simp only [passes]
                simpa [missing, has, transport] using
                  effectless_attach_iff policy codec checkMode world
              · rcases enforceTransportPolicy_refuses transport with ⟨exn, fails⟩
                simp only [fails]
                have fails : (.fail (.raised exn) : Script S (Result S)).Only Idle := trivial
                simpa [transport] using effectless_of_only fails world

/-- The bytes of an ASCII text. -/
def asciiBytes (text : String) : Content :=
  text.toList.map fun c => c.toNat.toUInt8

/-- The record a media daemon with pid 71 has left behind when it was detached. -/
def detachedRecord : StateRecord Media.SessionState where
  sessionId := some "run".toList
  pid := .int 71
  state := some .detached
  endpoint := some "bmc:5120".toList
  image := some "/a.iso".toList

def detachedText : Content :=
  asciiBytes "\x7b\"session_id\": \"run\", \"pid\": 71, \"state\": \"detached\", " ++
    asciiBytes "\"endpoint\": \"bmc:5120\", \"image\": \"/a.iso\"\x7d"

/-- A codec that knows one record, with its text. -/
def soleCodec (known : StateRecord Media.SessionState) (text : Content) :
    Codec Media.SessionState where
  dumps := fun record => if record = known then text else []
  loads := fun content => if content = text then .record known else .noRecord

/-- A host on which the daemon has exited, with its record and its log. -/
def afterExit : World where
  files := append (logFilePath "run".toList) [0x2e]
    (append (stateFilePath "run".toList) detachedText OrderedDict.empty)
  processes := fun _ => none
  author := fun _ => 0
  openPath := fun _ => .ok ()
  forkAnswer := .unsupported

def sampleParams (sessionId : String) : Params where
  sessionId := some sessionId.toList
  path := some "/a.iso".toList
  endpoint := "bmc:5120".toList
  checkMode := true
  generatedSessionId := "new".toList
  startPolls := 0
  stopPolls := 0
  reclaimPolls := 0

/-- A check of an id no session has had. -/
theorem checkMode_effectless_new :
    Effectless afterExit
      (exec perform (main mediaPolicy (soleCodec detachedRecord detachedText) .present
        (sampleParams "new")) afterExit) :=
  (checkMode_effectless_iff mediaPolicy (soleCodec detachedRecord detachedText) .present
    (sampleParams "new") rfl afterExit).mpr (by
      rintro ⟨-, record, found, -⟩
      have absent : loaded (soleCodec detachedRecord detachedText) afterExit
          (sampleParams "new").chosenId = .noRecord := by
        decide
      rw [absent] at found
      cases found)

/-- A check of the id of the exited daemon removes its record and its log. -/
theorem checkMode_removes_stale :
    ¬ Effectless afterExit
      (exec perform (main mediaPolicy (soleCodec detachedRecord detachedText) .present
        (sampleParams "run")) afterExit) := by
  intro effectless
  have kept := congrArg (fun files => files.get? (logFilePath "run".toList)) effectless.files
  revert kept
  decide

end Asmb8Ikvm.Modules

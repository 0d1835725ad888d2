import Asmb8Ikvm.Asp.Tls
import Asmb8Ikvm.HttpOrigin.Persist
import Asmb8Ikvm.Media.Daemon
import Asmb8Ikvm.Runtime.Processes

/-!
# The session modules

`asmb8_media` and `asmb8_http_origin`, with `find_conflicting_sessions` and
`reclaim_conflicting_sessions` of `media_session.py`. The two modules differ in
the states of their daemons, in what they read besides the record, and in the
reclamation that only the media module has; what they share is written once, over
the policy of the daemon module.

A result has the record its status fields are read from; the texts of a
`fail_json` are left out, but for its class and whether it is indeterminate.
-/

namespace Asmb8Ikvm.Modules

open Interaction Asmb8Ikvm.Runtime

/-- What a daemon module decides: its states, of which the last two are terminal, and the texts
of its errors. -/
structure Policy (S : Type) where
  kind : DaemonKind
  starting : S
  ready : S
  stopped : S
  error : S
  beginOperation : String
  validateOperation : String
  spawnOperation : String
  missingPathMessage : String
  unsupportedMessage : String
  unreportedMessage : String

structure SessionConfig where
  sessionId : Name
  endpoint : Option Name
  image : Option Name
deriving DecidableEq

/-- The parameters of a call, and what it takes from its surroundings. `path` is the image of a
media session and the root of an origin. -/
structure Params where
  sessionId : Option Name
  path : Option Name
  endpoint : Name
  checkMode : Bool
  useTls : Bool := true
  allowInsecureTransport : Bool := false
  hasRequests : Bool := true
  generatedSessionId : Name
  startPolls : ℕ
  stopPolls : ℕ
  reclaimPolls : ℕ

/-- The results of the modules. -/
structure Result (S : Type) where
  changed : Bool
  sessionId : Name
  sessionState : Option S
  previous : Option (StateRecord S)
  observed : Option (StateRecord S)
  recoveredStaleSession : Bool := false
  reclaimedSessions : List (Option Name) := []
  exitedCleanly : Option Bool := none
deriving DecidableEq

variable {S : Type} [DecidableEq S]

/-- `state in TERMINAL_STATES`. -/
def Policy.isTerminal (policy : Policy S) (state : Option S) : Bool :=
  state = some policy.stopped || state = some policy.error

/-- `params.get("session_id") or generate_session_id()`. -/
def Params.chosenId (params : Params) : Name :=
  match params.sessionId with
  | none => params.generatedSessionId
  | some [] => params.generatedSessionId
  | some (c :: rest) => c :: rest

omit [DecidableEq S] in
/-- `_initial_state` of a daemon with this pid. -/
def initialState (policy : Policy S) (config : SessionConfig) (pid : ℤ) : StateRecord S where
  sessionId := some config.sessionId
  pid := .int pid
  state := some policy.starting
  endpoint := config.endpoint
  image := config.image

def errorClassOf (state : Option (StateRecord S)) : ErrorClass :=
  ((state.bind StateRecord.errorClass)).getD .protocol

/-- `read_trace_summary`, for the module that has a read trace. -/
def readTrace (kind : DaemonKind) (sessionId : Name) : Script S Unit :=
  match kind with
  | .media => do
      let _trace ← readFile (readTraceLogPath sessionId)
      pure ()
  | .httpOrigin => pure ()

/-- The states of the sessions with these ids that name the endpoint. -/
def findConflictsAmong (codec : Codec S) (endpoint excluded : Name) :
    List Name → Script S (List (StateRecord S))
  | [] => pure []
  | sessionId :: sessionIds =>
      if sessionId = excluded then findConflictsAmong codec endpoint excluded sessionIds
      else do
        let state ← readState codec sessionId
        let others ← findConflictsAmong codec endpoint excluded sessionIds
        match state with
        | none => pure others
        | some record =>
            if record.endpoint = some endpoint then pure (record :: others) else pure others

def findConflictingSessions (codec : Codec S) (endpoint excluded : Name) :
    Script S (List (StateRecord S)) := do
  let sessionIds ← ids
  findConflictsAmong codec endpoint excluded sessionIds

def stopProcess (pid : PidField) (polls : ℕ) : Script S Unit := do
  let alive ← isPidAlive pid
  if alive then do
    requestStop pid
    let _exited ← waitForExit pid polls
    pure ()
  else pure ()

/-- One round of `reclaim_conflicting_sessions`. -/
def reclaim (stopPolls : ℕ) (state : StateRecord S) : Script S Unit := do
  stopProcess state.pid stopPolls
  match state.sessionId with
  | none => pure ()
  | some sessionId => removeRecord .media sessionId

def reclaimAll (stopPolls : ℕ) : List (StateRecord S) → Script S (List Name)
  | [] => pure []
  | state :: states => do
      reclaim stopPolls state
      let reclaimed ← reclaimAll stopPolls states
      pure (state.sessionId.toList ++ reclaimed)

def reclaimConflictingSessions (codec : Codec S) (endpoint excluded : Name) (stopPolls : ℕ) :
    Script S (List Name) := do
  let conflicts ← findConflictingSessions codec endpoint excluded
  reclaimAll stopPolls conflicts

/-- A live session answers to the id. -/
def isReusable (policy : Policy S) : Option (StateRecord S) → Script S Bool
  | none => pure false
  | some record => do
      let alive ← isPidAlive record.pid
      pure (alive && !policy.isTerminal record.state)

def recoverStale (policy : Policy S) (sessionId : Name) (existing : Option (StateRecord S)) :
    Script S Unit :=
  match existing with
  | none => pure ()
  | some _ => removeRecord policy.kind sessionId

/-- The image or the root, if there is one and it can be opened. -/
def validatePath (policy : Policy S) : Option Name → Script S Name
  | none => .fail (.raised (protocolError policy.missingPathMessage policy.beginOperation))
  | some [] => .fail (.raised (protocolError policy.missingPathMessage policy.beginOperation))
  | some (c :: rest) => do
      match ← openPath (c :: rest) with
      | .ok () => pure (c :: rest)
      | .error message => .fail (.raised (protocolError message policy.validateOperation))

def spawnSession (policy : Policy S) (codec : Codec S) (config : SessionConfig) :
    Script S ℤ := do
  match ← fork with
  | .unsupported => .fail (.raised (.ikvm
      { errorClass := .unsupportedCapability
        message := policy.unsupportedMessage
        operation := some policy.spawnOperation }))
  | .unreported => .fail (.raised (protocolError policy.unreportedMessage policy.spawnOperation))
  | .reported pid _ => do
      createFile (stateFilePath config.sessionId)
        (codec.dumps (initialState policy config pid))
      pure pid

/-- The verdict on the record a wait has ended with. -/
def confirm (policy : Policy S) (codec : Codec S) (sessionId : Name)
    (observed : Option (StateRecord S)) : Script S Unit :=
  if observed.bind StateRecord.state = some policy.error then
    .fail (.failJson (some (errorClassOf observed)) (some sessionId) observed false)
  else if observed.bind StateRecord.state ≠ some policy.ready then do
    let alive ← isPidAlive ((observed.map StateRecord.pid).getD .null)
    if alive then
      if policy.isTerminal (observed.bind StateRecord.state) then
        .fail (.failJson (some (errorClassOf observed)) (some sessionId) observed false)
      else .fail (.failJson (some .timeout) (some sessionId) observed true)
    else do
      let final ← readState codec sessionId
      readTrace policy.kind sessionId
      .fail (.failJson (some (errorClassOf (final.or observed))) (some sessionId)
        (final.or observed) false)
  else pure ()

/-- Spawning a daemon and waiting for its report. -/
def launch (policy : Policy S) (codec : Codec S) (config : SessionConfig) (startPolls : ℕ) :
    Script S (Option (StateRecord S)) := do
  let _pid ← spawnSession policy codec config
  let observed ← waitForState codec config.sessionId
    (fun record => record.state = some policy.ready || policy.isTerminal record.state) startPolls
  readTrace policy.kind config.sessionId
  confirm policy codec config.sessionId observed
  pure observed

/-- The result for a session that is found live. -/
def reused (policy : Policy S) (sessionId : Name) (existing : Option (StateRecord S)) :
    Script S (Result S) := do
  readTrace policy.kind sessionId
  pure {
    changed := false
    sessionId
    sessionState := existing.bind StateRecord.state
    previous := existing
    observed := existing }

/-- What `_attach` and `_start` begin with: a live session is answered with, a stale one is
removed. -/
def beginSession (policy : Policy S) (codec : Codec S) (sessionId : Name)
    (fresh : Option (StateRecord S) → Script S (Result S)) : Script S (Result S) := do
  let existing ← readState codec sessionId
  let reusable ← isReusable policy existing
  if reusable then reused policy sessionId existing
  else do
    recoverStale policy sessionId existing
    fresh existing

/-- `_attach` from the check mode on. -/
def attachFresh (policy : Policy S) (codec : Codec S) (params : Params)
    (existing : Option (StateRecord S)) (image : Name) : Script S (Result S) :=
  let config : SessionConfig :=
    { sessionId := params.chosenId, endpoint := some params.endpoint, image := some image }
  if params.checkMode then do
    let conflicts ← findConflictingSessions codec params.endpoint params.chosenId
    pure {
      changed := true
      sessionId := params.chosenId
      sessionState := some policy.starting
      previous := existing
      observed := none
      recoveredStaleSession := existing.isSome
      reclaimedSessions := conflicts.map StateRecord.sessionId }
  else do
    let reclaimed ← reclaimConflictingSessions codec params.endpoint params.chosenId
      params.reclaimPolls
    let observed ← launch policy codec config params.startPolls
    pure {
      changed := true
      sessionId := params.chosenId
      sessionState := observed.bind StateRecord.state
      previous := existing
      observed
      recoveredStaleSession := existing.isSome
      reclaimedSessions := reclaimed.map some }

/-- `_attach`. -/
def attach (policy : Policy S) (codec : Codec S) (params : Params) : Script S (Result S) :=
  beginSession policy codec params.chosenId fun existing => do
    let image ← validatePath policy params.path
    attachFresh policy codec params existing image

/-- `_start` from the check mode on. -/
def startFresh (policy : Policy S) (codec : Codec S) (params : Params)
    (existing : Option (StateRecord S)) : Script S (Result S) :=
  let config : SessionConfig :=
    { sessionId := params.chosenId, endpoint := none, image := none }
  if params.checkMode then
    pure {
      changed := true
      sessionId := params.chosenId
      sessionState := some policy.starting
      previous := existing
      observed := none
      recoveredStaleSession := existing.isSome }
  else do
    let observed ← launch policy codec config params.startPolls
    pure {
      changed := true
      sessionId := params.chosenId
      sessionState := observed.bind StateRecord.state
      previous := existing
      observed
      recoveredStaleSession := existing.isSome }

/-- `_start`. -/
def start (policy : Policy S) (codec : Codec S) (params : Params) : Script S (Result S) :=
  beginSession policy codec params.chosenId fun existing => do
    let _root ← validatePath policy params.path
    startFresh policy codec params existing

/-- `_detach` and `_stop`. -/
def stop (policy : Policy S) (codec : Codec S) (params : Params) (sessionId : Name) :
    Script S (Result S) := do
  let existing ← readState codec sessionId
  match existing with
  | none =>
      pure {
        changed := false
        sessionId
        sessionState := none
        previous := none
        observed := none }
  | some record => do
      let live ← isPidAlive record.pid
      if params.checkMode then do
        readTrace policy.kind sessionId
        pure {
          changed := live
          sessionId
          sessionState := record.state
          previous := some record
          observed := some record }
      else if live then do
        requestStop record.pid
        let exited ← waitForExit record.pid params.stopPolls
        let final ← readState codec sessionId
        readTrace policy.kind sessionId
        removeRecord policy.kind sessionId
        pure {
          changed := true
          sessionId
          sessionState := (final.getD record).state
          previous := some record
          observed := some (final.getD record)
          exitedCleanly := some exited }
      else do
        readTrace policy.kind sessionId
        removeRecord policy.kind sessionId
        pure {
          changed := false
          sessionId
          sessionState := record.state
          previous := some record
          observed := some record
          recoveredStaleSession := true }

/-- The parameter `state`: attached or started, detached or stopped. -/
inductive Wanted where
  | present
  | absent
deriving DecidableEq, Repr

/-- A `fail_json` of the checks made before any other work. -/
def refuse {α : Type} : Script S α :=
  .fail (.failJson none none none false)

/-- The part of `main` inside its `try`. -/
def dispatch (policy : Policy S) (codec : Codec S) (wanted : Wanted) (params : Params) :
    Script S (Result S) :=
  match wanted with
  | .absent =>
      match params.sessionId with
      | none => refuse
      | some sessionId => stop policy codec params sessionId
  | .present =>
      if params.path = none then refuse
      else
        match policy.kind with
        | .media =>
            match Asp.enforceTransportPolicy params.useTls params.allowInsecureTransport with
            | .error exn => .fail (.raised exn)
            | .ok () => attach policy codec params
        | .httpOrigin => start policy codec params

omit [DecidableEq S] in
/-- An `IkvmError` is reported with `fail_json`; other exceptions go through. -/
def report : Failure S → Failure S
  | .raised (.ikvm error) => .failJson (some error.errorClass) none none error.indeterminate
  | other => other

/-- `main` of the two modules. -/
def main (policy : Policy S) (codec : Codec S) (wanted : Wanted) (params : Params) :
    Script S (Result S) :=
  if policy.kind = .media ∧ params.hasRequests = false then refuse
  else (dispatch policy codec wanted params).mapFail report

def mediaPolicy : Policy Media.SessionState where
  kind := .media
  starting := .starting
  ready := .attached
  stopped := .detached
  error := .error
  beginOperation := "asmb8_media.attach"
  validateOperation := "asmb8_media.validate_image"
  spawnOperation := "asmb8_media.spawn_session"
  missingPathMessage := "asmb8_media state=attached requires image to be set"
  unsupportedMessage :=
    "asmb8_media's background-session mechanism requires a POSIX controller with os.fork() " ++
      "(Linux/macOS). It is not available when the Ansible controller itself runs on Windows."
  unreportedMessage :=
    "asmb8_media background daemon did not report a pid; it likely failed during " ++
      "os.setsid()/fork() before it could start the iUSB session -- check the session log"

def originPolicy : Policy HttpOrigin.SessionState where
  kind := .httpOrigin
  starting := .starting
  ready := .serving
  stopped := .stopped
  error := .error
  beginOperation := "asmb8_http_origin.start"
  validateOperation := "asmb8_http_origin.validate_root"
  spawnOperation := "asmb8_http_origin.spawn_session"
  missingPathMessage := "asmb8_http_origin state=started requires path to be set"
  unsupportedMessage :=
    "asmb8_http_origin's background-server mechanism requires a POSIX controller with " ++
      "os.fork() (Linux/macOS). It is not available when the Ansible controller itself runs " ++
      "on Windows."
  unreportedMessage :=
    "asmb8_http_origin background server did not report a pid; it likely failed during " ++
      "os.setsid()/fork() before it could start listening -- check the session log"

/-- In neither module is a session ready in the state it starts in. -/
theorem starting_ne_ready :
    mediaPolicy.starting ≠ mediaPolicy.ready ∧ originPolicy.starting ≠ originPolicy.ready := by
  decide

end Asmb8Ikvm.Modules

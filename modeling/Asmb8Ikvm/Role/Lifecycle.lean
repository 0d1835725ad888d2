import Asmb8Ikvm.Lib.Recovery
import Asmb8Ikvm.Lib.Text

/-!
# The installation role

`roles/asmb8_baremetal_install` on one target. A task is a call and what it makes
of the answer; the facts it has set survive its failure. A run of the role is one
`ansible-playbook` invocation, so its facts start from nothing and only the run
state that is saved to the state file outlives it.

The world answers the modules as it likes. It keeps the state file and a log of
the runs that began and the calls they made, the latest first.
-/

namespace Asmb8Ikvm.Role

open Interaction

/-- `asmb8_baremetal_install_run_state`. -/
structure RunState where
  mediaAttached : Bool
  sessionId : Option String
  bootArmed : Bool
  resetIssued : Bool
  resetConfirmed : Bool
  detached : Bool
  lastFailure : Option String
  ipxeOriginSessionId : Option String
deriving DecidableEq, Repr

/-- `asmb8_baremetal_install_default_state`. -/
def defaultState : RunState where
  mediaAttached := false
  sessionId := none
  bootArmed := false
  resetIssued := false
  resetConfirmed := false
  detached := true
  lastFailure := none
  ipxeOriginSessionId := none

/-- The variables of a run, without the prefix `asmb8_baremetal_install_`; those that only reach
the modules as they are have been left out. `generatedId` is what the `password` lookup gives,
and `failsExhausted` whether the engine fails a task whose `until` is exhausted in spite of
`failed_when: false`. -/
structure Vars where
  playHostsAll : List String
  host : Option String
  password : Option String
  useTls : Bool := true
  allowInsecureTransport : Bool := false
  tlsFingerprint : Option String
  confirmDestructive : Bool := false
  isoPath : Option String
  delivery : String := "full_iso"
  ipxeOriginPath : Option String := none
  ipxeScriptName : String := "boot.ipxe"
  ipxeOriginBindAddress : Option String := none
  ipxeLkrnPath : Option String := none
  ipxeBootstrapOutput : String := "bootstrap.iso"
  ipxeNetworkMode : String := "static"
  ipxeAddress : Option String := none
  ipxeNetmask : Option String := none
  ipxeGateway : Option String := none
  samplePostCodeDuringHandoff : Bool := delivery = "ipxe_http"
  postCodePollIntervalSeconds : ℕ := 60
  bootDevice : String := "optical"
  bootUefi : Bool := false
  observeRetries : ℕ := 10
  waitForHandoff : Bool := true
  handoffHost : Option String := none
  handoffPort : ℕ := 22
  handoffTimeout : ℕ := 7200
  handoffDelay : ℕ := 120
  mediaReleaseAfterHandoff : Bool := false
  targetDisk : Option (List Char) := none
  forceResume : Bool := false
  generatedId : String
  generated : generatedId ≠ ""
  failsExhausted : Bool

/-- The assertions of `validate.yml` and the one of `state.yml`, in order. -/
inductive Guard where
  | fanOut
  | confirmation
  | connection
  | deliveryMode
  | installerIso
  | ipxeSettings
  | handoffEndpoint
  | targetDisk
  | uncertainReset
deriving DecidableEq, Repr

/-- A failed result: that of an assertion before the lifecycle, or one with the keys that
`record_failure.yml` reads. -/
inductive Failure where
  | refused (guard : Guard)
  | reported (msg errorClass : Option String) (indeterminate : Bool)
deriving DecidableEq, Repr

/-- A `fail` or `assert` task inside the lifecycle. -/
def Failure.message (msg : String) : Failure :=
  .reported (some msg) none false

/-- `ansible_failed_result.msg | default('unknown failure')`. -/
def Failure.msg : Failure → String
  | .refused _ => "unknown failure"
  | .reported msg _ _ => msg.getD "unknown failure"

/-- The facts a run sets. -/
structure Facts where
  runState : RunState
  failMsg : Option String := none
  handoffConfirmed : Bool := false
  lastPostCode : Option String := none
  postCodeHistory : List (ℕ × String) := []
deriving DecidableEq, Repr

/-- What `asmb8_info` returns, as far as the role reads it. -/
structure Probe where
  reachable : Bool
  powerState : Option String
deriving DecidableEq, Repr

/-- The session that `asmb8_http_origin` has started. -/
structure Origin where
  sessionId : String
  url : String
deriving DecidableEq, Repr

/-- The tasks that reach beyond the facts of the run. -/
inductive Call where
  | ensureStateDir
  | loadState
  | saveState (record : RunState)
  | info
  | startOrigin
  | buildBootstrap (originUrl : String)
  | attachMedia (image : String) (sessionId : Option String)
  | detachMedia (sessionId : Option String)
  | armBoot (device : String) (uefi : Bool)
  | powerBoot
  | waitFor (timeout delay : ℕ)
  | postCode
  | stopOrigin (sessionId : Option String)
deriving DecidableEq, Repr

abbrev Answer : Call → Type
  | .loadState => Except Failure (Option RunState)
  | .info => Except Failure Probe
  | .startOrigin => Except Failure Origin
  | .attachMedia _ _ => Except Failure String
  | .postCode => Except Failure String
  | _ => Except Failure Unit

/-- A sequence of tasks, whose failure leaves the facts set so far. -/
abbrev Plan := Prog Call Answer (Failure × Facts)

/-- One task. -/
def task (facts : Facts) (request : Call) (register : Answer request → Except Failure Facts) :
    Plan Facts :=
  .call request fun answer =>
    .ofExcept ((register answer).mapError fun failure => (failure, facts))

/-- `rescue`. -/
def rescue (block : Plan Facts) (handler : Failure → Facts → Plan Facts) : Plan Facts :=
  block.attempt >>= fun
    | .ok facts => .done facts
    | .error (failure, facts) => handler failure facts

/-- `always`: a failure of the block fails the run once the section has ended. -/
def always (block : Plan Facts) (ending : Facts → Plan Facts) : Plan Facts :=
  block.attempt >>= fun
    | .ok facts => ending facts
    | .error (failure, facts) => ending facts >>= fun facts => .fail (failure, facts)

/-- `match('^prefix.+$')`: after the prefix something on one line, and nothing but the end of the
line behind it. -/
def matchesBehind (start text : List Char) : Bool :=
  start.isPrefixOf text &&
    let rest := text.drop start.length
    let line := if rest.getLast? = some '\n' then rest.dropLast else rest
    !line.isEmpty && line.all (· ≠ '\n')

/-- A disk identifier that does not depend on the order of enumeration. -/
def isStableDisk (disk : List Char) : Bool :=
  matchesBehind "/dev/disk/by-id/".toList disk || matchesBehind "/dev/disk/by-path/".toList disk ||
    matchesBehind "serial:".toList disk

/-- What an assertion of `validate.yml` asks of the variables; an assertion whose `when` does not
hold is passed. -/
def Guard.holds (vars : Vars) : Guard → Bool
  | .fanOut => vars.playHostsAll.length = 1
  | .confirmation => vars.confirmDestructive
  | .connection => PyText.given vars.host && PyText.given vars.password &&
      ((vars.useTls && PyText.given vars.tlsFingerprint) ||
        (!vars.useTls && vars.allowInsecureTransport))
  | .deliveryMode => vars.delivery = "full_iso" || vars.delivery = "ipxe_http"
  | .installerIso => vars.delivery ≠ "full_iso" || PyText.given vars.isoPath
  | .ipxeSettings => vars.delivery ≠ "ipxe_http" ||
      (PyText.given vars.ipxeOriginPath && PyText.given vars.ipxeOriginBindAddress &&
        PyText.given vars.ipxeLkrnPath &&
        (vars.ipxeNetworkMode ≠ "static" || (PyText.given vars.ipxeAddress &&
          PyText.given vars.ipxeNetmask && PyText.given vars.ipxeGateway)))
  | .handoffEndpoint => !vars.waitForHandoff || PyText.given vars.handoffHost
  | .targetDisk => vars.targetDisk.all isStableDisk
  | .uncertainReset => vars.forceResume

/-- The assertions of `validate.yml`, in order. -/
def validations : List Guard :=
  [.fanOut, .confirmation, .connection, .deliveryMode, .installerIso, .ipxeSettings,
    .handoffEndpoint, .targetDisk]

/-- `validate.yml`: the first assertion that does not hold fails the run. -/
def validate (vars : Vars) : Except Failure Unit :=
  match validations.find? fun guard => !guard.holds vars with
  | none => .ok ()
  | some guard => .error (.refused guard)

/-- `save_state.yml`. -/
def saveState (facts : Facts) : Plan Facts :=
  task facts (.saveState facts.runState) fun answer => answer.map fun _ => facts

/-- Armed, and not known to have been reset. -/
def RunState.uncertain (state : RunState) : Bool :=
  state.bootArmed && !state.resetConfirmed

/-- The run state that a run starts from: nothing, once the last reset was confirmed. -/
def startingState (prior : Option RunState) : RunState :=
  let prior := prior.getD defaultState
  if prior.resetConfirmed then defaultState else prior

/-- The reconciliation of `state.yml` with what an earlier run has left. -/
def reconcile (vars : Vars) (prior : Option RunState) : Except Failure RunState :=
  let state := startingState prior
  if state.uncertain then
    if Guard.uncertainReset.holds vars then
      .ok { state with bootArmed := false, resetIssued := false }
    else .error (.refused .uncertainReset)
  else .ok state

/-- `state.yml`. -/
def loadState (vars : Vars) (facts : Facts) : Plan Facts := do
  let facts ← task facts .ensureStateDir fun answer => answer.map fun _ => facts
  let facts ← task facts .loadState fun answer =>
    answer.bind fun prior => (reconcile vars prior).map fun runState => { facts with runState }
  saveState facts

/-- The image that is attached: the ISO, or the bootstrap image. -/
def mediaImagePath (vars : Vars) : String :=
  if vars.delivery = "ipxe_http" then vars.ipxeBootstrapOutput else vars.isoPath.getD ""

def unreachableMessage (vars : Vars) : String :=
  "asmb8_info reports " ++ vars.host.getD "" ++
    " unreachable over IPMI; refusing to proceed."

/-- `probe.yml`. -/
def probe (vars : Vars) (facts : Facts) : Plan Facts :=
  task facts .info fun answer => answer.bind fun probe =>
    if probe.reachable then .ok facts else .error (.message (unreachableMessage vars))

/-- `url | regex_replace('/+$', '')` and the name of the script behind it. -/
def bootScriptUrl (vars : Vars) (origin : Origin) : String :=
  String.ofList (origin.url.toList.reverse.dropWhile (· = '/')).reverse ++ "/" ++
    vars.ipxeScriptName

/-- `prepare_ipxe_delivery.yml`. -/
def prepareIpxeDelivery (vars : Vars) (facts : Facts) : Plan Facts :=
  .call .startOrigin fun
    | .error failure => .fail (failure, facts)
    | .ok origin => do
        let runState := { facts.runState with ipxeOriginSessionId := some origin.sessionId }
        let facts ← saveState { facts with runState }
        task facts (.buildBootstrap (bootScriptUrl vars origin)) fun answer =>
          answer.map fun _ => facts

/-- The delivery of the image that the mode asks for. -/
def deliver (vars : Vars) (facts : Facts) : Plan Facts :=
  if vars.delivery = "ipxe_http" then prepareIpxeDelivery vars facts else .done facts

/-- The session id to attach with: the one of the run state, or a new one. -/
def claimSession (vars : Vars) (state : RunState) : RunState :=
  if PyText.given state.sessionId then state else { state with sessionId := some vars.generatedId }

/-- `attach_media.yml`. -/
def attachMedia (vars : Vars) (facts : Facts) : Plan Facts := do
  let facts ← saveState { facts with runState := claimSession vars facts.runState }
  let facts ← task facts (.attachMedia (mediaImagePath vars) facts.runState.sessionId)
    fun answer => answer.map fun sessionId =>
      { facts with
        runState := { facts.runState with mediaAttached := true, sessionId := some sessionId } }
  saveState facts

/-- `arm_boot.yml`. -/
def armBoot (vars : Vars) (facts : Facts) : Plan Facts := do
  let facts ← task facts (.armBoot vars.bootDevice vars.bootUefi) fun answer =>
    answer.map fun _ => { facts with runState := { facts.runState with bootArmed := true } }
  saveState facts

def uncertainResetMessage : String :=
  "asmb8_power state=boot failed or timed out; outcome uncertain"

def resetMessage (vars : Vars) : String :=
  "asmb8_power state=boot failed or timed out for " ++ vars.host.getD "" ++
    ". IPMI is fire-and-forget: a failure here is indistinguishable from a boot/reset that " ++
    "actually happened, so this run records reset_issued=true and stops rather than guessing. " ++
    "A later run of this role refuses to proceed automatically (see tasks/state.yml) until a " ++
    "human confirms the machine's actual state (KVM/physical console) and re-runs with " ++
    "-e asmb8_baremetal_install_force_resume=true."

/-- The `rescue` section of `reset.yml`. -/
def recordUncertainReset (vars : Vars) (facts : Facts) : Plan Facts := do
  let runState := { facts.runState with
    resetIssued := true, lastFailure := some uncertainResetMessage }
  let facts ← saveState { facts with runState }
  .fail (.message (resetMessage vars), facts)

/-- `reset.yml`. -/
def reset (vars : Vars) (facts : Facts) : Plan Facts :=
  rescue (do
    let facts ← task facts .powerBoot fun answer =>
      answer.map fun _ => { facts with runState := { facts.runState with resetIssued := true } }
    saveState facts) fun _ facts => recordUncertainReset vars facts

/-- `(….ipmi.power_state.powerstate | default('')) == 'on'`. -/
def isOn : Except Failure Probe → Bool
  | .error _ => false
  | .ok probe => probe.powerState = some "on"

/-- The reads of an `until` with this many retries left, up to the first that is on. -/
def pollPower (facts : Facts) : ℕ → Plan (Except Failure Probe × Facts)
  | 0 => .call .info fun answer => .done (answer, facts)
  | retries + 1 => .call .info fun answer =>
      if isOn answer then .done (answer, facts) else pollPower facts retries

/-- The failed result of the last read. -/
def exhausted : Except Failure Probe → Failure
  | .error failure => failure
  | .ok _ => .reported none none false

/-- `observe.yml`. -/
def observe (vars : Vars) (facts : Facts) : Plan Facts := do
  let (answer, facts) ← pollPower facts vars.observeRetries
  if isOn answer then
    saveState { facts with runState := { facts.runState with resetConfirmed := true } }
  else if vars.failsExhausted && vars.observeRetries ≠ 0 then .fail (exhausted answer, facts)
  else saveState facts

/-- `detach_media.yml`. -/
def detachMedia (facts : Facts) : Plan Facts :=
  if PyText.given facts.runState.sessionId then do
    let facts ← task facts (.detachMedia facts.runState.sessionId) fun answer =>
      answer.map fun _ => { facts with runState := { facts.runState with detached := true } }
    saveState facts
  else saveState facts

/-- `sample_post_code_chunk.yml` for one `item`. A wait that has come to an end well has no
`msg`, and a post code that could not be read is left out of the history. -/
def samplePostCodeChunk (vars : Vars) (item : ℕ) (facts : Facts) : Plan Facts :=
  .call (.waitFor vars.postCodePollIntervalSeconds (if item = 0 then vars.handoffDelay else 0)) fun
    | .ok _ => .done { facts with handoffConfirmed := true }
    | .error _ => .call .postCode fun
        | .error _ => .done { facts with handoffConfirmed := false }
        | .ok code => .done { facts with
            handoffConfirmed := false
            lastPostCode := some code
            postCodeHistory := facts.postCodeHistory ++ [(item, code)] }

/-- The loop over the chunks, those after the confirmation skipped. -/
def sampleChunks (vars : Vars) : List ℕ → Facts → Plan Facts
  | [], facts => .done facts
  | item :: items, facts =>
      if facts.handoffConfirmed then sampleChunks vars items facts
      else samplePostCodeChunk vars item facts >>= sampleChunks vars items

/-- `asmb8_baremetal_install_post_code_max_chunks`. -/
def maxChunks (vars : Vars) : ℕ :=
  (vars.handoffTimeout + vars.handoffDelay + vars.postCodePollIntervalSeconds - 1) /
    vars.postCodePollIntervalSeconds + 1

def showHistory (history : List (ℕ × String)) : String :=
  "[" ++ String.intercalate ", " (history.map fun entry =>
    "\x7b'chunk': " ++ toString entry.1 ++ ", 'post_code': '" ++ entry.2 ++ "'\x7d") ++ "]"

def handoffMessage (vars : Vars) (facts : Facts) : String :=
  "asmb8_baremetal_install did not observe hand-off from " ++ vars.handoffHost.getD "" ++
    ":" ++ toString vars.handoffPort ++
    " within asmb8_baremetal_install_handoff_timeout (" ++ toString vars.handoffTimeout ++
    "s). Last BIOS POST code observed: " ++ facts.lastPostCode.getD "" ++
    ". Full history: " ++ showHistory facts.postCodeHistory ++
    ". See asmb8_postcode's own DOCUMENTATION for why no meaning is attached to that code, and " ++
    "README.md's \"Expected duration\" section before assuming this is a hang rather than a " ++
    "genuinely slow install."

/-- The one bounded wait, or the start of the progress tracking. -/
def waitWithoutSampling (vars : Vars) (facts : Facts) : Plan Facts :=
  if vars.samplePostCodeDuringHandoff then
    .done { facts with handoffConfirmed := false, lastPostCode := none, postCodeHistory := [] }
  else task facts (.waitFor vars.handoffTimeout vars.handoffDelay) fun answer =>
    answer.map fun _ => facts

/-- The chunks, and the failure if none of them has confirmed the hand-off. -/
def sampleHandoff (vars : Vars) (facts : Facts) : Plan Facts := do
  let facts ← sampleChunks vars (List.range (maxChunks vars)) facts
  if facts.handoffConfirmed then .done facts
  else .fail (.message (handoffMessage vars facts), facts)

/-- `wait_for_handoff.yml`. The number of chunks is computed on every path, so an interval of
zero seconds fails it. -/
def waitForHandoff (vars : Vars) (facts : Facts) : Plan Facts := do
  let facts ← waitWithoutSampling vars facts
  if vars.postCodePollIntervalSeconds = 0 then .fail (.message "division by zero", facts)
  else if vars.samplePostCodeDuringHandoff then sampleHandoff vars facts
  else .done facts

/-- `stop_ipxe_origin.yml`, and the `when` it is included with. -/
def stopIpxeOrigin (facts : Facts) : Plan Facts :=
  if PyText.given facts.runState.ipxeOriginSessionId then
    task facts (.stopOrigin facts.runState.ipxeOriginSessionId) fun answer =>
      answer.map fun _ => facts
  else .done facts

/-- `asmb8_baremetal_install_fail_msg`. -/
def failMsg : Failure → String
  | .refused _ => "unknown failure (error_class=unknown, indeterminate=False)"
  | .reported msg errorClass indeterminate =>
      msg.getD "unknown failure" ++ " (error_class=" ++ errorClass.getD "unknown" ++
        ", indeterminate=" ++ (if indeterminate then "True" else "False") ++ ")"

/-- `record_failure.yml`. -/
def recordFailure (failure : Failure) (facts : Facts) : Plan Facts :=
  saveState { facts with
    failMsg := some (failMsg failure)
    runState := { facts.runState with lastFailure := some failure.msg } }

def reraiseMessage (vars : Vars) (facts : Facts) : String :=
  "asmb8_baremetal_install failed for " ++ vars.host.getD "" ++ ": " ++
    facts.failMsg.getD "see previous task output" ++
    ". Re-running this role resumes from the last confirmed step rather than starting over " ++
    "blindly; see this role's README.md#resumability before retrying against a boot/reset of " ++
    "uncertain outcome."

/-- The `rescue` section of `main.yml`. -/
def recordAndRaise (vars : Vars) (failure : Failure) (facts : Facts) : Plan Facts := do
  let facts ← recordFailure failure facts
  .fail (.message (reraiseMessage vars facts), facts)

/-- The tasks of the lifecycle up to the destructive boundary. -/
def prepare (vars : Vars) (facts : Facts) : Plan Facts := do
  let facts ← probe vars facts
  let facts ← deliver vars facts
  let facts ← attachMedia vars facts
  armBoot vars facts

/-- The release of the media right after the postcondition probe, which is optional. -/
def releaseEarly (vars : Vars) (facts : Facts) : Plan Facts :=
  if vars.mediaReleaseAfterHandoff && PyText.given facts.runState.sessionId then
    detachMedia facts
  else .done facts

/-- The tasks of the lifecycle behind the destructive boundary. -/
def followUp (vars : Vars) (facts : Facts) : Plan Facts := do
  let facts ← observe vars facts
  let facts ← releaseEarly vars facts
  if vars.waitForHandoff then waitForHandoff vars facts else .done facts

/-- The `block` of `main.yml`. -/
def block (vars : Vars) (facts : Facts) : Plan Facts := do
  let facts ← prepare vars facts
  let facts ← reset vars facts
  followUp vars facts

/-- The `always` section of `main.yml`. -/
def cleanUp (facts : Facts) : Plan Facts := do
  let facts ← detachMedia facts
  stopIpxeOrigin facts

/-- `main.yml` behind the loading of the run state. -/
def lifecycle (vars : Vars) (facts : Facts) : Plan Facts :=
  always (rescue (block vars facts) (recordAndRaise vars)) cleanUp

/-- `main.yml`. -/
def main (vars : Vars) : Plan Facts := do
  let facts : Facts := { runState := defaultState }
  match validate vars with
  | .error failure => .fail (failure, facts)
  | .ok _ => do
      let facts ← loadState vars facts
      lifecycle vars facts

/-- What the log has. -/
inductive Event where
  | began (vars : Vars)
  | called (request : Call) (answer : Answer request)

/-- The state file, the log, and what the surroundings answer next; a save that fails has
replaced the file if `replacesOnFailure`. -/
structure World where
  file : Option RunState
  log : List Event
  respond : (request : Call) → Answer request
  replacesOnFailure : Bool

def answerOf (world : World) : (request : Call) → Answer request
  | .loadState => (world.respond .loadState).map fun _ => world.file
  | request => world.respond request

/-- The state file after a call. -/
def fileAfter (world : World) : Call → Option RunState
  | .saveState record =>
      match world.respond (.saveState record) with
      | .ok _ => some record
      | .error _ => if world.replacesOnFailure then some record else world.file
  | _ => world.file

def perform (request : Call) (world : World) : Answer request × World :=
  (answerOf world request, { world with
    file := fileAfter world request
    log := .called request (answerOf world request) :: world.log })

/-- `asmb8_media` reports the session it was asked for, and `asmb8_http_origin` the one it has
named. -/
structure Honest (respond : (request : Call) → Answer request) : Prop where
  attaches : ∀ image sessionId result,
    respond (.attachMedia image sessionId) = .ok result → some result = sessionId
  starts : ∀ origin, respond .startOrigin = .ok origin → origin.sessionId ≠ ""

/-- Between two calls the surroundings change, but not the file and not the log. -/
structure Others (world moved : World) : Prop where
  file : moved.file = world.file
  log : moved.log = world.log
  honest : Honest moved.respond

/-- A run begins. -/
def begins (vars : Vars) (world : World) : World :=
  { world with log := .began vars :: world.log }

/-- Nothing has been run on this target. -/
def Untouched (world : World) : Prop :=
  world.file = none ∧ world.log = []

/-- A world that runs of the role lead to, one after the other, each interrupted or not. -/
abbrev RoleHistory : World → Prop :=
  History perform Others main begins Untouched

/-- The world behind a run that is not interrupted, in surroundings that do not change. -/
def once (vars : Vars) (world : World) : World :=
  (exec perform (main vars) (begins vars world)).2.2

theorem runs_once {vars : Vars} {world : World} (honest : Honest world.respond) :
    Runs perform Others (main vars) (begins vars world)
      (exec perform (main vars) (begins vars world)).1
      (exec perform (main vars) (begins vars world)).2.1 (once vars world) :=
  exec_runs_allowed (show Honest (begins vars world).respond from honest)
    (fun _ honest => ⟨rfl, rfl, honest⟩) fun _ _ honest => honest

theorem history_once {vars : Vars} {world : World} (honest : Honest world.respond)
    (history : RoleHistory world) : RoleHistory (once vars world) :=
  history.run vars (runs_once honest).reaches

/-- A target nothing has been run on, whose modules succeed. -/
def freshWorld : World where
  file := none
  log := []
  respond
    | .loadState => .ok none
    | .info => .ok ⟨true, some "on"⟩
    | .startOrigin => .ok ⟨"origin", "http://10.0.0.2:8080/"⟩
    | .attachMedia _ (some sessionId) => .ok sessionId
    | .attachMedia _ none => .error (.message "session_id is required")
    | .postCode => .ok "A2"
    | .ensureStateDir => .ok ()
    | .saveState _ => .ok ()
    | .buildBootstrap _ => .ok ()
    | .detachMedia _ => .ok ()
    | .armBoot _ _ => .ok ()
    | .powerBoot => .ok ()
    | .waitFor _ _ => .ok ()
    | .stopOrigin _ => .ok ()
  replacesOnFailure := false

/-- The variables of a run that `validate.yml` lets through. -/
def minimalVars : Vars where
  playHostsAll := ["target"]
  host := some "10.0.0.5"
  password := some "secret"
  tlsFingerprint := some "sha256:00"
  confirmDestructive := true
  isoPath := some "installer.iso"
  handoffHost := some "target"
  generatedId := "session"
  generated := by decide
  failsExhausted := true

theorem freshWorld_honest : Honest freshWorld.respond := by
  constructor
  · intro image sessionId result attached
    cases sessionId with
    | none => cases attached
    | some sessionId =>
        cases attached
        rfl
  · intro origin started
    cases started
    decide

theorem history_freshWorld : RoleHistory freshWorld :=
  .start ⟨rfl, rfl⟩

end Asmb8Ikvm.Role

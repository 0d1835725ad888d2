import Asmb8Ikvm.Iusb.Auth
import Asmb8Ikvm.Iusb.Cdrom
import Asmb8Ikvm.Redact

/-!
# The media daemon

`_run_daemon` of `media_session.py`: the record of a session, the callbacks it
hands to the serve loop, and the ways a run can end. Every record that is written
is kept, with the place in the code that has written it, the totals of the
device and the idle polls and requests of the run at that moment.

The counters of the record are copied from the device when a request arrives,
before the request is handled, and once more when the serve loop returns. The
idle callback and the failure path write the record as it is.
-/

namespace Asmb8Ikvm.Media

open PyText Iusb Bytes

universe u

/-- The values of the key `state`. -/
inductive SessionState where
  | starting
  | connecting
  | attached
  | detached
  | error
deriving DecidableEq, Repr

/-- The values of the key `stop_reason`. -/
inductive StopReason where
  | signal
  | peerClosed
  | bmcTerminate
deriving DecidableEq, Repr

/-- `_RECV_POLL_TIMEOUT`, in seconds. -/
def recvPollTimeout : ℕ := 2

structure IdleStreak where
  startedAt : String
  polls : ℕ
  seconds : ℕ
  endedAt : Option String := none
deriving DecidableEq, Repr

/-- The record of a session. -/
structure Record where
  sessionId : String
  pid : ℤ
  endpoint : String
  state : SessionState := .starting
  error : Option String := none
  errorClass : Option ErrorClass := none
  image : String
  bytesRead : ℕ := 0
  sectorsServed : ℕ := 0
  lastRequestAt : Option String := none
  startedAt : String
  updatedAt : String
  idlePolls : ℕ := 0
  idlePollIntervalSeconds : ℕ := recvPollTimeout
  currentIdleStreak : Option IdleStreak := none
  lastIdleStreak : Option IdleStreak := none
  stopReason : Option StopReason := none
deriving DecidableEq, Repr

def initialState (sessionId endpoint : String) (pid : ℤ) (image now : String) : Record where
  sessionId
  pid
  endpoint
  image
  startedAt := now
  updatedAt := now

def closeIdleStreak (now : String) (state : Record) : Record :=
  match state.currentIdleStreak with
  | none => state
  | some streak =>
      { state with
        lastIdleStreak := some { streak with endedAt := some now }
        currentIdleStreak := none }

@[simp]
theorem closeIdleStreak_state (now : String) (state : Record) :
    (closeIdleStreak now state).state = state.state := by
  unfold closeIdleStreak
  cases state.currentIdleStreak <;> rfl

@[simp]
theorem closeIdleStreak_errorClass (now : String) (state : Record) :
    (closeIdleStreak now state).errorClass = state.errorClass := by
  unfold closeIdleStreak
  cases state.currentIdleStreak <;> rfl

@[simp]
theorem closeIdleStreak_stopReason (now : String) (state : Record) :
    (closeIdleStreak now state).stopReason = state.stopReason := by
  unfold closeIdleStreak
  cases state.currentIdleStreak <;> rfl

/-- What `_on_idle` does to the record. -/
def addIdlePoll (now : String) (state : Record) : Record :=
  let streak : IdleStreak :=
    match state.currentIdleStreak with
    | none => { startedAt := now, polls := 1, seconds := recvPollTimeout }
    | some streak =>
        { streak with
          polls := streak.polls + 1
          seconds := (streak.polls + 1) * recvPollTimeout }
  { state with
    currentIdleStreak := some streak
    idlePolls := state.idlePolls + 1 }

/-- A line of the trace log. -/
structure TraceEntry where
  opcode : String
  lba : ℕ
  blocks : ℕ
deriving DecidableEq, Repr

/-- The entry of the trace log for a request, if it is a read. -/
def traceEntry (req : Packet) : Option TraceEntry :=
  match req.cdb with
  | [] => none
  | op :: _ =>
      if op = scsiRead10 ∨ op = scsiRead12 then
        let blocksSlice := if op = scsiRead10 then slice req.cdb 7 2 else slice req.cdb 6 4
        some {
          opcode := "0x" ++ hex2 op
          lba := ofBE (slice req.cdb 2 4)
          blocks := ofBE blocksSlice }
      else none

/-- The places of `_run_daemon` that write the record. -/
inductive Site where
  | claim
  | connecting
  | attached
  | idle
  | request
  | exit
  | fail
deriving DecidableEq, Repr

/-- What counts for the idle streaks, with its time: an idle poll, or a request or a clean
exit, which end a streak. -/
inductive Mark where
  | idle (time : String)
  | boundary (time : String)
deriving DecidableEq, Repr

/-- A record that has been written, with the totals of the device and the marks of the run
at that moment. -/
structure Persisted where
  site : Site
  record : Record
  totals : ℕ × ℕ
  history : List Mark

/-- What a run of the daemon meets: the time at each look at the clock, the stop flag at
each check, what each write to the trace log ends in, and `str` of an exception. -/
structure World where
  now : ℕ → String
  stopFlag : ℕ → Bool
  traceWrite : ℕ → Except Exn Unit
  str : Exn → String

/-- The record of the daemon, the marks of the run, and what has been written. -/
structure Reports where
  state : Record
  ticks : ℕ := 0
  history : List Mark := []
  persisted : List Persisted := []

namespace Reports

variable (world : World)

/-- `_now_iso()`. -/
def nowIso (reports : Reports) : String × Reports :=
  (world.now reports.ticks, { reports with ticks := reports.ticks + 1 })

def mark (mark : Mark) (reports : Reports) : Reports :=
  { reports with history := reports.history ++ [mark] }

/-- `_persist(now)`. -/
def persistAt (site : Site) (totals : ℕ × ℕ) (now : String) (reports : Reports) : Reports :=
  let state := { reports.state with updatedAt := now }
  { reports with
    state
    persisted := reports.persisted ++
      [{ site, record := state, totals, history := reports.history }] }

/-- `_persist()`. -/
def persist (site : Site) (totals : ℕ × ℕ) (reports : Reports) : Reports :=
  let (now, reports) := reports.nowIso world
  reports.persistAt site totals now

/-- The daemon goes to another state and says so. -/
def enter (site : Site) (state : SessionState) (totals : ℕ × ℕ) (reports : Reports) : Reports :=
  { reports with state := { reports.state with state } }.persist world site totals

/-- `_fail`. -/
def fail (table : CharTable) (knownSecrets : List String) (totals : ℕ × ℕ) (message : String)
    (errorClass : ErrorClass) (reports : Reports) : Reports :=
  let state := { reports.state with
    state := .error
    error := some (redact table message (knownSecrets.map some))
    errorClass := some errorClass }
  { reports with state }.persist world .fail totals

/-- The two `except` clauses of `_run_daemon`. -/
def failWith (table : CharTable) (knownSecrets : List String) (totals : ℕ × ℕ) (exn : Exn)
    (reports : Reports) : Reports :=
  match exn with
  | .ikvm error =>
      reports.fail world table knownSecrets totals (world.str exn) error.errorClass
  | _ =>
      reports.fail world table knownSecrets totals ("unexpected error: " ++ world.str exn)
        .protocol

end Reports

variable {ρ : Type u} [Reader ρ]

/-- The daemon while it serves. -/
structure Daemon (ρ : Type u) where
  device : CDROMDevice ρ
  reports : Reports
  checks : ℕ := 0
  trace : List TraceEntry := []
  traceWrites : ℕ := 0

namespace Daemon

variable (world : World)

/-- `_on_idle`. -/
def onIdle (daemon : Daemon ρ) : Daemon ρ :=
  let (now, reports) := daemon.reports.nowIso world
  let reports := reports.mark (.idle now)
  let state := addIdlePoll now reports.state
  { daemon with
    reports := { reports with state }.persistAt .idle daemon.device.totals now }

/-- `trace_log.write(...)` and `trace_log.flush()`. -/
def writeTrace (entry : Option TraceEntry) (daemon : Daemon ρ) : Except Exn Unit × Daemon ρ :=
  match entry with
  | none => (.ok (), daemon)
  | some entry =>
      let traceWrites := daemon.traceWrites + 1
      match world.traceWrite daemon.traceWrites with
      | .error exn => (.error exn, { daemon with traceWrites })
      | .ok () => (.ok (), { daemon with traceWrites, trace := daemon.trace ++ [entry] })

/-- The first part of `_on_request`: the streak is closed and the counters are copied. -/
def receive (now : String) (daemon : Daemon ρ) : Daemon ρ :=
  let reports := daemon.reports.mark (.boundary now)
  let state := closeIdleStreak now reports.state
  let state := { state with
    bytesRead := daemon.device.nBytes
    sectorsServed := daemon.device.nBlocks }
  { daemon with reports := { reports with state } }

/-- The last part of `_on_request`. -/
def acknowledge (now : String) (daemon : Daemon ρ) : Daemon ρ :=
  let state := { daemon.reports.state with lastRequestAt := some now }
  let reports := { daemon.reports with state }
  { daemon with reports := reports.persistAt .request daemon.device.totals now }

/-- `_on_request`. -/
def onRequest (req : Packet) (daemon : Daemon ρ) : Except Exn Unit × Daemon ρ :=
  let (now, reports) := daemon.reports.nowIso world
  let daemon := { daemon with reports }.receive now
  match daemon.writeTrace world (traceEntry req) with
  | (.error exn, daemon) => (.error exn, daemon)
  | (.ok (), daemon) => (.ok (), daemon.acknowledge now)

/-- What `_run_daemon` hands to `serve_forever`. -/
def callbacks : Callbacks (Daemon ρ) where
  handle req daemon :=
    let (result, device) := daemon.device.handle req
    (result, { daemon with device })
  shouldStop daemon :=
    (.ok (world.stopFlag daemon.checks), { daemon with checks := daemon.checks + 1 })
  onIdle daemon := (.ok (), daemon.onIdle world)
  onRequest req daemon := daemon.onRequest world req

/-- `_run_daemon` when `serve_forever` returns. -/
def finish (outcome : ServeResult) (daemon : Daemon ρ) : Reports :=
  let (now, reports) := daemon.reports.nowIso world
  let reports := reports.mark (.boundary now)
  let state := closeIdleStreak now reports.state
  let state := { state with
    bytesRead := daemon.device.nBytes
    sectorsServed := daemon.device.nBlocks
    state := .detached
    error :=
      match outcome with
      | .stopped => none
      | .peerClosed => some "connection closed by peer"
      | .killed => some "BMC sent a redirection-terminate (opcode 0xF6)"
    stopReason :=
      match outcome with
      | .stopped => some .signal
      | .peerClosed => some .peerClosed
      | .killed => some .bmcTerminate }
  { reports with state }.persistAt .exit daemon.device.totals now

/-- `_run_daemon` from the end of `serve_forever` on. -/
def conclude (table : CharTable) (knownSecrets : List String) (result : Except Exn ServeResult)
    (daemon : Daemon ρ) : Reports :=
  match result with
  | .ok outcome => daemon.finish world outcome
  | .error exn => daemon.reports.failWith world table knownSecrets daemon.device.totals exn

omit [Reader ρ] in
/-- A request is received, and then either its trace entry cannot be written or it has been
and the request is acknowledged. -/
theorem onRequest_cases (req : Packet) (daemon : Daemon ρ) :
    ∃ received, received =
        { daemon with reports := (daemon.reports.nowIso world).2 }.receive
          (daemon.reports.nowIso world).1 ∧
      ∃ traceWrites,
        (∃ exn, world.traceWrite daemon.traceWrites = .error exn ∧
          daemon.onRequest world req = (.error exn, { received with traceWrites })) ∨
        daemon.onRequest world req =
          (.ok (), ({ received with
            trace := daemon.trace ++ (traceEntry req).toList
            traceWrites } : Daemon ρ).acknowledge (daemon.reports.nowIso world).1) := by
  refine ⟨_, rfl, ?_⟩
  unfold onRequest writeTrace
  dsimp only
  cases traceEntry req with
  | none =>
      refine ⟨daemon.traceWrites, .inr ?_⟩
      rw [Option.toList_none, List.append_nil]
      rfl
  | some entry =>
      dsimp only
      have same : ({ daemon with reports := (daemon.reports.nowIso world).2 }.receive
          (daemon.reports.nowIso world).1).traceWrites = daemon.traceWrites := rfl
      rw [same]
      cases world.traceWrite daemon.traceWrites with
      | error exn => exact ⟨_, .inl ⟨exn, rfl, rfl⟩⟩
      | ok => exact ⟨_, .inr rfl⟩

end Daemon

/-- What `_run_daemon` opens. -/
inductive Resource where
  | reader
  | traceLog
  | session
deriving DecidableEq, Repr

/-- The steps of `_run_daemon` before the serve loop: opening the image, opening the trace
log, the login with the allocation of a token, and the dial to the media port. -/
structure Startup (ρ : Type u) where
  openImage : Except Exn ρ
  openTrace : Except Exn Unit
  allocate : Except Exn (Option String)
  dial : Except Exn SocketTransport
  instanceNumber : ℤ := 0

/-- `Session.connect`. -/
def Startup.connect (startup : Startup ρ) (token endpoint : String) : Except Exn Session := do
  let transport ← startup.dial
  (Session.authenticate deviceCdrom startup.instanceNumber token (some endpoint) transport).1

/-- What the steps before the serve loop open: the image, then the trace log, then the
session, each only when the steps before it have succeeded. -/
def Startup.Opens (startup : Startup ρ) (endpoint : String) : Resource → Prop
  | .reader => ∃ reader, startup.openImage = .ok reader
  | .traceLog => (∃ reader, startup.openImage = .ok reader) ∧ startup.openTrace = .ok ()
  | .session => (∃ reader, startup.openImage = .ok reader) ∧ startup.openTrace = .ok () ∧
      ∃ token session, startup.allocate = .ok (some token) ∧
        startup.connect token endpoint = .ok session

/-- The serve loop of a run: the device it starts with, its result and its trace, and the
daemon it leaves. -/
structure Served (ρ : Type u) where
  device : CDROMDevice ρ
  result : Except Exn ServeResult
  trace : List Event
  daemon : Daemon ρ

/-- A run of the daemon. -/
structure Run (ρ : Type u) where
  reports : Reports
  opened : List Resource
  served : Option (Served ρ) := none
  closed : List Resource := []

section RunDaemon

variable (world : World) (table : CharTable)

/-- The body of the `try` statement of `_run_daemon` from the connection on, and its `except`
clauses. -/
def serve (knownSecrets : List String) (session : Session) (device : CDROMDevice ρ)
    (reports : Reports) : Run ρ :=
  let reports := reports.enter world .attached .attached device.totals
  let (result, final) := session.serveForever (Daemon.callbacks world) { device, reports }
  { reports := final.heap.conclude world table knownSecrets result
    opened := [.reader, .traceLog, .session]
    served := some { device, result, trace := final.trace, daemon := final.heap } }

/-- The `try` statement of `_run_daemon` without its `finally` clause. -/
def attempt (password : String) (startup : Startup ρ) (reports : Reports) : Run ρ :=
  let knownSecrets := [password]
  let endpoint := reports.state.endpoint
  match startup.openImage with
  | .error exn =>
      { reports := reports.failWith world table knownSecrets (0, 0) exn
        opened := [] }
  | .ok reader =>
  let device := CDROMDevice.new reader
  match startup.openTrace with
  | .error exn =>
      { reports := reports.failWith world table knownSecrets device.totals exn
        opened := [.reader] }
  | .ok () =>
  let reports := reports.enter world .connecting .connecting device.totals
  match startup.allocate with
  | .error exn =>
      { reports := reports.failWith world table knownSecrets device.totals exn
        opened := [.reader, .traceLog] }
  | .ok none =>
      { reports := reports.failWith world table knownSecrets device.totals
          (.ikvm {
            errorClass := .protocol
            message := "jviewer.jnlp allocation did not yield a usable media token"
            endpoint := some endpoint
            operation := some "asmb8_media.attach" })
        opened := [.reader, .traceLog] }
  | .ok (some token) =>
  let knownSecrets := knownSecrets ++ [token]
  match startup.connect token endpoint with
  | .error exn =>
      { reports := reports.failWith world table knownSecrets device.totals exn
        opened := [.reader, .traceLog] }
  | .ok session => serve world table knownSecrets session device reports

/-- `_run_daemon`. -/
def runDaemon (password : String) (startup : Startup ρ) (initial : Record) : Run ρ :=
  let reports := Reports.persist world .claim (0, 0) { state := initial }
  let run := attempt world table password startup reports
  { run with
    closed := [Resource.session, .reader, .traceLog].filter fun resource =>
      resource ∈ run.opened }

/-- A run fails before it has left its first state, or while it is connecting, or it
serves. -/
theorem attempt_cases (password : String) (startup : Startup ρ) (reports : Reports) :
    (∃ opened knownSecrets exn, attempt world table password startup reports =
        { reports := reports.failWith world table knownSecrets (0, 0) exn, opened }) ∨
    (∃ opened knownSecrets exn, attempt world table password startup reports =
        { reports := (reports.enter world .connecting .connecting (0, 0)).failWith world table
            knownSecrets (0, 0) exn
          opened }) ∨
    ∃ reader token session, startup.openImage = .ok reader ∧
      startup.allocate = .ok (some token) ∧
      startup.connect token reports.state.endpoint = .ok session ∧
      attempt world table password startup reports =
        serve world table [password, token] session (CDROMDevice.new reader)
          (reports.enter world .connecting .connecting (0, 0)) := by
  unfold attempt
  cases startup.openImage with
  | error exn => exact .inl ⟨_, _, _, rfl⟩
  | ok reader =>
      cases startup.openTrace with
      | error exn => exact .inl ⟨_, _, _, rfl⟩
      | ok =>
          right
          cases startup.allocate with
          | error exn => exact .inl ⟨_, _, _, rfl⟩
          | ok allocated =>
              cases allocated with
              | none => exact .inl ⟨_, _, _, rfl⟩
              | some token =>
                  dsimp only
                  cases connected : startup.connect token reports.state.endpoint with
                  | error exn => exact .inl ⟨_, _, _, rfl⟩
                  | ok session => exact .inr ⟨reader, token, session, rfl, rfl, connected, rfl⟩

theorem attempt_opened (password : String) (startup : Startup ρ) (reports : Reports)
    (resource : Resource) :
    resource ∈ (attempt world table password startup reports).opened ↔
      startup.Opens reports.state.endpoint resource := by
  unfold attempt
  cases opening : startup.openImage with
  | error exn => cases resource <;> simp [Startup.Opens, opening]
  | ok reader =>
      cases tracing : startup.openTrace with
      | error exn => cases resource <;> simp [Startup.Opens, opening, tracing]
      | ok =>
          cases allocating : startup.allocate with
          | error exn => cases resource <;> simp [Startup.Opens, opening, tracing, allocating]
          | ok allocated =>
              cases allocated with
              | none => cases resource <;> simp [Startup.Opens, opening, tracing, allocating]
              | some token =>
                  dsimp only
                  cases connecting : startup.connect token reports.state.endpoint with
                  | error exn =>
                      cases resource <;>
                        simp [Startup.Opens, opening, tracing, allocating, connecting]
                  | ok session =>
                      cases resource <;>
                        simp [Startup.Opens, opening, tracing, allocating, connecting, serve]

end RunDaemon

/-- The ACK of a BMC that accepts the session. -/
def acceptingAck : Bytes :=
  ({ dataPacketLen := 31 } : Header).marshal ++
    ((List.replicate 31 0).set opcodeOffset opRedirectAck).set connStatusOffset connOk

/-- A daemon that serves an image of two bytes over a connection. -/
def smallStartup (inbound : List ByteStream.Arrival) : Startup (Cache FileReader) where
  openImage := .ok (Cache.new ⟨[7, 8]⟩ none 1048576 32)
  openTrace := .ok ()
  allocate := .ok (some "token")
  dial := .ok { sock.inbound := ByteStream.leftover acceptingAck inbound }

def calmWorld : World where
  now _ := "2026-08-08T00:00:00+00:00"
  stopFlag _ := false
  traceWrite _ := .ok ()
  str _ := ""

end Asmb8Ikvm.Media

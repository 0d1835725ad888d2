import Asmb8Ikvm.Media.Daemon

/-!
# The lifecycle of the media daemon

The states a run writes: it starts, connects, is attached and is detached, and it
may fail from each of these but the last. While it serves, every record says that
it is attached; the record is attached only behind an ACK that accepts the
session.
-/

namespace Asmb8Ikvm.Media

open PyText Iusb

universe u

/-- The keys that go with a state: a reason for a stop when the session is detached, a class
of failure when it has failed. -/
structure Record.Classified (record : Record) : Prop where
  stopReason : record.stopReason.isSome = true ↔ record.state = .detached
  errorClass : record.errorClass.isSome = true ↔ record.state = .error

/-- The record is in a state on the way, without a reason for a stop or a failure. -/
structure Record.Underway (record : Record) (state : SessionState) : Prop where
  state : record.state = state
  stopReason : record.stopReason = none
  errorClass : record.errorClass = none

theorem Record.Underway.classified {record : Record} {state : SessionState}
    (underway : record.Underway state) (early : state ≠ .detached ∧ state ≠ .error) :
    record.Classified := by
  refine ⟨?_, ?_⟩
  · simp [underway.stopReason, underway.state, early.1]
  · simp [underway.errorClass, underway.state, early.2]

/-- The states of the records a run has written. -/
def Reports.states (reports : Reports) : List SessionState :=
  reports.persisted.map fun written => written.record.state

/-- A path through the states that ends: from `starting` over `connecting` to `attached`, in
which the daemon stays while it serves, and on to `detached`, or to `error` from any of
them. -/
inductive Lifecycle : List SessionState → Prop where
  | unstarted : Lifecycle [.starting, .error]
  | unconnected : Lifecycle [.starting, .connecting, .error]
  | served (n : ℕ) (last : SessionState) (ended : last = .detached ∨ last = .error) :
      Lifecycle (.starting :: .connecting :: List.replicate (n + 1) .attached ++ [last])

/-- The BMC has accepted the session: the token was sent, and the packet that came back is an
ACK with the status of an accepted connection. -/
def Accepted {ρ : Type u} (startup : Startup ρ) (token : String) : Prop :=
  ∃ transport sent authPkt ack later, startup.dial = .ok transport ∧
    buildAuth deviceCdrom startup.instanceNumber token = .ok authPkt ∧
    transport.writeFrame authPkt = (.ok (), sent) ∧ sent.readPacket = (.ok ack, later) ∧
    ack.opcode = opRedirectAck ∧ connStatusOffset < ack.payload.length ∧
    ack.payload.getD connStatusOffset 0 = connOk

theorem interpretAck_ok {packet : Packet} {endpoint : Option String}
    (ok : interpretAck packet endpoint = .ok ()) :
    packet.opcode = opRedirectAck ∧ connStatusOffset < packet.payload.length ∧
      packet.payload.getD connStatusOffset 0 = connOk := by
  unfold interpretAck at ok
  split_ifs at ok with isAck short
  rw [not_le] at short
  dsimp only at ok
  split_ifs at ok with accepted
  exact ⟨not_not.mp isAck, short, accepted⟩

theorem connect_accepted {ρ : Type u} {startup : Startup ρ} {token endpoint : String}
    {session : Session} (connected : startup.connect token endpoint = .ok session) :
    Accepted startup token := by
  unfold Startup.connect at connected
  cases dialled : startup.dial with
  | error exn =>
      rw [dialled] at connected
      cases connected
  | ok transport =>
      rw [dialled] at connected
      change (Session.authenticate deviceCdrom startup.instanceNumber token (some endpoint)
        transport).1 = .ok session at connected
      unfold Session.authenticate at connected
      cases built : buildAuth deviceCdrom startup.instanceNumber token with
      | error exn =>
          rw [built] at connected
          cases connected
      | ok authPkt =>
          rw [built] at connected
          dsimp only at connected
          rcases written : transport.writeFrame authPkt with ⟨exn | _, sent⟩
          · rw [written] at connected
            cases connected
          · rw [written] at connected
            dsimp only at connected
            unfold Session.awaitAck at connected
            rcases reading : sent.readPacket with ⟨exn | ack, later⟩
            · rw [reading] at connected
              cases exn <;> cases connected
            · rw [reading] at connected
              dsimp only at connected
              cases interpreted : interpretAck ack (some endpoint) with
              | error exn =>
                  rw [interpreted] at connected
                  cases connected
              | ok =>
                  exact ⟨transport, sent, authPkt, ack, later, dialled, built, written, reading,
                    interpretAck_ok interpreted⟩

variable {ρ : Type u}

/-- While it serves, the daemon writes records that say it is attached, and no others. -/
structure Attached (before : List Persisted) (daemon : Daemon ρ) : Prop where
  state : daemon.reports.state.Underway .attached
  written : ∃ more, daemon.reports.persisted = before ++ more ∧
    ∀ written ∈ more, written.record.Underway .attached

namespace Attached

variable {world : World} {before : List Persisted} {daemon : Daemon ρ}

theorem write (attached : Attached before daemon) {later : Daemon ρ} {written : Persisted}
    (persisted : later.reports.persisted = daemon.reports.persisted ++ [written])
    (record : written.record = later.reports.state)
    (state : later.reports.state.Underway .attached) : Attached before later := by
  rcases attached.written with ⟨more, soFar, underway⟩
  refine ⟨state, more ++ [written], ?_, ?_⟩
  · rw [persisted, soFar, List.append_assoc]
  · intro other mem
    rcases List.mem_append.mp mem with earlier | last
    · exact underway other earlier
    · rw [List.mem_singleton.mp last, record]
      exact state

theorem onIdle (attached : Attached before daemon) : Attached before (daemon.onIdle world) :=
  attached.write rfl rfl
    ⟨attached.state.state, attached.state.stopReason, attached.state.errorClass⟩

theorem onRequest (attached : Attached before daemon) (req : Packet) :
    Attached before (daemon.onRequest world req).2 := by
  rcases daemon.onRequest_cases world req with ⟨received, same, traceWrites, outcome⟩
  have state : received.reports.state.Underway .attached := by
    rw [same]
    refine ⟨?_, ?_, ?_⟩
    · exact (closeIdleStreak_state _ _).trans attached.state.state
    · exact (closeIdleStreak_stopReason _ _).trans attached.state.stopReason
    · exact (closeIdleStreak_errorClass _ _).trans attached.state.errorClass
  rcases outcome with ⟨exn, -, outcome⟩ | outcome
  · rw [outcome]
    refine ⟨state, ?_⟩
    rw [same]
    exact attached.written
  · rw [outcome]
    subst same
    exact attached.write rfl rfl ⟨state.state, state.stopReason, state.errorClass⟩

variable [Reader ρ]

theorem keeps (world : World) (before : List Persisted) :
    (Daemon.callbacks world : Callbacks (Daemon ρ)).Keeps fun _ => Attached before where
  check attached := ⟨attached.state, attached.written⟩
  read _ attached := attached
  idle _ attached := attached.onIdle
  request req attached := attached.onRequest req
  handle _ attached := ⟨attached.state, attached.written⟩
  raised _ attached := attached

end Attached

section Runs

variable (world : World) (table : CharTable)

/-- The records of a run that fails: those before, and one that says so. -/
theorem failWith_written (knownSecrets : List String) (totals : ℕ × ℕ) (exn : Exn)
    {reports : Reports} {state : SessionState} (underway : reports.state.Underway state) :
    ∃ written, (reports.failWith world table knownSecrets totals exn).persisted =
        reports.persisted ++ [written] ∧
      written.record.state = .error ∧ written.record.Classified := by
  have classified : ∀ message errorClass, ∃ written,
      (reports.fail world table knownSecrets totals message errorClass).persisted =
        reports.persisted ++ [written] ∧
      written.record.state = .error ∧ written.record.Classified := by
    intro message errorClass
    refine ⟨_, rfl, rfl, ?_, ?_⟩
    · exact iff_of_false (by simp [underway.stopReason]) (by simp)
    · exact iff_of_true rfl rfl
  unfold Reports.failWith
  split
  · exact classified _ _
  · exact classified _ _

theorem finish_written (outcome : ServeResult) {daemon : Daemon ρ}
    (underway : daemon.reports.state.Underway .attached) :
    ∃ written, (daemon.finish world outcome).persisted =
        daemon.reports.persisted ++ [written] ∧
      written.record.state = .detached ∧ written.record.Classified := by
  refine ⟨_, rfl, rfl, ?_, ?_⟩
  · refine iff_of_true ?_ rfl
    cases outcome <;> rfl
  · refine iff_of_false ?_ (by simp)
    change ¬ (closeIdleStreak _ daemon.reports.state).errorClass.isSome = true
    simp [underway.errorClass]

variable [Reader ρ]

theorem serve_written (knownSecrets : List String) (session : Session) (device : CDROMDevice ρ)
    {reports : Reports} {state : SessionState} (underway : reports.state.Underway state) :
    ∃ more last, (serve world table knownSecrets session device reports).reports.persisted =
        reports.persisted ++ more ++ [last] ∧
      more ≠ [] ∧ (∀ written ∈ more, written.record.Underway .attached) ∧
      (last.record.state = .detached ∨ last.record.state = .error) ∧
      last.record.Classified := by
  have entered : Attached (reports.enter world .attached .attached device.totals).persisted
      ({ device, reports := reports.enter world .attached .attached device.totals } :
        Daemon ρ) :=
    ⟨⟨rfl, underway.stopReason, underway.errorClass⟩, [], (List.append_nil _).symm, by simp⟩
  have attached := (Attached.keeps world _).serveForever session entered
  rcases attached.written with ⟨more, persisted, served⟩
  have concluded : ∃ last, (serve world table knownSecrets session device
      reports).reports.persisted = (reports.enter world .attached .attached
        device.totals).persisted ++ more ++ [last] ∧
      (last.record.state = .detached ∨ last.record.state = .error) ∧
      last.record.Classified := by
    rw [← persisted]
    unfold serve Daemon.conclude
    dsimp only
    split
    case h_1 outcome _ =>
      rcases finish_written world outcome attached.state with ⟨last, written, state, classified⟩
      exact ⟨last, written, .inl state, classified⟩
    case h_2 exn _ =>
      rcases failWith_written world table knownSecrets _ exn attached.state with
        ⟨last, written, state, classified⟩
      exact ⟨last, written, .inr state, classified⟩
  rcases concluded with ⟨last, written, ended, classified⟩
  have first : ∃ first : Persisted,
      (reports.enter world .attached .attached device.totals).persisted =
        reports.persisted ++ [first] ∧ first.record.Underway .attached :=
    ⟨_, rfl, rfl, underway.stopReason, underway.errorClass⟩
  rcases first with ⟨first, entering, firstUnderway⟩
  refine ⟨first :: more, last, ?_, by simp, ?_, ended, classified⟩
  · rw [written, entering, List.append_assoc reports.persisted, List.singleton_append]
  · intro other mem
    rcases List.mem_cons.mp mem with rfl | later
    · exact firstUnderway
    · exact served other later

/-- The states of the records while the daemon serves are all the same. -/
theorem states_of_attached {more : List Persisted}
    (underway : ∀ written ∈ more, written.record.Underway .attached) :
    more.map (fun written => written.record.state) = List.replicate more.length .attached := by
  refine List.eq_replicate_iff.mpr ⟨List.length_map .., ?_⟩
  intro state mem
  rcases List.mem_map.mp mem with ⟨written, member, rfl⟩
  exact (underway written member).state

theorem attempt_lifecycle (password : String) (startup : Startup ρ) {reports : Reports}
    {first : Persisted} (claimed : reports.persisted = [first])
    (firstUnderway : first.record.Underway .starting)
    (starting : reports.state.Underway .starting) :
    Lifecycle (attempt world table password startup reports).reports.states ∧
      ∀ written ∈ (attempt world table password startup reports).reports.persisted,
        written.record.Classified ∧
          (written.record.state = .attached →
            ∃ token, startup.allocate = .ok (some token) ∧ Accepted startup token) := by
  have connecting : ∃ second : Persisted,
      (reports.enter world .connecting .connecting (0, 0)).persisted = [first, second] ∧
        second.record.Underway .connecting ∧
        (reports.enter world .connecting .connecting (0, 0)).state.Underway .connecting :=
    ⟨_, congrArg (· ++ [_]) claimed, ⟨rfl, starting.stopReason, starting.errorClass⟩,
      ⟨rfl, starting.stopReason, starting.errorClass⟩⟩
  rcases connecting with ⟨second, entered, secondUnderway, underway⟩
  have firstClassified := firstUnderway.classified ⟨by decide, by decide⟩
  have secondClassified := secondUnderway.classified ⟨by decide, by decide⟩
  rcases attempt_cases world table password startup reports with
    ⟨opened, knownSecrets, exn, run⟩ | ⟨opened, knownSecrets, exn, run⟩ |
      ⟨reader, token, session, -, allocated, connected, run⟩
  · rw [run]
    rcases failWith_written world table knownSecrets (0, 0) exn starting with
      ⟨last, written, state, classified⟩
    rw [claimed] at written
    refine ⟨?_, ?_⟩
    · simp only [Reports.states, written, List.map_append, List.map_cons, List.map_nil,
        firstUnderway.state, state]
      exact .unstarted
    · rw [written]
      simp [firstClassified, firstUnderway.state, classified, state]
  · rw [run]
    rcases failWith_written world table knownSecrets (0, 0) exn underway with
      ⟨last, written, state, classified⟩
    rw [entered] at written
    refine ⟨?_, ?_⟩
    · simp only [Reports.states, written, List.map_append, List.map_cons, List.map_nil,
        firstUnderway.state, secondUnderway.state, state]
      exact .unconnected
    · rw [written]
      simp [firstClassified, secondClassified, firstUnderway.state, secondUnderway.state,
        classified, state]
  · rw [run]
    have accepted : ∃ token, startup.allocate = .ok (some token) ∧ Accepted startup token :=
      ⟨token, allocated, connect_accepted connected⟩
    rcases serve_written world table [password, token] session (CDROMDevice.new reader) underway
      with
      ⟨more, last, written, nonempty, attached, ended, classified⟩
    rw [entered] at written
    refine ⟨?_, ?_⟩
    · have length : more.length = more.length - 1 + 1 :=
        (Nat.sub_add_cancel (List.length_pos_iff.mpr nonempty)).symm
      simp only [Reports.states, written, List.map_append, List.map_cons, List.map_nil,
        firstUnderway.state, secondUnderway.state, states_of_attached attached]
      rw [length]
      exact .served _ _ ended
    · intro record mem
      refine ⟨?_, fun _ => accepted⟩
      rw [written, List.mem_append, List.mem_append, List.mem_singleton] at mem
      rcases mem with (early | serving) | rfl
      · rcases List.mem_pair.mp early with rfl | rfl
        · exact firstClassified
        · exact secondClassified
      · exact (attached record serving).classified ⟨by decide, by decide⟩
      · exact classified

/-- Every run goes through its states in order and ends in the last one; each record has the
keys of its state and no others; the run is attached only behind an ACK that accepts the
session; and what its startup has opened, and nothing else, is closed. -/
theorem runDaemon_lifecycle (password : String) (startup : Startup ρ)
    (sessionId endpoint : String) (pid : ℤ) (image now : String) :
    Lifecycle (runDaemon world table password startup
        (initialState sessionId endpoint pid image now)).reports.states ∧
    (∀ written ∈ (runDaemon world table password startup
        (initialState sessionId endpoint pid image now)).reports.persisted,
      written.record.Classified ∧
        (written.record.state = .attached →
          ∃ token, startup.allocate = .ok (some token) ∧ Accepted startup token)) ∧
    ∀ resource,
      (resource ∈ (runDaemon world table password startup
          (initialState sessionId endpoint pid image now)).closed ↔
        resource ∈ (runDaemon world table password startup
          (initialState sessionId endpoint pid image now)).opened) ∧
      (resource ∈ (runDaemon world table password startup
          (initialState sessionId endpoint pid image now)).opened ↔
        startup.Opens endpoint resource) := by
  have claimed : ∃ first : Persisted, (Reports.persist world .claim (0, 0)
      { state := initialState sessionId endpoint pid image now }).persisted = [first] ∧
      first.record.Underway .starting :=
    ⟨_, rfl, rfl, rfl, rfl⟩
  rcases claimed with ⟨first, claimed, firstUnderway⟩
  have attempted := attempt_lifecycle world table password startup claimed firstUnderway
    ⟨rfl, rfl, rfl⟩
  refine ⟨attempted.1, attempted.2, ?_⟩
  intro resource
  refine ⟨?_, attempt_opened world table password startup _ resource⟩
  unfold runDaemon
  dsimp only
  cases resource <;> simp

end Runs

end Asmb8Ikvm.Media
